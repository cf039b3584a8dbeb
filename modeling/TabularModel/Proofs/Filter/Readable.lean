import TabularModel.Interchange.Filter
import TabularModel.Proofs.Text.Trimming

/-!
# Readable filters

Which trees of conditions, groups and links a document can give: their operators and kinds
of links are what some name is read as, and no name in them is blank. The canonical name of
such an operator or kind is read as it again.
-/

set_option autoImplicit false

namespace TabularModel

namespace Filter

/-! ## Trees that can be read -/

/-- Some name is read as the operator. -/
def ConditionOperator.IsReadable (operator : ConditionOperator) : Prop :=
  ∃ text, ConditionOperator.ofText text = operator

/-- Some name is read as the kind. -/
def LinkKind.IsReadable (kind : LinkKind) : Prop :=
  ∃ text, LinkKind.ofText text = kind

/-- A name that is absent or can be seen. -/
def IsVisible (name : Option Text) : Prop :=
  ∀ text ∈ name, Text.allBlank text = false

def Condition.IsReadable (condition : Condition) : Prop :=
  condition.operator.IsReadable ∧ IsVisible condition.joinAlias

mutual

def Item.IsReadable : Item -> Prop
  | .condition condition => condition.IsReadable
  | .group group => group.IsReadable
  | .link link => link.IsReadable

def Item.AreReadable : List Item -> Prop
  | [] => True
  | item :: items => item.IsReadable ∧ Item.AreReadable items

def Group.IsReadable : Group -> Prop
  | ⟨_, items⟩ => Item.AreReadable items

def Group.AreReadable : List Group -> Prop
  | [] => True
  | group :: groups => group.IsReadable ∧ Group.AreReadable groups

def Link.IsReadable : Link -> Prop
  | ⟨_, _, _, tableAlias, kind, filters, links⟩ =>
      (kind.IsReadable ∧ IsVisible tableAlias) ∧ Group.AreReadable filters ∧ Link.AreReadable links

def Link.AreReadable : List Link -> Prop
  | [] => True
  | link :: links => link.IsReadable ∧ Link.AreReadable links

end

def Query.IsReadable (query : Query) : Prop :=
  Group.AreReadable query.filters ∧ Link.AreReadable query.links

/-- The canonical name of a kind of link. -/
def LinkKind.name : LinkKind -> Text
  | .inner => "inner"
  | .outer => "outer"
  | .any => "any"
  | .notAny => "not any"
  | .other name => name

/-! ## Names that are read back -/

theorem ConditionOperator.ofText_name_of_mem :
    ∀ operator ∈ ConditionOperator.recognized, ofText operator.name = operator := by
  decide +kernel

theorem ConditionOperator.ofText_eq (text : Text) :
    ofText text = (recognized.find? (·.name == canonicalSpelling (Text.lower (Text.trim text)))).getD
      (.unrecognized (Text.trim text)) :=
  rfl

theorem ConditionOperator.ofText_trim (text : Text) : ofText (Text.trim text) = ofText text := by
  have same : Text.trim (Text.trim text) = Text.trim text := Text.isTrimmed_trim text
  simp only [ofText, same]

/-- An operator is read from its canonical name if it is read at all. -/
theorem ConditionOperator.IsReadable.ofText_name {operator : ConditionOperator}
    (readable : operator.IsReadable) : ofText operator.name = operator := by
  obtain ⟨text, rfl⟩ := readable
  cases found : recognized.find? (·.name == canonicalSpelling (Text.lower (Text.trim text))) with
  | some operator =>
      have read : ofText text = operator := by rw [ofText_eq, found, Option.getD_some]
      rw [read]
      exact ofText_name_of_mem operator (List.mem_of_find?_eq_some found)
  | none =>
      have read : ofText text = .unrecognized (Text.trim text) := by
        rw [ofText_eq, found, Option.getD_none]
      have named : (ConditionOperator.unrecognized (Text.trim text)).name = Text.trim text := rfl
      rw [read, named, ofText_trim, read]

theorem LinkKind.ofText_trim (text : Text) : ofText (Text.trim text) = ofText text := by
  have same : Text.trim (Text.trim text) = Text.trim text := Text.isTrimmed_trim text
  simp only [ofText, same]

/-- The kinds of links with a meaning. -/
def LinkKind.recognized : List LinkKind :=
  [.inner, .outer, .any, .notAny]

theorem LinkKind.ofText_mem_or (text : Text) :
    ofText text ∈ recognized ∨ ofText text = .other (Text.trim text) := by
  simp only [ofText]
  split
  · exact Or.inl (by decide)
  · split
    · exact Or.inl (by decide)
    · split
      · exact Or.inl (by decide)
      · split
        · exact Or.inl (by decide)
        · exact Or.inr rfl

theorem LinkKind.ofText_name_of_mem : ∀ kind ∈ recognized, ofText kind.name = kind := by
  decide +kernel

/-- The same of the kinds of links. -/
theorem LinkKind.IsReadable.ofText_name {kind : LinkKind} (readable : kind.IsReadable) :
    ofText kind.name = kind := by
  obtain ⟨text, rfl⟩ := readable
  rcases ofText_mem_or text with known | other
  · exact ofText_name_of_mem _ known
  · have named : (LinkKind.other (Text.trim text)).name = Text.trim text := rfl
    rw [other, named, ofText_trim, other]

theorem connectiveOfText_connectiveName (connective : Connective) :
    connectiveOfText (connectiveName connective) = connective := by
  cases connective <;> decide +kernel

end Filter

end TabularModel
