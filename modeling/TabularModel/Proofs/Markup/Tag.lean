import TabularModel.Markup.Tag
import TabularModel.Proofs.Markup.Entity

/-!
# Written tags

A tag is written as its name and a list of attributes with distinct keys, each of which has
an escaped value in quotes. The reader finds the value of every key. An element is written
as one tag or as two tags around its content.
-/

set_option autoImplicit false

namespace TabularModel

namespace Markup

/-- A character that may stand in the name of an element or of an attribute. -/
def isNamePart (c : Char) : Bool :=
  !isSpace c && !(['<', '>', '/', '=', '"', '\'', '!', '?', '&'].contains c)

def IsName (name : Text) : Prop :=
  name ≠ [] ∧ ∀ c ∈ name, isNamePart c = true

/-- Spaces, or nothing. -/
def IsSpaces (spaces : Text) : Prop :=
  ∀ c ∈ spaces, isSpace c = true

/-- An attribute with the spaces in front of it and around its equals sign. -/
structure WrittenAttribute where
  gap : Text
  key : Text
  before : Text
  after : Text
  quote : Char
  value : Text
  raw : Text
  separated : gap ≠ [] ∧ IsSpaces gap
  isKey : IsName key
  spaced : IsSpaces before ∧ IsSpaces after
  isQuote : quote = '"' ∨ quote = '\''
  escaped : Escaped value raw

namespace WrittenAttribute

variable (written : WrittenAttribute)

/-- The value in its quotes. -/
def quoted : Text :=
  written.quote :: (written.raw ++ [written.quote])

def spelled : Text :=
  written.gap ++ (written.key ++ (written.before ++ '=' :: (written.after ++ written.quoted)))

def read : Attribute :=
  ⟨written.key, written.raw⟩

theorem quote_not_mem : written.quote ∉ written.raw := by
  rcases written.isQuote with same | same
  · rw [same]
    exact written.escaped.not_mem (by decide) (by decide)
  · rw [same]
    exact written.escaped.not_mem (by decide) (by decide)

theorem readValue_eq (position : Nat) (rest : Text) :
    ∃ next bound, readValue position (written.after ++ (written.quoted ++ rest)) =
      .ok (written.raw, next, ⟨rest, bound⟩) := by
  have shape : written.quoted ++ rest = written.quote :: (written.raw ++ written.quote :: rest) := by
    simp [quoted]
  have visible : isSpace written.quote = false := by
    rcases written.isQuote with same | same <;> rw [same] <;> decide
  have inside : ∀ c ∈ written.raw, (c != written.quote) = true := by
    intro c member
    exact bne_iff_ne.mpr fun same => written.quote_not_mem (same ▸ member)
  obtain ⟨taken, dropped⟩ := Text.takeWhile_dropWhile_append (· != written.quote) written.raw
    (written.quote :: rest) inside (by simp)
  have begins : (written.after ++ (written.quoted ++ rest)).dropWhile isSpace =
      written.quote :: (written.raw ++ written.quote :: rest) := by
    rw [shape]
    exact (Text.takeWhile_dropWhile_append isSpace _ _ written.spaced.2 (by simp [visible])).2
  unfold readValue
  split
  · next nothing =>
      rw [begins] at nothing
      cases nothing
  · next quote quoted found =>
      rw [begins] at found
      cases found
      rw [if_pos written.isQuote]
      split
      · next nothing =>
          rw [dropped] at nothing
          cases nothing
      · next behind found =>
          rw [dropped] at found
          cases found
          exact ⟨_, by simp [shape]; omega, by rw [taken]⟩

/-- An attribute in front of others is read first. -/
theorem readAttributes_spelled (position : Nat) {earlier : List (Text × Nat)} (rest : Text)
    (fresh : ∀ pair ∈ earlier, pair.1 ≠ written.key) :
    ∃ next start, readAttributes position earlier (written.spelled ++ rest) =
      (written.read :: (readAttributes next (earlier ++ [(written.key, start)]) rest).1,
        (readAttributes next (earlier ++ [(written.key, start)]) rest).2) := by
  obtain ⟨nonempty, parts⟩ := written.isKey
  obtain ⟨first, others, shape⟩ := List.exists_cons_of_ne_nil nonempty
  have isPart (c : Char) (member : c ∈ written.key) : isSpace c = false ∧ c ≠ '=' := by
    have part := parts c member
    rw [isNamePart, Bool.and_eq_true, Bool.not_eq_true'] at part
    refine ⟨part.1, ?_⟩
    rintro rfl
    exact absurd part.2 (by decide)
  have firstPart := isPart first (shape ▸ List.mem_cons_self)
  have begins : (written.spelled ++ rest).dropWhile isSpace =
      first :: (others ++ (written.before ++ '=' :: (written.after ++ (written.quoted ++ rest)))) := by
    have spelled : written.spelled ++ rest = written.gap ++ first ::
        (others ++ (written.before ++ '=' :: (written.after ++ (written.quoted ++ rest)))) := by
      simp [spelled, shape]
    rw [spelled]
    exact (Text.takeWhile_dropWhile_append isSpace _ _ written.separated.2 (by simp [firstPart.1])).2
  -- The key ends at a space in front of the equals sign, or at the sign itself.
  have ends : ∀ c ∈ (written.before ++
      '=' :: (written.after ++ (written.quoted ++ rest))).head?,
      (c ≠ '=' && !isSpace c) = false := by
    intro c member
    cases shape : written.before with
    | nil =>
        rw [shape] at member
        cases member
        rfl
    | cons space spaces =>
        rw [shape] at member
        cases member
        have isSpace := written.spaced.1 c (shape ▸ List.mem_cons_self)
        simp [isSpace]
  obtain ⟨taken, dropped⟩ := Text.takeWhile_dropWhile_append (fun c => c ≠ '=' && !isSpace c) others _
    (by
      intro c member
      have part := isPart c (shape ▸ List.mem_cons_of_mem first member)
      simp [part.1, part.2])
    ends
  rw [readAttributes]
  split
  · next nothing =>
      rw [begins] at nothing
      cases nothing
  · next head tail found =>
      rw [begins] at found
      cases found
      have equals : List.dropWhile isSpace
          (written.before ++ '=' :: (written.after ++ (written.quoted ++ rest))) =
          '=' :: (written.after ++ (written.quoted ++ rest)) :=
        (Text.takeWhile_dropWhile_append isSpace _ _ written.spaced.1 (by simp [isSpace])).2
      simp only [taken]
      split
      · next valueText found =>
          rw [dropped, equals] at found
          cases found
          split
          · next previous found =>
              have same := List.find?_some found
              rw [← shape] at same
              exact absurd (beq_iff_eq.mp same) (fresh _ (List.mem_of_find?_eq_some found))
          · split
            · next fault failed =>
                obtain ⟨next, bound, read⟩ := written.readValue_eq _ rest
                rw [read] at failed
                cases failed
            · next value behind left bound found =>
                obtain ⟨next, bound, read⟩ := written.readValue_eq _ rest
                rw [read] at found
                cases found
                exact ⟨behind, _, by rw [WrittenAttribute.read, shape]⟩
      · next noEquals =>
          rw [dropped, equals] at noEquals
          exact absurd rfl (noEquals _)

end WrittenAttribute

theorem readAttributes_spaces (position : Nat) (earlier : List (Text × Nat)) {spaces : Text}
    (blank : IsSpaces spaces) : readAttributes position earlier spaces = ([], none) := by
  have nothing : spaces.dropWhile isSpace = [] := List.dropWhile_eq_nil_iff.mpr blank
  rw [readAttributes]
  split
  · rfl
  · next found =>
      rw [nothing] at found
      cases found

/-- All attributes of a list are read if their keys are distinct. -/
theorem readAttributes_flatMap_spelled (attributes : List WrittenAttribute) (position : Nat)
    (earlier : List (Text × Nat)) {spaces : Text} (blank : IsSpaces spaces)
    (fresh : ∀ written ∈ attributes, ∀ pair ∈ earlier, pair.1 ≠ written.key)
    (distinct : (attributes.map (·.key)).Nodup) :
    readAttributes position earlier (attributes.flatMap (·.spelled) ++ spaces) =
      (attributes.map (·.read), none) := by
  induction attributes generalizing position earlier with
  | nil => exact readAttributes_spaces position earlier blank
  | cons written attributes ih =>
      obtain ⟨own, others⟩ := List.nodup_cons.mp distinct
      rw [List.flatMap_cons, List.append_assoc]
      obtain ⟨next, start, first⟩ := written.readAttributes_spelled position
        (attributes.flatMap (·.spelled) ++ spaces) (fresh written List.mem_cons_self)
      rw [first, ih next _ ?_ others]
      · rfl
      · intro other member pair earlierPair
        rcases List.mem_append.mp earlierPair with before | last
        · exact fresh other (List.mem_cons_of_mem _ member) pair before
        · rw [List.mem_singleton.mp last]
          exact fun same => own (List.mem_map.mpr ⟨other, member, same.symm⟩)

/-- The inside of a tag, and the spaces in the end tag that belongs to it. -/
structure WrittenTag where
  name : Text
  attributes : List WrittenAttribute
  spaces : Text
  closing : Text
  isName : IsName name
  distinct : (attributes.map (·.key)).Nodup
  blank : IsSpaces spaces
  blankClosing : IsSpaces closing

namespace WrittenTag

variable (written : WrittenTag)

def content : Text :=
  written.name ++ (written.attributes.flatMap (·.spelled) ++ written.spaces)

def tag : Tag :=
  ⟨written.content⟩

/-- The value that the tag gives for a key, whatever prefix the key is written with. -/
def value? (key : Text) : Option Text :=
  (written.attributes.find? (localName ·.key == key)).map (·.value)

/-- The tag of an element without content. -/
def alone : Text :=
  '<' :: (written.content ++ ['/', '>'])

/-- The tags of an element around its content. -/
def around (inside : Text) : Text :=
  '<' :: (written.content ++ '>' ::
    (inside ++ '<' :: '/' :: (written.name ++ (written.closing ++ ['>']))))

/-- How an element is written. One that is bare may do without an end tag. -/
inductive Spells (bare : Prop) : Text -> Text -> Prop where
  | alone (isBare : bare) : Spells bare [] written.alone
  | around (inside : Text) : Spells bare inside (written.around inside)

theorem head?_attributes :
    ∀ c ∈ (written.attributes.flatMap (·.spelled) ++ written.spaces).head?, isSpace c = true := by
  intro c member
  cases shape : written.attributes with
  | nil =>
      rw [shape] at member
      exact written.blank c (List.mem_of_mem_head? member)
  | cons first others =>
      obtain ⟨mark, gap, begins⟩ := List.exists_cons_of_ne_nil first.separated.1
      rw [shape, List.flatMap_cons, WrittenAttribute.spelled, begins] at member
      cases member
      exact first.separated.2 c (begins ▸ List.mem_cons_self)

theorem name_tag : written.tag.name = written.name := by
  refine (Text.takeWhile_dropWhile_append (!isSpace ·) written.name _ ?_ ?_).1
  · intro c member
    have part := written.isName.2 c member
    rw [isNamePart, Bool.and_eq_true] at part
    exact part.1
  · intro c member
    rw [written.head?_attributes c member]
    rfl

theorem attributes_tag :
    written.tag.attributes = (written.attributes.map (·.read), none) := by
  rw [Tag.attributes, name_tag, tag, content, List.drop_left]
  exact readAttributes_flatMap_spelled _ _ [] written.blank (by simp) written.distinct

theorem localName_tag : written.tag.localName = localName written.name := by
  rw [Tag.localName, name_tag]

/-- The reader finds what the tag gives. -/
theorem attribute?_tag (key : Text) : written.tag.attribute? key = .ok (written.value? key) := by
  rw [Tag.attribute?, attributes_tag, value?]
  simp only [List.find?_map, Function.comp_def, WrittenAttribute.read]
  cases found : written.attributes.find? (localName ·.key == key) with
  | none => rfl
  | some own =>
      simp only [Option.map_some, own.escaped.unescape_eq]
      rfl

end WrittenTag

end Markup

end TabularModel
