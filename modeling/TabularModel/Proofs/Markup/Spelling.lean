import Mathlib.Data.List.Nodup
import TabularModel.Proofs.Markup.Tag

/-!
# Ways to write a text

Every text can be escaped, and a tag can give any values for distinct keys.
-/

set_option autoImplicit false

namespace TabularModel

namespace Markup

theorem exists_numeral (n : Nat) : ∃ digits, Numeral 10 digits n := by
  have isDigit : ∀ digit < 10, digitIn 10 (Char.ofNat (48 + digit)) = some digit := by decide
  induction n using Nat.strong_induction_on with
  | _ n ih =>
      by_cases single : n < 10
      · exact ⟨_, .single (isDigit n single)⟩
      · obtain ⟨digits, front⟩ := ih (n / 10) (by omega)
        have numeral := front.further (isDigit (n % 10) (Nat.mod_lt n (by decide)))
        rw [Nat.div_add_mod'] at numeral
        exact ⟨_, numeral⟩

theorem isSpaces_nil : IsSpaces [] := by
  intro c member
  cases member

theorem mem_of_isSpace {c : Char} (space : isSpace c = true) : c ∈ [' ', '\t', '\r', '\n'] := by
  simpa [isSpace, or_assoc] using space

/-- Every text can be escaped, and so that it has no spaces. -/
theorem exists_escaped (text : Text) :
    ∃ raw, Escaped text raw ∧ ∀ c ∈ raw, isSpace c = false := by
  induction text with
  | nil => exact ⟨[], .nil, by simp⟩
  | cons c text ih =>
      obtain ⟨raw, escaped, visible⟩ := ih
      by_cases special : isReserved c = true ∨ isSpace c = true
      · obtain ⟨digits, numeral⟩ := exists_numeral c.toNat
        have notZero : c ≠ '\x00' := by
          rintro rfl
          exact absurd special (by decide)
        have reference : Reference c ('#' :: digits) := .decimal notZero numeral
        refine ⟨_, .reference reference escaped, fun part member => ?_⟩
        rw [Bool.eq_false_iff]
        intro space
        have isMark : Text.isLetterOrDigit part = false ∧ part ≠ '#' ∧ part ≠ '&' ∧ part ≠ ';' := by
          have each := mem_of_isSpace space
          simp only [List.mem_cons, List.not_mem_nil, or_false] at each
          rcases each with rfl | rfl | rfl | rfl <;> decide
        obtain ⟨notPlain, notNumber, notAmpersand, notEnd⟩ := isMark
        rcases List.mem_cons.mp member with same | member
        · exact notAmpersand same
        · rcases List.mem_append.mp member with inName | member
          · exact reference.not_mem ⟨notPlain, notNumber⟩ inName
          · rcases List.mem_cons.mp member with same | member
            · exact notEnd same
            · rw [visible part member] at space
              cases space
      · obtain ⟨notReserved, notSpace⟩ := not_or.mp special
        refine ⟨c :: raw, .plain (Bool.eq_false_iff.mpr notReserved) escaped, fun part member => ?_⟩
        rcases List.mem_cons.mp member with rfl | member
        · exact Bool.eq_false_iff.mpr notSpace
        · exact visible part member

/-- A text without reserved characters stands for itself. -/
theorem Escaped.of_plain {text : Text} (ordinary : text.all (!isReserved ·) = true) :
    Escaped text text := by
  induction text with
  | nil => exact .nil
  | cons c text ih =>
      rw [List.all_cons, Bool.and_eq_true, Bool.not_eq_true'] at ordinary
      exact .plain ordinary.1 (ih ordinary.2)

/-- A key without a prefix. -/
def IsKey (key : Text) : Prop :=
  key ≠ [] ∧ key.all (fun c => isNamePart c && c != ':') = true

instance (key : Text) : Decidable (IsKey key) :=
  inferInstanceAs (Decidable (_ ∧ _))

theorem IsKey.isName {key : Text} (isKey : IsKey key) : IsName key := by
  refine ⟨isKey.1, fun c member => ?_⟩
  have part := List.all_eq_true.mp isKey.2 c member
  rw [Bool.and_eq_true] at part
  exact part.1

theorem IsKey.localName_eq {key : Text} (isKey : IsKey key) : localName key = key := by
  have absent : ':' ∉ key := by
    intro member
    have part := List.all_eq_true.mp isKey.2 ':' member
    exact absurd part (by decide)
  rw [localName, Text.splitAt?_eq_none absent]

/-- An attribute with an escaped value, behind one space and without others. -/
def WrittenAttribute.single {key value raw : Text} (isKey : IsKey key) (escaped : Escaped value raw) :
    WrittenAttribute where
  gap := [' ']
  key := key
  before := []
  after := []
  quote := '"'
  value := value
  raw := raw
  separated := ⟨by decide, fun c member => List.mem_singleton.mp member ▸ rfl⟩
  isKey := isKey.isName
  spaced := ⟨isSpaces_nil, isSpaces_nil⟩
  isQuote := Or.inl rfl
  escaped := escaped

/-- A tag without spaces of its own. -/
def WrittenTag.single {name : Text} (isName : IsKey name) (attributes : List WrittenAttribute)
    (distinct : (attributes.map (·.key)).Nodup) : WrittenTag where
  name := name
  attributes := attributes
  spaces := []
  closing := []
  isName := isName.isName
  distinct := distinct
  blank := isSpaces_nil
  blankClosing := isSpaces_nil

/-- Attributes can give any values for distinct keys. -/
theorem exists_attributes {keys : List Text} (areKeys : ∀ key ∈ keys, IsKey key)
    (distinct : keys.Nodup) (given : Text -> Option Text) :
    ∃ attributes : List WrittenAttribute, (attributes.map (·.key)).Nodup ∧
      (∀ own ∈ attributes, own.key ∈ keys) ∧
        ∀ key ∈ keys, (attributes.find? (localName ·.key == key)).map (·.value) = given key := by
  induction keys with
  | nil => exact ⟨[], List.nodup_nil, by simp, by simp⟩
  | cons key keys ih =>
      obtain ⟨isKey, others⟩ := List.forall_mem_cons.mp areKeys
      obtain ⟨fresh, distinct⟩ := List.nodup_cons.mp distinct
      obtain ⟨attributes, nodup, among, found⟩ := ih others distinct
      have apart : ∀ own ∈ attributes, own.key ≠ key := fun own member same =>
        fresh (same ▸ among own member)
      have unfound : attributes.find? (localName ·.key == key) = none := by
        refine List.find?_eq_none.mpr fun own member => ?_
        rw [(others _ (among own member)).localName_eq, beq_iff_eq]
        exact apart own member
      cases value : given key with
      | none =>
          refine ⟨attributes, nodup, fun own member => List.mem_cons_of_mem _ (among own member),
            List.forall_mem_cons.mpr ⟨?_, found⟩⟩
          rw [unfound, value]
          rfl
      | some text =>
          obtain ⟨raw, escaped, _⟩ := exists_escaped text
          have named : localName (WrittenAttribute.single isKey escaped).key = key :=
            isKey.localName_eq
          refine ⟨.single isKey escaped :: attributes, List.nodup_cons.mpr ⟨?_, nodup⟩, ?_,
            List.forall_mem_cons.mpr ⟨?_, fun other member => ?_⟩⟩
          · rw [List.mem_map]
            rintro ⟨own, member, same⟩
            exact apart own member same
          · intro own member
            rcases List.mem_cons.mp member with rfl | member
            · exact List.mem_cons_self
            · exact List.mem_cons_of_mem _ (among own member)
          · rw [List.find?_cons_of_pos (by rw [named, beq_iff_eq]), value]
            rfl
          · have different : key ≠ other := fun same => fresh (same ▸ member)
            rw [List.find?_cons_of_neg (by rw [named, beq_iff_eq]; exact different),
              found other member]

/-- A tag can give any values for distinct keys. -/
theorem exists_tag (name : Text) (isName : IsKey name) (keys : List Text)
    (areKeys : ∀ key ∈ keys, IsKey key) (distinct : keys.Nodup) (given : Text -> Option Text) :
    ∃ tag : WrittenTag, localName tag.name = name ∧ ∀ key ∈ keys, tag.value? key = given key := by
  obtain ⟨attributes, nodup, _, found⟩ := exists_attributes areKeys distinct given
  exact ⟨.single isName attributes nodup, isName.localName_eq, found⟩

end Markup

end TabularModel
