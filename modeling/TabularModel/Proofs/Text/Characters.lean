import TabularModel.Decimal.Integer
import TabularModel.Text.Blank

/-!
# Classes of characters

Letters, digits and blanks by their codes. A letter or digit is no blank and no
mark of any written form.
-/

set_option autoImplicit false

namespace TabularModel

namespace Text

theorem isLetter_iff (c : Char) :
    isLetter c = true ↔
      (97 ≤ c.toNat ∧ c.toNat ≤ 122) ∨ (65 ≤ c.toNat ∧ c.toNat ≤ 90) ∨ c.toNat = 95 := by
  have underscore : c = '_' ↔ c.toNat = 95 := by
    constructor
    · rintro rfl
      rfl
    · intro code
      exact Char.ext (UInt32.toNat_inj.mp code)
  simp only [isLetter, Bool.or_eq_true, Bool.and_eq_true, decide_eq_true_eq, beq_iff_eq,
    Char.le_def, UInt32.le_iff_toNat_le, underscore, or_assoc]
  exact Iff.rfl

theorem isDigit_iff (c : Char) : Decimal.isDigit c = true ↔ 48 ≤ c.toNat ∧ c.toNat ≤ 57 := by
  simp only [Decimal.isDigit, Bool.and_eq_true, decide_eq_true_eq, Char.le_def,
    UInt32.le_iff_toNat_le]
  exact Iff.rfl

theorem isLetterOrDigit_eq (c : Char) :
    isLetterOrDigit c = (isLetter c || Decimal.isDigit c) := rfl

theorem isBlank_iff (c : Char) :
    isBlank c = true ↔
      (9 ≤ c.toNat ∧ c.toNat ≤ 13) ∨ c.toNat = 0x20 ∨ c.toNat = 0x85 ∨ c.toNat = 0xA0 ∨
        c.toNat = 0x1680 ∨ (0x2000 ≤ c.toNat ∧ c.toNat ≤ 0x200A) ∨ c.toNat = 0x2028 ∨
        c.toNat = 0x2029 ∨ c.toNat = 0x202F ∨ c.toNat = 0x205F ∨ c.toNat = 0x3000 := by
  simp only [isBlank, Bool.or_eq_true, Bool.and_eq_true, decide_eq_true_eq, beq_iff_eq, or_assoc]

theorem not_isBlank_of_isLetter {c : Char} (letter : isLetter c = true) : isBlank c = false := by
  rw [isLetter_iff] at letter
  rw [Bool.eq_false_iff, ne_eq, isBlank_iff]
  omega

theorem not_isBlank_of_isDigit {c : Char} (digit : Decimal.isDigit c = true) :
    isBlank c = false := by
  rw [isDigit_iff] at digit
  rw [Bool.eq_false_iff, ne_eq, isBlank_iff]
  omega

theorem not_isBlank_of_isLetterOrDigit {c : Char} (plain : isLetterOrDigit c = true) :
    isBlank c = false := by
  rw [isLetterOrDigit_eq, Bool.or_eq_true] at plain
  exact plain.elim not_isBlank_of_isLetter not_isBlank_of_isDigit

/-- A mark that is neither letter nor digit differs from every letter and digit. -/
theorem ne_of_isLetterOrDigit {c : Char} (mark : Char) (plain : isLetterOrDigit c = true)
    (other : isLetterOrDigit mark = false) : c ≠ mark := by
  rintro rfl
  rw [plain] at other
  exact Bool.noConfusion other

/-- The characters of a plain name are letters and digits, the first a letter. -/
theorem isPlainName_iff (name : Text) :
    isPlainName name = true ↔
      ∃ first rest, name = first :: rest ∧ isLetter first = true ∧
        ∀ c ∈ rest, isLetterOrDigit c = true := by
  cases name with
  | nil => simp [isPlainName]
  | cons first rest =>
      rw [isPlainName, Bool.and_eq_true, List.all_eq_true]
      constructor
      · rintro ⟨letter, others⟩
        exact ⟨first, rest, rfl, letter, others⟩
      · rintro ⟨_, _, same, letter, others⟩
        obtain ⟨rfl, rfl⟩ := List.cons.inj same
        exact ⟨letter, others⟩

theorem isLetterOrDigit_of_isPlainName {name : Text} (plain : isPlainName name = true) :
    ∀ c ∈ name, isLetterOrDigit c = true := by
  obtain ⟨first, rest, rfl, letter, others⟩ := (isPlainName_iff name).mp plain
  intro c member
  rcases List.mem_cons.mp member with rfl | member
  · rw [isLetterOrDigit, letter, Bool.true_or]
  · exact others c member

theorem doubling_cons (mark c : Char) (text : Text) :
    doubling mark (c :: text) = (if c = mark then [c, c] else [c]) ++ doubling mark text :=
  List.flatMap_cons ..

theorem doubling_cons_self (mark : Char) (text : Text) :
    doubling mark (mark :: text) = mark :: mark :: doubling mark text := by
  rw [doubling_cons, if_pos rfl]
  rfl

theorem doubling_cons_of_ne {mark c : Char} (text : Text) (different : c ≠ mark) :
    doubling mark (c :: text) = c :: doubling mark text := by
  rw [doubling_cons, if_neg different, List.singleton_append]

theorem mem_doubling_iff {mark c : Char} {text : Text} : c ∈ doubling mark text ↔ c ∈ text := by
  rw [doubling, List.mem_flatMap]
  constructor
  · rintro ⟨found, member, inside⟩
    have same : c = found := by
      split at inside
      · simpa using inside
      · exact List.mem_singleton.mp inside
    exact same ▸ member
  · intro member
    refine ⟨c, member, ?_⟩
    split <;> simp

end Text

end TabularModel
