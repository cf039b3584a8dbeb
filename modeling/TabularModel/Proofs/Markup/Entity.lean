import TabularModel.Markup.Entity
import TabularModel.Proofs.Text.Trimming

/-!
# Escaped text

A text is escaped character by character: a character stands for itself, or a reference
stands for it. Whatever is written in this way is read back.
-/

set_option autoImplicit false

namespace TabularModel

namespace Text

theorem splitAt?_append {mark : Char} {front : Text} (absent : mark ∉ front) (rest : Text) :
    splitAt? mark (front ++ mark :: rest) = some (front, rest) := by
  induction front with
  | nil => rw [List.nil_append, splitAt?, if_pos rfl]
  | cons c front ih =>
      have different : c ≠ mark := fun same => absent (same ▸ List.mem_cons_self)
      rw [List.cons_append, splitAt?, if_neg different,
        ih fun member => absent (List.mem_cons_of_mem c member)]
      rfl

theorem splitAt?_eq_none {mark : Char} {text : Text} (absent : mark ∉ text) :
    splitAt? mark text = none := by
  induction text with
  | nil => rfl
  | cons c text ih =>
      have different : c ≠ mark := fun same => absent (same ▸ List.mem_cons_self)
      rw [splitAt?, if_neg different, ih fun member => absent (List.mem_cons_of_mem c member)]
      rfl

theorem fields_cons_of_found {separator c : Char} {text piece : Text} {pieces : List Text}
    (different : c ≠ separator) (found : fields separator text = piece :: pieces) :
    fields separator (c :: text) = (c :: piece) :: pieces := by
  rw [fields, if_neg different, found]

theorem fields_append_of_found {separator : Char} {front text piece : Text} {pieces : List Text}
    (absent : separator ∉ front) (found : fields separator text = piece :: pieces) :
    fields separator (front ++ text) = (front ++ piece) :: pieces := by
  induction front with
  | nil => exact found
  | cons c front ih =>
      have different : c ≠ separator := fun same => absent (same ▸ List.mem_cons_self)
      exact fields_cons_of_found different (ih fun member => absent (List.mem_cons_of_mem c member))

end Text

namespace Markup

/-! ## References -/

/-- A number written with the digits of a base. -/
inductive Numeral (base : Nat) : Text -> Nat -> Prop where
  | single {c : Char} {digit : Nat} (isDigit : digitIn base c = some digit) :
      Numeral base [c] digit
  | further {digits : Text} {n digit : Nat} {c : Char} (front : Numeral base digits n)
      (isDigit : digitIn base c = some digit) :
      Numeral base (digits ++ [c]) (n * base + digit)

/-- What stands between an ampersand and a semicolon for a character. -/
inductive Reference (c : Char) : Text -> Prop where
  | named {name : Text}
      (listed : (name, c) ∈ [(("lt" : Text), '<'), ("gt", '>'), ("amp", '&'), ("apos", '\''),
        ("quot", '"')]) : Reference c name
  | decimal {digits : Text} (visible : c ≠ '\x00') (numeral : Numeral 10 digits c.toNat) :
      Reference c ('#' :: digits)
  | hexadecimal {digits : Text} (visible : c ≠ '\x00') (numeral : Numeral 16 digits c.toNat) :
      Reference c ('#' :: 'x' :: digits)

theorem isLetterOrDigit_of_isSome_digitIn {base : Nat} {c : Char}
    (isDigit : (digitIn base c).isSome = true) : Text.isLetterOrDigit c = true := by
  rw [digitIn] at isDigit
  by_cases digit : '0' ≤ c ∧ c ≤ '9'
  · simp [Text.isLetterOrDigit, digit]
  · by_cases lower : 'a' ≤ c ∧ c ≤ 'z'
    · simp [Text.isLetterOrDigit, Text.isLetter, lower]
    · by_cases upper : 'A' ≤ c ∧ c ≤ 'Z'
      · simp [Text.isLetterOrDigit, Text.isLetter, upper]
      · simp [digit, lower, upper] at isDigit

namespace Numeral

variable {base : Nat} {digits : Text} {n : Nat}

theorem nonempty (numeral : Numeral base digits n) : digits ≠ [] := by
  cases numeral with
  | single isDigit => simp
  | further front isDigit => simp

theorem isSome_of_mem (numeral : Numeral base digits n) :
    ∀ c ∈ digits, (digitIn base c).isSome = true := by
  induction numeral with
  | single isDigit => simp [isDigit]
  | further front isDigit ih =>
      intro c member
      rcases List.mem_append.mp member with member | member
      · exact ih c member
      · rw [List.mem_singleton.mp member, isDigit]
        rfl

theorem isLetterOrDigit_of_mem (numeral : Numeral base digits n) :
    ∀ c ∈ digits, Text.isLetterOrDigit c = true :=
  fun c member => isLetterOrDigit_of_isSome_digitIn (numeral.isSome_of_mem c member)

theorem numberIn_append (front : Text) (c : Char) (total : Nat) {m : Nat}
    (read : numberIn base total front = .ok m) :
    numberIn base total (front ++ [c]) = numberIn base m [c] := by
  induction front generalizing total with
  | nil =>
      cases read
      rfl
  | cons first front ih =>
      rw [numberIn] at read
      rw [List.cons_append, numberIn]
      cases found : digitIn base first with
      | none =>
          rw [found] at read
          cases read
      | some digit =>
          simp only [found] at read ⊢
          split at read
          · next small => rw [if_pos small, ih _ read]
          · cases read

/-- A number of 32 bits is read from its digits. -/
theorem numberIn_eq (positive : 0 < base) (numeral : Numeral base digits n) (small : n < 4294967296) :
    numberIn base 0 digits = .ok n := by
  induction numeral with
  | @single c digit isDigit => simp [numberIn, isDigit, small]
  | @further digits n digit c front isDigit ih =>
      have smaller : n ≤ n * base := Nat.le_mul_of_pos_right n positive
      rw [numberIn_append digits c 0 (ih (by omega))]
      simp [numberIn, isDigit, small]

theorem unsignedIn_eq (positive : 0 < base) (numeral : Numeral base digits n)
    (small : n < 4294967296) : unsignedIn base digits = .ok n := by
  obtain ⟨first, others, rfl⟩ := List.exists_cons_of_ne_nil numeral.nonempty
  have unsigned : ¬(first = '+' ∨ first = '-') := by
    have isDigit := numeral.isLetterOrDigit_of_mem first List.mem_cons_self
    rintro (rfl | rfl)
    · exact absurd isDigit (by decide)
    · exact absurd isDigit (by decide)
  rw [unsignedIn, if_neg unsigned, numeral.numberIn_eq positive small]

end Numeral

theorem characterOf_toNat {c : Char} (visible : c ≠ '\x00') : characterOf c.toNat = .ok c := by
  have positive : c.toNat ≠ 0 := fun zero => visible (Char.toNat_inj.mp zero)
  have valid : c.toNat < 0xD800 ∨ (0xDFFF < c.toNat ∧ c.toNat < 0x110000) := c.valid
  rw [characterOf, if_neg positive, if_pos valid, Char.ofNat_toNat]

theorem toNat_lt (c : Char) : c.toNat < 4294967296 :=
  c.val.toNat_lt

theorem Numeral.characterOf_unsignedIn {base : Nat} {digits : Text} {c : Char} (positive : 0 < base)
    (visible : c ≠ '\x00') (numeral : Numeral base digits c.toNat) :
    (unsignedIn base digits >>= characterOf) = .ok c := by
  rw [numeral.unsignedIn_eq positive (toNat_lt c)]
  exact characterOf_toNat visible

/-- A reference is read as the character it stands for. -/
theorem Reference.referenced_eq {c : Char} {name : Text} (reference : Reference c name)
    (first : Nat) : referenced first name = .ok c := by
  cases reference with
  | named listed =>
      have each : ∀ pair ∈ [(("lt" : Text), '<'), ("gt", '>'), ("amp", '&'), ("apos", '\''),
          ("quot", '"')], namedReference? pair.1 = some pair.2 ∧ pair.1.head? ≠ some '#' := by
        decide
      obtain ⟨found, notNumeric⟩ := each _ listed
      unfold referenced
      split
      · exact absurd rfl notNumeric
      · rw [found]
  | @decimal digits visible numeral =>
      have read := numeral.characterOf_unsignedIn (by decide) visible
      have notHexadecimal (rest : Text) : digits ≠ 'x' :: rest := by
        rintro rfl
        have isDigit := numeral.isSome_of_mem 'x' List.mem_cons_self
        exact absurd isDigit (by decide)
      rw [referenced, numericReference, read]
      · rfl
      · exact notHexadecimal
  | hexadecimal visible numeral =>
      rw [referenced, numericReference, numeral.characterOf_unsignedIn (by decide) visible]
      rfl

theorem Reference.isLetterOrDigit_of_mem {c : Char} {name : Text} (reference : Reference c name) :
    ∀ part ∈ name, Text.isLetterOrDigit part = true ∨ part = '#' := by
  cases reference with
  | named listed =>
      have each : ∀ pair ∈ [(("lt" : Text), '<'), ("gt", '>'), ("amp", '&'), ("apos", '\''),
          ("quot", '"')], pair.1.all Text.isLetterOrDigit = true := by
        decide
      exact fun part member => Or.inl (List.all_eq_true.mp (each _ listed) part member)
  | decimal visible numeral =>
      intro part member
      rcases List.mem_cons.mp member with rfl | member
      · exact Or.inr rfl
      · exact Or.inl (numeral.isLetterOrDigit_of_mem part member)
  | hexadecimal visible numeral =>
      intro part member
      rcases List.mem_cons.mp member with rfl | member
      · exact Or.inr rfl
      · rcases List.mem_cons.mp member with rfl | member
        · exact Or.inl (by decide)
        · exact Or.inl (numeral.isLetterOrDigit_of_mem part member)

theorem Reference.not_mem {c : Char} {name : Text} (reference : Reference c name) {mark : Char}
    (isMark : Text.isLetterOrDigit mark = false ∧ mark ≠ '#') : mark ∉ name := by
  intro member
  rcases reference.isLetterOrDigit_of_mem mark member with plain | number
  · rw [isMark.1] at plain
    cases plain
  · exact isMark.2 number

/-! ## Escaped text -/

/-- Characters that mean something in markup, or that end lines. -/
def isReserved (c : Char) : Bool :=
  ['<', '>', '&', '"', '\'', '\n', '\r'].contains c

/-- A text as it may be written in a document. -/
inductive Escaped : Text -> Text -> Prop where
  | nil : Escaped [] []
  | plain {c : Char} {text raw : Text} (ordinary : isReserved c = false) (rest : Escaped text raw) :
      Escaped (c :: text) (c :: raw)
  | reference {c : Char} {name text raw : Text} (stands : Reference c name)
      (rest : Escaped text raw) : Escaped (c :: text) ('&' :: (name ++ ';' :: raw))

namespace Escaped

variable {text raw : Text}

/-- No reserved character but the ampersand stands in the written text. -/
theorem not_mem (escaped : Escaped text raw) {mark : Char} (reserved : isReserved mark = true)
    (other : mark ≠ '&') : mark ∉ raw := by
  have outside : ['<', '>', '&', '"', '\'', '\n', '\r'].all
      (fun c => !Text.isLetterOrDigit c && c != '#' && c != ';') = true := by decide
  have apart := List.all_eq_true.mp outside mark (List.contains_iff_mem.mp reserved)
  simp only [Bool.and_eq_true, Bool.not_eq_true', bne_iff_ne] at apart
  obtain ⟨⟨notPlain, notNumber⟩, notEnd⟩ := apart
  induction escaped with
  | nil => exact List.not_mem_nil
  | plain ordinary rest ih =>
      refine List.not_mem_cons_of_ne_of_not_mem ?_ ih
      rintro rfl
      rw [reserved] at ordinary
      cases ordinary
  | reference stands rest ih =>
      refine List.not_mem_cons_of_ne_of_not_mem other fun member => ?_
      rcases List.mem_append.mp member with inName | behind
      · exact stands.not_mem ⟨notPlain, notNumber⟩ inName
      · exact (List.mem_cons.mp behind).elim notEnd ih

theorem exists_pieces (escaped : Escaped text raw) : ∃ plain pieces rest,
    Text.fields '&' raw = plain :: pieces ∧ text = plain ++ rest ∧
      ∀ past position, unescapePieces past position pieces = .ok rest := by
  induction escaped with
  | nil => exact ⟨[], [], [], rfl, rfl, fun _ _ => rfl⟩
  | @plain c text raw ordinary rest ih =>
      obtain ⟨plain, pieces, others, split, rfl, read⟩ := ih
      have different : c ≠ '&' := by
        rintro rfl
        exact absurd ordinary (by decide)
      exact ⟨c :: plain, pieces, others, by rw [Text.fields, if_neg different, split], rfl, read⟩
  | @reference c name text raw stands rest ih =>
      obtain ⟨plain, pieces, others, split, rfl, read⟩ := ih
      have noAmpersand : '&' ∉ name := stands.not_mem (by decide)
      have noSemicolon : ';' ∉ name := stands.not_mem (by decide)
      refine ⟨[], (name ++ ';' :: plain) :: pieces, c :: (plain ++ others), ?_, rfl,
        fun past position => ?_⟩
      · have piece : Text.fields '&' (name ++ ';' :: raw) = (name ++ ';' :: plain) :: pieces := by
          rw [Text.fields_append_of_found noAmpersand (Text.fields_cons_of_found (by decide) split)]
        rw [Text.fields, if_pos rfl, piece]
      · rw [unescapePieces, Text.splitAt?_append noSemicolon]
        simp only [stands.referenced_eq, read]
        rfl

/-- An escaped text is read back. -/
theorem unescape_eq (escaped : Escaped text raw) : unescape raw = .ok text := by
  obtain ⟨plain, pieces, rest, split, rfl, read⟩ := escaped.exists_pieces
  rw [unescape, split]
  simp only [read]
  rfl

end Escaped

end Markup

end TabularModel
