import Mathlib.Data.List.TakeWhile
import TabularModel.Proofs.Sql.Lexemes
import TabularModel.Sql.Literal

/-!
# Literals as lexemes

A value is written as one literal, whatever its characters are. What is written
bare is a numeral, and what is written in quotes as it stands, a unique
identifier or a timestamp, holds no quote: no reader of these forms gets past
one.
-/

set_option autoImplicit false

namespace TabularModel

namespace Text

/-- A character outside a class stays when the class is dropped from the left. -/
theorem mem_dropWhile_of_mem {p : Char -> Bool} {c : Char} {text : Text} (outside : p c = false)
    (member : c ∈ text) : c ∈ text.dropWhile p := by
  induction text with
  | nil => cases member
  | cons first text ih =>
      rw [List.dropWhile_cons]
      split
      · next dropped =>
          rcases List.mem_cons.mp member with rfl | member
          · rw [outside] at dropped
            exact Bool.noConfusion dropped
          · exact ih member
      · exact member

/-- Every character but the separator stands in one of the fields. -/
theorem exists_mem_fields {separator c : Char} {text : Text} (different : c ≠ separator)
    (member : c ∈ text) : ∃ field ∈ fields separator text, c ∈ field := by
  induction text with
  | nil => cases member
  | cons first text ih =>
      rw [fields]
      split
      · next same =>
          rcases List.mem_cons.mp member with here | later
          · exact absurd (here.trans same) different
          · obtain ⟨field, inside, found⟩ := ih later
            exact ⟨field, List.mem_cons_of_mem _ inside, found⟩
      · cases pieces : fields separator text with
        | nil =>
            rcases List.mem_cons.mp member with rfl | later
            · exact ⟨[c], by simp, by simp⟩
            · obtain ⟨field, inside, _⟩ := ih later
              rw [pieces] at inside
              cases inside
        | cons piece pieces' =>
            rcases List.mem_cons.mp member with rfl | later
            · exact ⟨c :: piece, by simp, by simp⟩
            · obtain ⟨field, inside, found⟩ := ih later
              rw [pieces] at inside
              rcases List.mem_cons.mp inside with rfl | inside
              · exact ⟨first :: field, by simp, List.mem_cons_of_mem _ found⟩
              · exact ⟨field, List.mem_cons_of_mem _ inside, found⟩

end Text

/-! ## Timestamps -/

namespace Timestamp

/-- A reader has not got past a quote. -/
def KeepsQuote (text rest : Text) : Prop :=
  '\'' ∈ text -> '\'' ∈ rest

theorem keepsQuote_of_append {text front rest : Text} (shape : text = front ++ rest)
    (absent : '\'' ∉ front) : KeepsQuote text rest := by
  intro member
  rw [shape, List.mem_append] at member
  exact member.resolve_left absent

theorem not_mem_of_isDigit {digits : Text} (isDigits : ∀ c ∈ digits, Decimal.isDigit c = true) :
    '\'' ∉ digits :=
  fun member => absurd (isDigits _ member) (by decide)

theorem keepsQuote_trimLeft (text : Text) : KeepsQuote text (Text.trimLeft text) :=
  fun member => Text.mem_dropWhile_of_mem (by decide) member

theorem keepsQuote_upTo {most : Nat} {text rest : Text} {n : Nat}
    (read : upTo most text = some (n, rest)) : KeepsQuote text rest := by
  rw [upTo] at read
  split at read
  · cases read
  · cases read
    have front : ((text.take most).takeWhile Decimal.isDigit) <+: text :=
      (List.takeWhile_prefix _).trans (List.take_prefix most text)
    refine keepsQuote_of_append (List.prefix_iff_eq_append.mp front).symm ?_
    exact not_mem_of_isDigit fun c member => List.mem_takeWhile_imp member

theorem keepsQuote_exactly {width : Nat} {text rest : Text} {n : Nat}
    (read : exactly width text = some (n, rest)) : KeepsQuote text rest := by
  rw [exactly] at read
  split at read
  · next digits =>
      cases read
      exact keepsQuote_of_append (List.take_append_drop width text).symm
        (not_mem_of_isDigit (List.all_eq_true.mp digits.2))
  · cases read

theorem keepsQuote_mark {c : Char} (different : c ≠ '\'') {text rest : Text}
    (read : mark c text = some rest) : KeepsQuote text rest := by
  cases text with
  | nil => cases read
  | cons first others =>
      rw [mark] at read
      split at read
      · next same =>
          cases read
          intro member
          rcases List.mem_cons.mp member with here | later
          · exact absurd (here.trans same).symm different
          · exact later
      · cases read

theorem keepsQuote_fraction {text rest : Text} (read : fraction text = some rest) :
    KeepsQuote text rest := by
  unfold fraction at read
  split at read
  · next others =>
      split at read
      · next digit digits =>
          split at read
          · cases read
            intro member
            have behind := (List.mem_cons.mp member).resolve_left (by decide)
            exact Text.mem_dropWhile_of_mem (by decide) behind
          · cases read
      · cases read
  · cases read
    exact id

theorem KeepsQuote.trans {text middle rest : Text} (first : KeepsQuote text middle)
    (second : KeepsQuote middle rest) : KeepsQuote text rest :=
  fun member => second (first member)

theorem keepsQuote_cons {c : Char} (different : c ≠ '\'') (text : Text) :
    KeepsQuote (c :: text) text :=
  fun member => (List.mem_cons.mp member).resolve_left different.symm

theorem keepsQuote_signedYear {text rest : Text} {n : Int}
    (read : signedYear text = some (n, rest)) : KeepsQuote text rest := by
  unfold signedYear at read
  split at read
  all_goals
    obtain ⟨⟨digits, left⟩, found, same⟩ := Option.map_eq_some_iff.mp read
    cases same
  · exact (keepsQuote_cons (by decide) _).trans (keepsQuote_upTo found)
  · exact (keepsQuote_cons (by decide) _).trans (keepsQuote_upTo found)
  · exact keepsQuote_upTo found

/-- A layout in which no quote is asked for. -/
def asksNoQuote (layout : Layout) : Prop :=
  Part.mark '\'' ∉ layout

theorem keepsQuote_readPart {moment next : Moment} {text rest : Text} {part : Part}
    (noQuote : part ≠ .mark '\'') (read : readPart moment text part = some (next, rest)) :
    KeepsQuote text rest := by
  cases part with
  | gap =>
      cases read
      exact keepsQuote_trimLeft text
  | fraction =>
      obtain ⟨left, found, same⟩ := Option.map_eq_some_iff.mp read
      cases same
      exact keepsQuote_fraction found
  | mark c =>
      obtain ⟨left, found, same⟩ := Option.map_eq_some_iff.mp read
      cases same
      exact keepsQuote_mark (fun same => noQuote (same ▸ rfl)) found
  | year =>
      obtain ⟨⟨n, left⟩, found, same⟩ := Option.map_eq_some_iff.mp read
      cases same
      exact (keepsQuote_trimLeft text).trans (keepsQuote_signedYear found)
  | month | day | hour | minute | second =>
      obtain ⟨⟨n, left⟩, found, same⟩ := Option.map_eq_some_iff.mp read
      cases same
      exact (keepsQuote_trimLeft text).trans (keepsQuote_upTo found)

theorem keepsQuote_readParts {layout : Layout} (noQuote : asksNoQuote layout)
    {moment last : Moment} {text rest : Text}
    (read : readParts moment text layout = some (last, rest)) : KeepsQuote text rest := by
  induction layout generalizing moment text with
  | nil =>
      cases read
      exact id
  | cons part layout ih =>
      rw [asksNoQuote, List.mem_cons, not_or] at noQuote
      rw [readParts] at read
      split at read
      · next found =>
          exact (keepsQuote_readPart (Ne.symm noQuote.1) found).trans (ih noQuote.2 read)
      · cases read

theorem not_mem_of_follows {layout : Layout} (noQuote : asksNoQuote layout) {text : Text}
    (follows : follows text layout = true) : '\'' ∉ text := by
  unfold Timestamp.follows at follows
  split at follows
  · next read =>
      intro member
      exact nomatch keepsQuote_readParts noQuote read member
  · cases follows

theorem not_mem_of_isZone {text : Text} (zone : isZone text = true) : '\'' ∉ text := by
  unfold isZone at zone
  split at zone
  · decide
  · decide
  · next sign rest _ _ =>
      split at zone
      · next isSign =>
          have different : sign ≠ '\'' := by
            rcases isSign with rfl | rfl | rfl <;> decide
          split at zone
          · next hours minutes hoursRead =>
              split at zone
              · next minutesRead =>
                  intro member
                  have behind := keepsQuote_exactly hoursRead (keepsQuote_cons different _ member)
                  have last := keepsQuote_cons (by decide) _ behind
                  exact nomatch keepsQuote_exactly minutesRead last
              · cases zone
          · cases zone
      · cases zone
  · cases zone

theorem keepsQuote_separator {text rest : Text}
    (read : (mark 'T' text <|> mark 't' text <|> mark ' ' text) = some rest) :
    KeepsQuote text rest := by
  simp only [Option.orElse_eq_orElse, Option.orElse_eq_or, Option.or_eq_some_iff] at read
  rcases read with read | ⟨_, read | ⟨_, read⟩⟩
  all_goals exact keepsQuote_mark (by decide) read

theorem not_mem_of_isInterchange {text : Text} (interchange : isInterchange text = true) :
    '\'' ∉ text := by
  unfold isInterchange at interchange
  dsimp only at interchange
  split at interchange
  · next moment zone read =>
      simp only [Option.bind_eq_bind, Option.bind_eq_some_iff, Prod.exists] at read
      obtain ⟨_, _, year, _, firstMark, _, _, month, _, secondMark, _, _, day, _, separator, read⟩ :=
        read
      obtain ⟨_, _, hour, _, thirdMark, _, _, minute, _, lastMark, _, _, second, zone, fraction,
        same⟩ := read
      cases same
      rw [Bool.and_eq_true] at interchange
      intro member
      have inMonth := keepsQuote_mark (by decide) firstMark (keepsQuote_exactly year member)
      have inDay := keepsQuote_mark (by decide) secondMark (keepsQuote_exactly month inMonth)
      have inHour := keepsQuote_separator separator (keepsQuote_exactly day inDay)
      have inMinute := keepsQuote_mark (by decide) thirdMark (keepsQuote_exactly hour inHour)
      have inSecond := keepsQuote_mark (by decide) lastMark (keepsQuote_exactly minute inMinute)
      have inZone := keepsQuote_fraction fraction (keepsQuote_exactly second inSecond)
      exact not_mem_of_isZone interchange.2 inZone
  · cases interchange

end Timestamp

theorem not_mem_of_isTimestamp {text : Text} (timestamp : isTimestamp text = true) :
    '\'' ∉ text := by
  rw [isTimestamp, Bool.or_eq_true, List.any_eq_true] at timestamp
  rcases timestamp with ⟨layout, known, follows⟩ | interchange
  · have noQuote : ∀ layout ∈ Timestamp.layouts, Timestamp.asksNoQuote layout := by
      unfold Timestamp.asksNoQuote
      decide
    exact Timestamp.not_mem_of_follows (noQuote layout known) follows
  · exact Timestamp.not_mem_of_isInterchange interchange

namespace Sql

/-! ## Unique identifiers and integers -/

theorem mem_withoutBraces {c : Char} (notOpening : c ≠ '{') (notClosing : c ≠ '}') {text : Text}
    (member : c ∈ text) : c ∈ withoutBraces text := by
  unfold withoutBraces
  split
  · next rest =>
      split
      · next closed =>
          have inside := (List.mem_cons.mp member).resolve_left notOpening
          obtain ⟨front, rfl⟩ := List.getLast?_eq_some_iff.mp closed
          rw [List.mem_append, List.mem_singleton] at inside
          rw [List.dropLast_concat]
          exact inside.resolve_right notClosing
      · exact member
  · exact member

theorem not_mem_of_isUniqueIdentifier {text : Text} (unique : isUniqueIdentifier text = true) :
    '\'' ∉ text := by
  intro member
  rw [isUniqueIdentifier, Bool.and_eq_true, List.all_eq_true] at unique
  have bare := mem_withoutBraces (by decide) (by decide) member
  have different : '\'' ≠ '-' := by decide
  obtain ⟨group, known, inside⟩ := Text.exists_mem_fields different bare
  have digit := List.all_eq_true.mp (unique.2 group known) _ inside
  exact absurd digit (by decide : ¬ Text.isHexDigit '\'' = true)

theorem isDigits_of_natural? {digits : Text} {n : Nat} (read : Decimal.natural? digits = some n) :
    digits ≠ [] ∧ ∀ c ∈ digits, Decimal.isDigit c = true := by
  rw [Decimal.natural?] at read
  split at read
  · next shape => exact ⟨shape.1, List.all_eq_true.mp shape.2⟩
  · cases read

/-- At least one digit, which may have a sign in front. -/
theorem spells_of_integer? {numeral : Text} {n : Int} (read : Decimal.integer? numeral = some n) :
    Spells numeral [.integer numeral] := by
  unfold Decimal.integer? at read
  split at read
  all_goals
    obtain ⟨_, found, _⟩ := Option.map_eq_some_iff.mp read
    obtain ⟨_, found, _⟩ := Option.bind_eq_some_iff.mp found
    obtain ⟨nonempty, isDigits⟩ := isDigits_of_natural? found
  · exact spells_signed (Or.inr rfl) nonempty isDigits
  · exact spells_signed (Or.inl rfl) nonempty isDigits
  · exact spells_digits nonempty isDigits

theorem isDigit_of_mem_natural {n : Nat} {c : Char} (member : c ∈ Decimal.natural n) :
    Decimal.isDigit c = true := by
  have digit : c.isDigit = true :=
    Nat.isDigit_of_mem_toDigits (by decide) (by decide) member
  exact digit

/-- The numeral of an integer is one lexeme. -/
theorem spells_integer (n : Int) : Spells (Decimal.integer n) [.integer (Decimal.integer n)] := by
  cases n with
  | ofNat n => exact spells_digits Nat.toDigits_ne_nil fun _ member => isDigit_of_mem_natural member
  | negSucc n =>
      exact spells_signed (Or.inr rfl) Nat.toDigits_ne_nil
        fun _ member => isDigit_of_mem_natural member

/-! ## Filter values -/

namespace Literal

/-- The lexeme that a literal is read as. -/
def lexeme : Literal -> Lexeme
  | .integer numeral => .integer numeral
  | .verbatim content => .delimited .quote content
  | .string content => .delimited .quote content

/-- The value that a literal stands for. -/
def content : Literal -> Text
  | .integer numeral => numeral
  | .verbatim content => content
  | .string content => content

theorem value?_lexeme (literal : Literal) : literal.lexeme.value? = some literal.content := by
  cases literal <;> rfl

/-- What stands bare is a numeral, and what stands in quotes as it is has no quote. -/
inductive IsSound : Literal -> Prop where
  | integer {numeral : Text} (isInteger : isInteger numeral = true) : IsSound (.integer numeral)
  | verbatim {content : Text} (absent : '\'' ∉ content) : IsSound (.verbatim content)
  | string (content : Text) : IsSound (.string content)

theorem isSound_ofText (value : Text) : IsSound (ofText value) := by
  rw [ofText]
  split
  · next isInteger => exact .integer isInteger
  · split
    · next form =>
        rw [Bool.or_eq_true] at form
        refine .verbatim ?_
        rcases form with unique | timestamp
        · exact not_mem_of_isUniqueIdentifier unique
        · exact not_mem_of_isTimestamp timestamp
    · exact .string value

theorem spells {literal : Literal} (sound : literal.IsSound) :
    Spells literal.render [literal.lexeme] := by
  cases sound with
  | integer numeral =>
      obtain ⟨n, read, _⟩ := (Option.any_eq_true _ _).mp numeral
      exact spells_of_integer? read
  | verbatim absent => exact spells_quoted absent
  | string content => exact spells_stringLiteral content

end Literal

/-- Whether the blanks around a value are dropped. -/
def dropsBlanks (value : Text) : Bool :=
  Literal.isInteger (Text.trim value) || isUniqueIdentifier (Text.trim value) ||
    isTimestamp (Text.trim value)

theorem content_ofText (value : Text) :
    (Literal.ofText value).content = if dropsBlanks value then Text.trim value else value := by
  rw [Literal.ofText, dropsBlanks]
  split
  · next isInteger => rw [isInteger]; rfl
  · next notInteger =>
      rw [Bool.eq_false_iff.mpr notInteger, Bool.false_or]
      split <;> rfl

end Sql

end TabularModel
