import TabularModel.Definition.Convention
import TabularModel.Proofs.Text.Characters
import TabularModel.Proofs.Text.Trimming

/-!
# Written names are read back

A written name is told apart from whatever follows it, as long as that begins
with a blank, an equals sign or a point. So the written form determines the
name, and a column reference determines its table and its column.
-/

set_option autoImplicit false

namespace TabularModel

open Text (isPlainName isLetterOrDigit)

/-- The text begins and ends with visible characters. -/
structure HasVisibleEnds (text : Text) : Prop where
  first : ∀ c ∈ text.head?, isBlank c = false
  last : ∃ front c, text = front ++ [c] ∧ isBlank c = false

namespace HasVisibleEnds

theorem cons {text : Text} (visible : HasVisibleEnds text) {c : Char} {front : Text}
    (first : isBlank c = false) : HasVisibleEnds (c :: (front ++ text)) := by
  obtain ⟨middle, last, rfl, lastVisible⟩ := visible.last
  refine ⟨?_, c :: (front ++ middle), last, by simp, lastVisible⟩
  intro found member
  have same : c = found := by simpa using member
  exact same ▸ first

theorem append {left right : Text} (visible : HasVisibleEnds left)
    (last : ∃ front c, right = front ++ [c] ∧ isBlank c = false) : HasVisibleEnds (left ++ right) := by
  obtain ⟨front, c, rfl, lastVisible⟩ := last
  obtain ⟨leftFront, leftLast, shape, _⟩ := visible.last
  refine ⟨?_, left ++ front, c, by simp, lastVisible⟩
  intro found member
  refine visible.first found ?_
  rw [List.head?_append] at member
  cases head : left.head? with
  | none => simp [shape] at head
  | some first => simpa [head] using member

theorem isTrimmed {text : Text} (visible : HasVisibleEnds text) : Text.IsTrimmed text := by
  obtain ⟨front, last, rfl, lastVisible⟩ := visible.last
  cases front with
  | nil => exact Text.isTrimmed_of_noBlank [last] (by simp [lastVisible])
  | cons first middle => exact Text.isTrimmed_of_ends first last middle (visible.first first rfl) lastVisible

theorem trimLeft {text : Text} (visible : HasVisibleEnds text) : Text.trimLeft text = text := by
  rw [← visible.isTrimmed, Text.trimLeft_trim]

/-- A text without blanks around it is empty or has visible ends. -/
theorem of_isTrimmed {text : Text} (trimmed : Text.IsTrimmed text) (nonempty : text ≠ []) :
    HasVisibleEnds text := by
  refine ⟨?_, ?_⟩
  · rcases Text.trim_eq_nil_or_cons text with none | ⟨c, rest, shape, visible⟩
    · exact absurd (trimmed.symm.trans none) nonempty
    · have same : text = c :: rest := trimmed.symm.trans shape
      intro found member
      rw [same, List.head?_cons] at member
      rw [← Option.some.inj member]
      exact visible
  · have right : text = (Text.trimLeft text).rdropWhile isBlank := trimmed.symm
    have some : (Text.trimLeft text).rdropWhile isBlank ≠ [] := right ▸ nonempty
    have last := List.rdropWhile_last_not isBlank (Text.trimLeft text) some
    refine ⟨text.dropLast, text.getLast nonempty, (List.dropLast_concat_getLast nonempty).symm, ?_⟩
    have same : ((Text.trimLeft text).rdropWhile isBlank).getLast some = text.getLast nonempty := by
      congr 1
    rw [same] at last
    simpa using last

end HasVisibleEnds

namespace Name

theorem endsBareName_of_isLetterOrDigit {c : Char} (plain : isLetterOrDigit c = true) :
    endsBareName c = false := by
  simp [endsBareName, Text.not_isBlank_of_isLetterOrDigit plain,
    Text.ne_of_isLetterOrDigit '=' plain rfl,
    Text.ne_of_isLetterOrDigit '.' plain rfl]

/-- A plain name begins with a visible character that is no quote. -/
theorem exists_cons_of_isPlainName {name : Text} (plain : isPlainName name = true) :
    ∃ first others, name = first :: others ∧ isBlank first = false ∧ first ≠ '\'' := by
  obtain ⟨first, others, rfl, letter, _⟩ := (Text.isPlainName_iff name).mp plain
  refine ⟨first, others, rfl, Text.not_isBlank_of_isLetter letter, ?_⟩
  exact Text.ne_of_isLetterOrDigit '\'' (by rw [isLetterOrDigit, letter, Bool.true_or]) rfl

theorem splitQuoted_doubling (name rest : Text) (seam : ∀ c ∈ rest.head?, c ≠ '\'') :
    splitQuoted (Text.doubling '\'' name ++ '\'' :: rest) = (name, rest) := by
  induction name with
  | nil =>
      cases rest with
      | nil => rfl
      | cons c rest =>
          have different : c ≠ '\'' := seam c rfl
          simp [Text.doubling, splitQuoted, different]
  | cons c name ih =>
      by_cases quote : c = '\''
      · subst quote
        rw [Text.doubling_cons_self, List.cons_append, List.cons_append, splitQuoted, ih]
      · rw [Text.doubling_cons_of_ne name quote, List.cons_append, splitQuoted, ih]
        · exact fun _ same _ => quote same
        · exact fun same => quote same

theorem hasVisibleEnds_written (name : Text) : HasVisibleEnds (written name) := by
  rw [written]
  split
  · next plain =>
      have visible : ∀ c ∈ name, isBlank c = false := fun c member =>
        Text.not_isBlank_of_isLetterOrDigit (Text.isLetterOrDigit_of_isPlainName plain c member)
      refine ⟨fun c member => visible c (List.mem_of_mem_head? member), ?_⟩
      rcases List.eq_nil_or_concat name with rfl | ⟨front, last, rfl⟩
      · exact absurd plain (by decide)
      · exact ⟨front, last, by simp, visible last (by simp)⟩
  · exact ⟨by simp [quoted]; rfl, '\'' :: Text.doubling '\'' name, '\'', rfl, rfl⟩

theorem isSingleLine_written {name : Text} (single : Text.IsSingleLine name) :
    Text.IsSingleLine (written name) := by
  rw [written]
  split
  · exact single
  · simpa [quoted, Text.IsSingleLine, Text.mem_doubling_iff] using single

/-- A written name is read up to its end, and the rest stays. -/
theorem split_written (name rest : Text) (seam : ∀ c ∈ rest.head?, endsBareName c = true) :
    split (written name ++ rest) = (name, rest) := by
  rw [written]
  split
  · next plain =>
      have kept : ∀ c ∈ name, (!endsBareName c) = true := fun c member => by
        rw [endsBareName_of_isLetterOrDigit
          (Text.isLetterOrDigit_of_isPlainName plain c member)]
        rfl
      have stopped : ∀ c ∈ rest.head?, (!endsBareName c) = false := fun c member => by
        rw [seam c member]
        rfl
      obtain ⟨taken, left⟩ :=
        Text.takeWhile_dropWhile_append (!endsBareName ·) name rest kept stopped
      obtain ⟨first, others, rfl, notBlank, noQuote⟩ := exists_cons_of_isPlainName plain
      have visible : Text.trimLeft (first :: others ++ rest) = first :: others ++ rest :=
        Text.trimLeft_cons_of_not_blank _ first notBlank
      rw [Name.split, visible]
      split
      · next inner shape => exact absurd (List.cons.inj shape).1 noQuote
      · rw [taken, left]
  · have visible : Text.trimLeft (quoted name ++ rest) =
        '\'' :: (Text.doubling '\'' name ++ '\'' :: rest) := by
      rw [quoted, List.cons_append, Text.trimLeft_cons_of_not_blank _ '\'' rfl, List.append_assoc]
      rfl
    rw [Name.split, visible]
    refine splitQuoted_doubling name rest ?_
    rintro c member rfl
    exact Bool.noConfusion (seam '\'' member)

theorem split_written_blank (name rest : Text) :
    split (written name ++ ' ' :: rest) = (name, ' ' :: rest) := by
  refine split_written name (' ' :: rest) ?_
  intro c member
  have same : ' ' = c := by simpa using member
  exact same ▸ rfl

theorem split_written_self (name : Text) : split (written name) = (name, []) := by
  simpa using split_written name [] (by simp)

/-- A column reference gives back its table and its column. -/
theorem splitColumnReference?_columnReference (table column : Text) :
    splitColumnReference? (columnReference table column) = some (table, column) := by
  have ended : ∀ c ∈ ('.' :: written column).head?, endsBareName c = true := by
    intro c member
    have same : '.' = c := by simpa using member
    exact same ▸ rfl
  have rest : Text.trimLeft ('.' :: written column) = '.' :: written column :=
    Text.trimLeft_cons_of_not_blank _ '.' rfl
  rw [splitColumnReference?, columnReference, split_written table _ ended]
  simp only [rest, split_written_self]

theorem columnReference_injective2 : Function.Injective2 columnReference := by
  intro table other column otherColumn same
  have split := congrArg splitColumnReference? same
  rw [splitColumnReference?_columnReference, splitColumnReference?_columnReference] at split
  exact Prod.mk.inj (Option.some.inj split)

theorem hasVisibleEnds_columnReference (table column : Text) :
    HasVisibleEnds (columnReference table column) := by
  obtain ⟨front, last, shape, visible⟩ := (hasVisibleEnds_written column).last
  exact (hasVisibleEnds_written table).append ⟨'.' :: front, last, by rw [shape]; rfl, visible⟩

theorem isSingleLine_columnReference {table column : Text} (singleTable : Text.IsSingleLine table)
    (singleColumn : Text.IsSingleLine column) :
    Text.IsSingleLine (columnReference table column) := by
  have tableLine := isSingleLine_written singleTable
  have columnLine := isSingleLine_written singleColumn
  rw [columnReference, Text.isSingleLine_append]
  refine ⟨tableLine, ?_⟩
  simpa [Text.IsSingleLine] using columnLine

end Name

end TabularModel
