import TabularModel.Prior.Basic
import TabularModel.Proofs.Definition.Names

/-!
# Written names are a prefix code

No written name is the beginning of another one, as long as what follows begins
with a blank, an equals sign or a point. A name can therefore be split off the
text behind it, whatever characters it has, and different names have different
written forms. The same holds of column references, and so of the keys by which
relationships are told apart.
-/

set_option autoImplicit false

namespace TabularModel

namespace Text

theorem halving_cons_of_ne {mark c : Char} (text : Text) (different : c ≠ mark) :
    halving mark (c :: text) = c :: halving mark text := by
  cases text with
  | nil => rfl
  | cons next text => rw [halving, if_neg fun both => different both.1]

/-- What has been doubled is read as it was. -/
theorem halving_doubling (mark : Char) (text : Text) : halving mark (doubling mark text) = text := by
  induction text with
  | nil => rfl
  | cons c text ih =>
      by_cases same : c = mark
      · rw [same, doubling_cons_self, halving, if_pos ⟨rfl, rfl⟩, ih]
      · rw [doubling_cons_of_ne text same, halving_cons_of_ne _ same, ih]

end Text

namespace Name

/-- The text is empty, or begins with a character that no bare name has. -/
def EndsName : Text -> Prop
  | [] => True
  | c :: _ => isBlank c = true ∨ c = '=' ∨ c = '.'

instance : (rest : Text) -> Decidable (EndsName rest)
  | [] => isTrue trivial
  | c :: _ => inferInstanceAs (Decidable (isBlank c = true ∨ c = '=' ∨ c = '.'))

theorem EndsName.endsBareName {rest : Text} (ends : EndsName rest) :
    ∀ c ∈ rest.head?, endsBareName c = true := by
  cases rest with
  | nil => simp
  | cons first rest =>
      intro c member
      rw [← Option.some.inj member]
      rcases ends with blank | rfl | rfl
      · simp [Name.endsBareName, blank]
      · rfl
      · rfl

/-- A name is read back from its written form. -/
theorem ofWritten_written (name : Text) : ofWritten (written name) = name := by
  have trimmed : Text.trim (written name) = written name := (hasVisibleEnds_written name).isTrimmed
  rw [ofWritten, trimmed, written]
  by_cases plain : Text.isPlainName name = true
  · obtain ⟨first, others, rfl, _, noQuote⟩ := exists_cons_of_isPlainName plain
    rw [if_pos plain]
    split
    · next rest shape => exact absurd (List.cons.inj shape).1 noQuote
    · rfl
  · rw [if_neg plain, quoted]
    simp [Text.halving_doubling]

/-- A written name and what follows it can be told from the two together. -/
theorem written_append_inj {name other rest behind : Text} (ends : EndsName rest)
    (otherEnds : EndsName behind) (same : written name ++ rest = written other ++ behind) :
    name = other ∧ rest = behind := by
  have first := split_written name rest ends.endsBareName
  rw [same, split_written other behind otherEnds.endsBareName] at first
  exact ⟨(Prod.mk.inj first).1.symm, (Prod.mk.inj first).2.symm⟩

theorem written_injective : Function.Injective written := by
  intro name other same
  have alone : EndsName [] := trivial
  exact (written_append_inj alone alone (by rw [same])).1

end Name

namespace RelationshipKey

/-- The key of a relationship between two columns, each given with its table. -/
def between (source target : Text × Text) : RelationshipKey :=
  ⟨Name.columnReference source.1 source.2, Name.columnReference target.1 target.2⟩

theorem between_injective2 : Function.Injective2 between := by
  intro source other target otherTarget same
  obtain ⟨sources, targets⟩ := RelationshipKey.mk.inj same
  obtain ⟨sourceTable, sourceColumn⟩ := Name.columnReference_injective2 sources
  obtain ⟨targetTable, targetColumn⟩ := Name.columnReference_injective2 targets
  exact ⟨Prod.ext sourceTable sourceColumn, Prod.ext targetTable targetColumn⟩

end RelationshipKey

namespace Name

/-- Names are read back from their written forms, alone, in front of a text that
ends a name, and as the two parts of a column reference. So what is written
determines the names, and the key of a relationship its columns. -/
theorem written_isPrefixCode :
    (∀ name, ofWritten (written name) = name) ∧
      (∀ name rest, EndsName rest -> split (written name ++ rest) = (name, rest)) ∧
      (∀ table column, splitColumnReference? (columnReference table column) =
        some (table, column)) ∧
      (∀ name other rest behind, EndsName rest -> EndsName behind ->
        written name ++ rest = written other ++ behind -> name = other ∧ rest = behind) ∧
      Function.Injective written ∧ Function.Injective2 columnReference ∧
      Function.Injective2 RelationshipKey.between :=
  ⟨ofWritten_written, fun name rest ends => split_written name rest ends.endsBareName,
    splitColumnReference?_columnReference, fun _ _ _ _ => written_append_inj, written_injective,
    columnReference_injective2, RelationshipKey.between_injective2⟩

/-- A name of quotes and a point in front of a formula. -/
theorem written_isPrefixCode_quotes :
    EndsName " = '1'" ∧
      split (written "''.'" ++ (" = '1'" : Text)) = ("''.'".toList, " = '1'".toList) :=
  ⟨by decide, written_isPrefixCode.2.1 _ _ (by decide)⟩

end Name

end TabularModel
