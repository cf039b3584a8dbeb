import TabularModel.Definition.Path
import TabularModel.Proofs.Text.Trimming

/-!
# File names of tables

Whatever a table is called, its file has a name that stays inside the folder of the
tables and that file systems accept: no part of it separates folders, and it does not
end like the names of the folder itself and of the one above.
-/

set_option autoImplicit false

namespace TabularModel

namespace Path

/-- The control characters of Unicode. -/
def IsControl (c : Char) : Prop :=
  c.toNat < 0x20 ∨ 0x7F ≤ c.toNat ∧ c.toNat ≤ 0x9F

/-- Characters that separate folders, or that some file systems refuse. -/
def reservedMarks : Text := "/\\<>:\"|?*"

/-- Names of files in one folder. -/
structure IsFileName (name : Text) : Prop where
  nonempty : name ≠ []
  noReserved : ∀ c ∈ name, c ∉ reservedMarks
  noControl : ∀ c ∈ name, ¬ IsControl c
  noFolder : name ≠ "." ∧ name ≠ ".."
  ending : ∀ c ∈ name.getLast?, c ≠ '.' ∧ c ≠ ' '

theorem isUnsafe_eq_false_iff (c : Char) :
    isUnsafe c = false ↔ c ∉ reservedMarks ∧ ¬ IsControl c := by
  have reordered : "<>:\"/\\|?*".toList.Perm reservedMarks := by decide
  rw [isUnsafe, Bool.or_assoc, Bool.or_eq_false_iff, List.contains_eq_mem, decide_eq_false_iff_not,
    reordered.mem_iff]
  refine and_congr_right fun _ => ?_
  rw [IsControl, ← Bool.not_eq_true, Bool.or_eq_true, Bool.and_eq_true, decide_eq_true_eq,
    decide_eq_true_eq, decide_eq_true_eq]

theorem isUnsafe_eq_false_of_mem_fileName {name : Text} {c : Char} (member : c ∈ fileName name) :
    isUnsafe c = false := by
  have cleaned : ∀ c ∈ name.map (fun c => if isUnsafe c then '_' else c), isUnsafe c = false := by
    intro c member
    obtain ⟨own, _, rfl⟩ := List.mem_map.mp member
    split
    · rfl
    · next safe => exact Bool.not_eq_true _ ▸ safe
  rw [fileName] at member
  split at member
  · rw [List.mem_singleton.mp member]
    rfl
  · rw [Text.dropRightWhile_eq] at member
    exact cleaned c ((List.rdropWhile_prefix _ _).subset member)

theorem fileName_ne_nil (name : Text) : fileName name ≠ [] := by
  rw [fileName]
  split
  · decide
  · assumption

/-- Points and spaces are dropped from the end. -/
theorem getLast?_fileName {name : Text} {c : Char} (last : c ∈ (fileName name).getLast?) :
    c ≠ '.' ∧ c ≠ ' ' := by
  rw [fileName] at last
  split at last
  · cases last
    decide
  · next trimmed =>
      rw [Text.dropRightWhile_eq] at last trimmed
      have kept := List.rdropWhile_last_not (fun c => c == '.' || c == ' ')
        (name.map fun c => if isUnsafe c then '_' else c) trimmed
      rw [List.getLast?_eq_some_getLast trimmed] at last
      rw [Option.some.inj last] at kept
      simpa using kept

theorem isFileName_fileName (name : Text) : IsFileName (fileName name) := by
  have safe (c : Char) (member : c ∈ fileName name) :=
    (isUnsafe_eq_false_iff c).mp (isUnsafe_eq_false_of_mem_fileName member)
  refine ⟨fileName_ne_nil name, fun c member => (safe c member).1, fun c member => (safe c member).2,
    ⟨?_, ?_⟩, fun c => getLast?_fileName⟩
  · intro same
    have last : '.' ∈ (fileName name).getLast? := by rw [same]; rfl
    exact (getLast?_fileName last).1 rfl
  · intro same
    have last : '.' ∈ (fileName name).getLast? := by rw [same]; rfl
    exact (getLast?_fileName last).1 rfl

theorem slash_not_mem_fileName (name : Text) : '/' ∉ fileName name :=
  fun member => (isFileName_fileName name).noReserved '/' member (by decide)

end Path

end TabularModel
