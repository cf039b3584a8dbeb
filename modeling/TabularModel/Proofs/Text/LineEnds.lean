import Mathlib.Data.List.Infix
import TabularModel.Proofs.Text.Characters
import TabularModel.Proofs.Text.Trimming

/-!
# Line ends

The lines of a text, joined by line feeds again, are the text without the carriage returns
that stand directly before its line feeds. A carriage return anywhere else is kept.
-/

set_option autoImplicit false

namespace TabularModel

namespace Text

/-- The text without the carriage returns that stand directly before line feeds. -/
def withoutReturns : Text -> Text
  | [] => []
  | c :: rest =>
      if c = '\r' ∧ rest.head? = some '\n' then withoutReturns rest else c :: withoutReturns rest

theorem length_withoutReturns_le (text : Text) : (withoutReturns text).length ≤ text.length := by
  induction text with
  | nil => exact Nat.le_refl 0
  | cons c text ih =>
      rw [withoutReturns]
      split
      · exact Nat.le_succ_of_le ih
      · exact Nat.succ_le_succ ih

/-- A text is kept if it has no line end of two characters. -/
theorem withoutReturns_eq_self_iff {text : Text} :
    withoutReturns text = text ↔ ¬['\r', '\n'] <:+: text := by
  induction text with
  | nil => simp [withoutReturns]
  | cons c text ih =>
      have begins : ['\r', '\n'] <+: c :: text ↔ c = '\r' ∧ text.head? = some '\n' := by
        cases text <;> simp [eq_comm]
      rw [List.infix_cons_iff, begins, withoutReturns]
      by_cases ended : c = '\r' ∧ text.head? = some '\n'
      · have shorter := length_withoutReturns_le text
        rw [if_pos ended]
        refine iff_of_false (fun same => ?_) (fun apart => apart (Or.inl ended))
        rw [same, List.length_cons] at shorter
        omega
      · rw [if_neg ended, List.cons.injEq, ih]
        simp [ended]

theorem withoutReturns_append {front back : Text}
    (seam : front.getLast? = some '\r' -> back.head? ≠ some '\n') :
    withoutReturns (front ++ back) = withoutReturns front ++ withoutReturns back := by
  induction front with
  | nil => rfl
  | cons c front ih =>
      rw [List.cons_append, withoutReturns, withoutReturns]
      cases front with
      | nil =>
          have apart : ¬(c = '\r' ∧ back.head? = some '\n') := fun both =>
            seam (by simp [both.1]) both.2
          rw [List.nil_append, if_neg apart, if_neg (by simp)]
          rfl
      | cons next front =>
          rw [ih (by simpa using seam)]
          by_cases ended : c = '\r' ∧ (next :: front).head? = some '\n'
          · rw [if_pos ended]
            exact if_pos ended
          · rw [if_neg ended]
            exact if_neg ended

/-- The marks of a text are not part of line ends. -/
theorem withoutReturns_doubling {mark : Char} (isMark : mark ≠ '\r' ∧ mark ≠ '\n') (text : Text) :
    withoutReturns (doubling mark text) = doubling mark (withoutReturns text) := by
  have head (rest : Text) : (doubling mark rest).head? = rest.head? := by
    cases rest with
    | nil => rfl
    | cons c rest =>
        by_cases same : c = mark
        · simp [doubling, same]
        · simp [doubling, same]
  induction text with
  | nil => rfl
  | cons c text ih =>
      rw [doubling_cons]
      by_cases same : c = mark
      · have noReturn (rest : Text) : ¬(c = '\r' ∧ rest.head? = some '\n') := by
          simp [same, isMark.1]
        have pair : withoutReturns [c, c] = [c, c] := by
          simp [withoutReturns, same, isMark.1]
        rw [if_pos same, withoutReturns_append (by simp [same, isMark.1]), ih, pair, withoutReturns,
          if_neg (noReturn text), doubling_cons, if_pos same]
      · rw [if_neg same, List.singleton_append, withoutReturns, withoutReturns, head, ih]
        split
        · rfl
        · rw [doubling_cons_of_ne _ same]

/-- The lines that fields are: all but the last end at a line feed. -/
def closedLines : List Text -> List Text
  | [] => []
  | [last] => [last]
  | piece :: next :: pieces => dropFinal '\r' piece :: closedLines (next :: pieces)

theorem closedLines_eq (pieces : List Text) :
    closedLines pieces = pieces.dropLast.map (dropFinal '\r') ++ pieces.getLast?.toList := by
  induction pieces with
  | nil => rfl
  | cons piece pieces ih =>
      cases pieces with
      | nil => rfl
      | cons next pieces =>
          rw [closedLines, ih, List.getLast?_cons_cons]
          rfl

/-- A text begins with a line feed if its first field is empty and not the only one. -/
theorem head?_eq_feed_iff {text piece : Text} {pieces : List Text}
    (found : fields '\n' text = piece :: pieces) :
    text.head? = some '\n' ↔ piece = [] ∧ pieces ≠ [] := by
  cases text with
  | nil =>
      cases found
      simp
  | cons c text =>
      rw [fields] at found
      split at found
      · next feed =>
          cases found
          simp [feed, fields_ne_nil]
      · next other =>
          split at found
          · cases found
            simp [other]
          · cases found
            simp [other]

theorem dropFinal_cons_cons (mark c next : Char) (text : Text) :
    dropFinal mark (c :: next :: text) = c :: dropFinal mark (next :: text) := by
  rw [dropFinal, dropFinal, List.getLast?_cons_cons]
  split
  · rfl
  · rfl

/-- Joined again, lines give the text without the carriage returns of their ends. -/
theorem joined_closedLines (text : Text) :
    joined ['\n'] (closedLines (fields '\n' text)) = withoutReturns text := by
  have joined_cons (line next : Text) (others : List Text) :
      joined ['\n'] (line :: next :: others) = line ++ '\n' :: joined ['\n'] (next :: others) := by
    simp [joined, List.intercalate_cons_cons]
  have closed_cons (next : Text) (others : List Text) :
      ∃ line lines, closedLines (next :: others) = line :: lines := by
    cases others with
    | nil => exact ⟨next, [], rfl⟩
    | cons other others => exact ⟨_, _, rfl⟩
  induction text with
  | nil => rfl
  | cons c text ih =>
      rw [withoutReturns, ← ih, fields]
      cases found : fields '\n' text with
      | nil => exact absurd found (fields_ne_nil '\n' text)
      | cons piece pieces =>
          have begins := head?_eq_feed_iff found
          by_cases feed : c = '\n'
          · obtain ⟨line, lines, closed⟩ := closed_cons piece pieces
            rw [if_pos feed, closedLines, closed, joined_cons, if_neg (by simp [feed]), feed]
            rfl
          · rw [if_neg feed]
            cases pieces with
            | nil =>
                rw [if_neg (by simp [begins])]
                simp [closedLines, joined]
            | cons next others =>
                obtain ⟨line, lines, closed⟩ := closed_cons next others
                rw [closedLines, closedLines, closed, joined_cons, joined_cons]
                cases piece with
                | nil =>
                    by_cases ended : c = '\r'
                    · rw [if_pos ⟨ended, begins.mpr ⟨rfl, List.cons_ne_nil _ _⟩⟩, ended]
                      rfl
                    · rw [if_neg fun both => ended both.1]
                      simp [dropFinal, ended]
                | cons first piece =>
                    rw [if_neg (by simp [begins]), dropFinal_cons_cons]
                    rfl

theorem joined_lines {text : Text} (ends : ∀ last ∈ (fields '\n' text).getLast?, last ≠ []) :
    joined ['\n'] (lines text) = withoutReturns text := by
  rw [← joined_closedLines, closedLines_eq, lines]
  cases found : (fields '\n' text).getLast? with
  | none => simp
  | some last =>
      cases last with
      | nil => exact absurd rfl (ends [] found)
      | cons c last => rfl

end Text

end TabularModel
