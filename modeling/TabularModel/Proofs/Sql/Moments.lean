import Mathlib.Algebra.Order.Group.Int
import TabularModel.Sql.Predicate

/-!
# Moments

What the date functions of a query stand for. The database counts periods of every unit
from a day zero on; `DATEADD` moves a moment by a count of units, and `DATEDIFF` counts the
boundaries between two moments. A window between two boundaries consists of the periods
between them, each of which has its moments to itself.
-/

set_option autoImplicit false

namespace TabularModel

namespace Sql

/-- Moments as the database counts them. Day zero begins a period of every unit, so its
moves by whole units are the boundaries of periods. -/
structure Chronology where
  Moment : Type
  order : LinearOrder Moment
  dayZero : Moment
  add : DatePart -> Int -> Moment -> Moment
  difference : DatePart -> Moment -> Moment -> Int
  add_add : ∀ part first second,
    add part second (add part first dayZero) = add part (first + second) dayZero
  add_lt_add : ∀ part first second, first < second ->
    add part first dayZero < add part second dayZero

namespace Chronology

attribute [instance] Chronology.order

/-- Minutes since day zero, where every period of a unit is equally long. -/
def uniform (length : DatePart -> Int) (positive : ∀ part, 0 < length part) : Chronology where
  Moment := Int
  order := inferInstance
  dayZero := 0
  add part count moment := moment + count * length part
  difference part first second := second / length part - first / length part
  add_add part first second := by
    rw [zero_add, zero_add, Int.add_mul]
  add_lt_add part first second earlier := by
    have longer := Int.mul_lt_mul_of_pos_right earlier (positive part)
    simpa only [zero_add] using longer

variable (dates : Chronology) (part : DatePart) (present : dates.Moment)

/-- The start of the period of the present moment. -/
def start : dates.Moment :=
  dates.add part (dates.difference part dates.dayZero present) dates.dayZero

/-- The start of the present period, moved by a count of periods. -/
def boundary (count : Int) : dates.Moment :=
  dates.add part count (dates.start part present)

/-- From one boundary on and before another. -/
def IsWithin (first past : Int) (moment : dates.Moment) : Prop :=
  dates.boundary part present first ≤ moment ∧ moment < dates.boundary part present past

theorem boundary_eq (count : Int) :
    dates.boundary part present count =
      dates.add part (dates.difference part dates.dayZero present + count) dates.dayZero :=
  dates.add_add part _ count

theorem boundary_zero : dates.boundary part present 0 = dates.start part present := by
  rw [boundary_eq, add_zero, start]

theorem boundary_lt_boundary {first second : Int} (earlier : first < second) :
    dates.boundary part present first < dates.boundary part present second := by
  rw [boundary_eq, boundary_eq]
  exact dates.add_lt_add part _ _ (Int.add_lt_add_left earlier _)

theorem boundary_le_boundary {first second : Int} (earlier : first ≤ second) :
    dates.boundary part present first ≤ dates.boundary part present second := by
  rcases Int.lt_or_eq_of_le earlier with less | same
  · exact le_of_lt (dates.boundary_lt_boundary part present less)
  · rw [same]

variable {dates part present} {first middle past : Int} {moment : dates.Moment}

/-- Neighbouring windows make up one window. -/
theorem isWithin_iff_or (early : first ≤ middle) (late : middle ≤ past) :
    dates.IsWithin part present first past moment ↔
      dates.IsWithin part present first middle moment ∨
        dates.IsWithin part present middle past moment := by
  constructor
  · rintro ⟨lower, upper⟩
    rcases lt_or_ge moment (dates.boundary part present middle) with below | above
    · exact Or.inl ⟨lower, below⟩
    · exact Or.inr ⟨above, upper⟩
  · rintro (⟨lower, upper⟩ | ⟨lower, upper⟩)
    · exact ⟨lower, lt_of_lt_of_le upper (dates.boundary_le_boundary part present late)⟩
    · exact ⟨le_trans (dates.boundary_le_boundary part present early) lower, upper⟩

/-- No moment lies in both of two windows of which one begins where the other ends. -/
theorem not_isWithin_both (earlier : dates.IsWithin part present first middle moment) :
    ¬ dates.IsWithin part present middle past moment :=
  fun later => absurd later.1 (not_le_of_gt earlier.2)

/-- The period that a moment lies in is determined. -/
theorem period_unique {one other : Int} (inOne : dates.IsWithin part present one (one + 1) moment)
    (inOther : dates.IsWithin part present other (other + 1) moment) : one = other := by
  have earlier {first second : Int} (before : dates.boundary part present first <
      dates.boundary part present second) : first < second := by
    by_contra later
    exact absurd (dates.boundary_le_boundary part present (Int.not_lt.mp later))
      (not_le_of_gt before)
  have before := earlier (lt_of_le_of_lt inOne.1 inOther.2)
  have behind := earlier (lt_of_le_of_lt inOther.1 inOne.2)
  omega

/-- A window consists of the periods between its boundaries. -/
theorem isWithin_iff_exists_period (ordered : first ≤ past) :
    dates.IsWithin part present first past moment ↔
      ∃ period, (first ≤ period ∧ period < past) ∧
        dates.IsWithin part present period (period + 1) moment := by
  induction past, ordered using Int.leInduction with
  | base =>
      constructor
      · rintro ⟨lower, upper⟩
        exact absurd lower (not_le_of_gt upper)
      · rintro ⟨period, inside, _⟩
        omega
  | succ past ordered ih =>
      rw [isWithin_iff_or ordered (by omega), ih]
      constructor
      · rintro (⟨period, inside, within⟩ | last)
        · exact ⟨period, by omega, within⟩
        · exact ⟨past, by omega, last⟩
      · rintro ⟨period, inside, within⟩
        by_cases isLast : period = past
        · exact Or.inr (isLast ▸ within)
        · exact Or.inl ⟨period, by omega, within⟩

end Chronology

/-! ## Expressions and predicates -/

section

variable (dates : Chronology) (row : Text -> Text -> Option dates.Moment) (now : dates.Moment)

/-- The moment an expression stands for. The row gives the moments in its columns by alias
and name. -/
def Expression.moment? : Expression -> Option dates.Moment
  | .column tableAlias name => row tableAlias name
  | .utcNow => some now
  | .dateAdd part count moment => moment.moment?.map (dates.add part count)
  | .startOf part moment => moment.moment?.map (dates.start part)
  | _ => none

def Comparison.Holds {α : Type} [LinearOrder α] (left right : α) : Comparison -> Prop
  | .equal => left = right
  | .notEqual => left ≠ right
  | .greater => right < left
  | .greaterOrEqual => right ≤ left
  | .less => left < right
  | .lessOrEqual => left ≤ right

/-- When comparisons of moments and conjunctions of them hold for a row. -/
inductive Predicate.Holds : Predicate -> Prop where
  | compare {comparison : Comparison} {left right : Expression} {one other : dates.Moment}
      (isLeft : left.moment? dates row now = some one)
      (isRight : right.moment? dates row now = some other) (holds : comparison.Holds one other) :
      Holds (.compare comparison left right)
  | conjunction {parts : List Predicate} (each : ∀ part ∈ parts, Holds part) :
      Holds (.junction .and parts)
  | grouped {inner : Predicate} (holds : Holds inner) : Holds (.grouped inner)

variable {dates row now} {left right : Expression} {one other : dates.Moment}

theorem Predicate.holds_compare (comparison : Comparison)
    (isLeft : left.moment? dates row now = some one)
    (isRight : right.moment? dates row now = some other) :
    (Predicate.compare comparison left right).Holds dates row now ↔ comparison.Holds one other := by
  constructor
  · rintro (⟨foundLeft, foundRight, holds⟩)
    rw [isLeft] at foundLeft
    rw [isRight] at foundRight
    cases foundLeft
    cases foundRight
    exact holds
  · exact fun holds => .compare isLeft isRight holds

theorem Predicate.holds_pair (first second : Predicate) :
    (Predicate.grouped (.junction .and [first, second])).Holds dates row now ↔
      first.Holds dates row now ∧ second.Holds dates row now := by
  constructor
  · intro holds
    cases holds with
    | grouped inner =>
        cases inner with
        | conjunction each => exact ⟨each first (by simp), each second (by simp)⟩
  · rintro ⟨one, other⟩
    refine .grouped (.conjunction fun part member => ?_)
    rcases List.mem_cons.mp member with rfl | member
    · exact one
    · exact List.mem_singleton.mp member ▸ other

end

end Sql

end TabularModel
