import TabularModel.Filter.Conversion
import TabularModel.Proofs.Sql.Pieces

/-!
# Converted conditions are sound

The predicates that a condition may be converted to are listed once, and what holds of
all of them is read off the list. Every expression in them is built from columns, literals
of values and functions of moments. Where a condition takes two comparisons, there
are parentheses around the pair.
-/

set_option autoImplicit false

namespace TabularModel

namespace Filter

open Sql (Expression Literal Predicate)

/-! ## Conditions -/

namespace LocalTime

variable (time : LocalTime)

theorem isSound_localise {moment : Expression} (sound : moment.IsSound) :
    (time.localise moment).IsSound := by
  rw [localise]
  split
  · exact .dateAdd .hour _ sound
  · exact .dateAdd .minute _ sound

theorem isSound_now : time.now.IsSound :=
  time.isSound_localise .utcNow

theorem isSound_boundary (unit : DateUnit) (count : Int) : (time.boundary unit count).IsSound := by
  have start : (time.periodStart unit).IsSound := .startOf _ time.isSound_now
  rw [boundary]
  split
  · exact start
  · exact .dateAdd _ _ start

theorem isSound_reference (unit : DateUnit) (neighbour : Neighbour) :
    (time.reference unit neighbour).IsSound := by
  cases neighbour with
  | current => exact time.isSound_now
  | previous => exact .dateAdd _ _ time.isSound_now
  | next => exact .dateAdd _ _ time.isSound_now

end LocalTime

/-- A predicate that needs no parentheses beside others. -/
structure IsSimple (predicate : Predicate) : Prop where
  sound : predicate.IsSound
  simple : predicate.isCompound = false

/-- A pair of comparisons in parentheses. -/
theorem isSimple_pair {first second : Predicate} (one : IsSimple first) (other : IsSimple second) :
    IsSimple (.grouped (.junction .and [first, second])) := by
  refine ⟨.grouped (.junction .and (Nat.le_refl 2) ?_ ?_), rfl⟩
  · simp [one.sound, other.sound]
  · simp [one.simple, other.simple]

theorem isSimple_compare (comparison : Sql.Comparison) {left right : Expression}
    (leftSound : left.IsSound) (rightSound : right.IsSound) :
    IsSimple (.compare comparison left right) :=
  ⟨.compare comparison leftSound rightSound, rfl⟩

namespace LocalTime

variable (time : LocalTime) {column : Expression} (sound : column.IsSound)
include sound

theorem isSimple_inPeriod (period : CalendarPeriod) (neighbour : Neighbour) :
    IsSimple (time.inPeriod column period neighbour) := by
  have moment := time.isSound_localise sound
  have other (unit : DateUnit) := time.isSound_reference unit neighbour
  cases period with
  | day => exact isSimple_compare _ (.asDate moment) (.asDate (other .day))
  | week =>
      exact isSimple_pair (isSimple_compare _ (.partOf _ moment) (.partOf _ (other .week)))
        (isSimple_compare _ (.partOf _ moment) (.partOf _ (other .week)))
  | month =>
      exact isSimple_pair (isSimple_compare _ (.monthOf moment) (.monthOf (other .month)))
        (isSimple_compare _ (.yearOf moment) (.yearOf (other .month)))
  | year => exact isSimple_compare _ (.yearOf moment) (.yearOf (other .year))

theorem isSimple_window (unit : DateUnit) (count : Int) (direction : Direction) :
    IsSimple (time.window column unit count direction) := by
  have moment := time.isSound_localise sound
  have near := time.isSound_boundary unit 1
  have far := time.isSound_boundary unit (farBound count direction)
  cases direction with
  | past => exact isSimple_pair (isSimple_compare _ moment far) (isSimple_compare _ moment near)
  | future => exact isSimple_pair (isSimple_compare _ moment near) (isSimple_compare _ moment far)

theorem isSimple_olderThan (unit : DateUnit) (count : Int) :
    IsSimple (time.olderThan column unit count) :=
  isSimple_compare _ (time.isSound_localise sound) (.dateAdd _ _ time.isSound_now)

theorem isSimple_comparedWithDay {day : Expression} (daySound : day.IsSound)
    (relation : DayRelation) :
    IsSimple (Condition.comparedWithDay time column day relation) := by
  have moment := time.isSound_localise sound
  cases relation with
  | on => exact isSimple_compare _ (.asDate moment) (.asDate daySound)
  | onOrAfter => exact isSimple_compare _ moment daySound
  | onOrBefore => exact isSimple_compare _ moment daySound

end LocalTime

namespace Condition

/-- The predicates that a condition on the table known by an alias may be converted to, each
with what the condition gives for it. -/
inductive Yields (settings : Settings) (tableAlias : Text) (condition : Condition) :
    Predicate -> Prop where
  | compare {comparison : Sql.Comparison} {value : Text}
      (isOperator : condition.operator = .compare comparison)
      (given : condition.scalarValue = some value) :
      Yields settings tableAlias condition
        (.compare comparison (.column tableAlias condition.column) (.literal (.ofText value)))
  | isNull {negated : Bool} (isOperator : condition.operator = .isNull negated) :
      Yields settings tableAlias condition (.isNull negated (.column tableAlias condition.column))
  | like {shape : TextMatch} {negated : Bool} {value : Text}
      (isOperator : condition.operator = .like shape negated)
      (given : condition.scalarValue = some value) :
      Yields settings tableAlias condition
        (.like negated (.column tableAlias condition.column) (pattern shape value))
  | isIn {negated : Bool} (isOperator : condition.operator = .oneOf negated)
      (listed : condition.listValues ≠ []) :
      Yields settings tableAlias condition
        (.isIn negated (.column tableAlias condition.column) (condition.listValues.map .ofText))
  | between {negated : Bool} {low high : Text} (isOperator : condition.operator = .between negated)
      (listed : condition.listValues = [low, high]) :
      Yields settings tableAlias condition
        (.between negated (.column tableAlias condition.column) (.ofText low) (.ofText high))
  | inPeriod {period : CalendarPeriod} {neighbour : Neighbour}
      (isOperator : condition.operator = .inPeriod period neighbour) :
      Yields settings tableAlias condition
        (settings.time.inPeriod (.column tableAlias condition.column) period neighbour)
  | sevenDays {direction : Direction} (isOperator : condition.operator = .sevenDays direction) :
      Yields settings tableAlias condition
        (settings.time.window (.column tableAlias condition.column) .day 7 direction)
  | window {direction : Direction} {unit : DateUnit} {count : Int}
      (isOperator : condition.operator = .window direction unit)
      (fits : Decimal.fits32 (LocalTime.farBound count direction) = true) :
      Yields settings tableAlias condition
        (settings.time.window (.column tableAlias condition.column) unit count direction)
  | olderThan {unit : DateUnit} {count : Int} (isOperator : condition.operator = .olderThan unit)
      (fits : Decimal.fits32 (-count) = true) :
      Yields settings tableAlias condition
        (settings.time.olderThan (.column tableAlias condition.column) unit count)
  | day {relation : DayRelation} {value : Text} (isOperator : condition.operator = .day relation)
      (given : condition.scalarValue = some value) :
      Yields settings tableAlias condition
        (comparedWithDay settings.time (.column tableAlias condition.column)
          (.literal (.ofText value)) relation)
  | currentUser {negated : Bool} (isOperator : condition.operator = .currentUser negated) :
      Yields settings tableAlias condition
        (.compare (if negated then .notEqual else .equal) (.column tableAlias condition.column)
          .currentUser)
  | userTeams {negated : Bool} (isOperator : condition.operator = .userTeams negated) :
      Yields settings tableAlias condition
        (.inUserTeams negated (.column tableAlias condition.column))

variable {condition : Condition} {predicate : Predicate}

theorem exists_value_of_withValue {use : Text -> Outcome}
    (kept : (condition.withValue use).predicate? = some predicate) :
    ∃ value, condition.scalarValue = some value ∧ (use value).predicate? = some predicate := by
  rw [withValue] at kept
  split at kept
  · next value found => exact ⟨value, found, kept⟩
  · cases kept

theorem exists_count_of_withCount {increment : Int -> Int} {use : Int -> Predicate}
    (kept : (condition.withCount increment use).predicate? = some predicate) :
    ∃ count, predicate = use count ∧ Decimal.fits32 (increment count) = true := by
  obtain ⟨value, _, kept⟩ := exists_value_of_withValue kept
  split at kept
  · next count _ =>
      split at kept
      · split at kept
        · next fits => exact ⟨count, (Option.some.inj kept).symm, fits⟩
        · cases kept
      · cases kept
  · cases kept

theorem withUser_of_predicate? {environment : Environment} {outcome : Outcome}
    (kept : (condition.withUser environment outcome).predicate? = some predicate) :
    outcome.predicate? = some predicate := by
  rw [withUser] at kept
  split at kept
  · cases kept
  · exact kept

variable {settings : Settings} {tableAlias : Text}

theorem yields_of_convert
    (kept : (condition.convert settings tableAlias).predicate? = some predicate) :
    condition.Yields settings tableAlias predicate := by
  rw [convert] at kept
  split at kept
  · cases kept
  · split at kept
    · next isOperator =>
        obtain ⟨value, given, found⟩ := exists_value_of_withValue kept
        cases found
        exact .compare isOperator given
    · next isOperator =>
        cases kept
        exact .isNull isOperator
    · next isOperator =>
        obtain ⟨value, given, found⟩ := exists_value_of_withValue kept
        cases found
        exact .like isOperator given
    · next isOperator =>
        split at kept
        · cases kept
        · next listed =>
            cases kept
            exact .isIn isOperator listed
    · next isOperator =>
        split at kept
        · next low high listed =>
            cases kept
            exact .between isOperator listed
        · cases kept
    · next isOperator =>
        cases kept
        exact .inPeriod isOperator
    · next isOperator =>
        cases kept
        exact .sevenDays isOperator
    · next isOperator =>
        obtain ⟨count, rfl, fits⟩ := exists_count_of_withCount kept
        exact .window isOperator fits
    · next isOperator =>
        obtain ⟨count, rfl, fits⟩ := exists_count_of_withCount kept
        exact .olderThan isOperator fits
    · next isOperator =>
        obtain ⟨value, given, found⟩ := exists_value_of_withValue kept
        cases found
        exact .day isOperator given
    · next isOperator =>
        cases withUser_of_predicate? kept
        exact .currentUser isOperator
    · next isOperator =>
        cases withUser_of_predicate? kept
        exact .userTeams isOperator
    · cases kept

theorem isSimple_convert
    (kept : (condition.convert settings tableAlias).predicate? = some predicate) :
    IsSimple predicate := by
  have column : (Expression.column tableAlias condition.column).IsSound := .column _ _
  have literal (value : Text) : (Expression.literal (.ofText value)).IsSound :=
    .literal (Literal.isSound_ofText value)
  cases yields_of_convert kept with
  | compare => exact isSimple_compare _ column (literal _)
  | isNull => exact ⟨.isNull _ column, rfl⟩
  | like => exact ⟨.like _ column _, rfl⟩
  | isIn =>
      refine ⟨.isIn _ column fun value member => ?_, rfl⟩
      obtain ⟨text, _, rfl⟩ := List.mem_map.mp member
      exact Literal.isSound_ofText text
  | between =>
      exact ⟨.between _ column (Literal.isSound_ofText _) (Literal.isSound_ofText _), rfl⟩
  | inPeriod => exact settings.time.isSimple_inPeriod column _ _
  | sevenDays => exact settings.time.isSimple_window column _ _ _
  | window => exact settings.time.isSimple_window column _ _ _
  | olderThan => exact settings.time.isSimple_olderThan column _ _
  | day => exact settings.time.isSimple_comparedWithDay column (literal _) _
  | currentUser => exact isSimple_compare _ column .currentUser
  | userTeams => exact ⟨.inUserTeams _ column, rfl⟩

end Condition

end Filter

end TabularModel
