import TabularModel.Proofs.Sql.Increments

/-!
# Moved moments in a row filter

A row filter moves moments by the offset of the local time, by one period, by the bounds of
a window and by the counts that conditions give. The offset is a number of 32 bits from the
start, and a condition is written only if its count leads to one.
-/

set_option autoImplicit false

namespace TabularModel

theorem Decimal.fits32_iff {n : Int} :
    fits32 n = true ↔ -2147483648 ≤ n ∧ n ≤ 2147483647 := by
  rw [fits32, Bool.and_eq_true, decide_eq_true_eq, decide_eq_true_eq]

namespace Filter

open Sql (Expression Predicate)

/-- The moments that the tests in a predicate compare are moved by numbers of 32 bits. -/
def MovesShortly (predicate : Predicate) : Prop :=
  ∀ test, Atom.test test ∈ atoms predicate -> test.MovesShortly

theorem movesShortly_test {test : Predicate} (alone : atoms test = [.test test])
    (moves : test.MovesShortly) : MovesShortly test := by
  intro other member
  rw [alone] at member
  cases List.mem_singleton.mp member
  exact moves

theorem movesShortly_compare {comparison : Sql.Comparison} {left right : Expression}
    (isLeft : left.MovesShortly) (isRight : right.MovesShortly) :
    MovesShortly (.compare comparison left right) :=
  movesShortly_test (by simp [atoms]) ⟨isLeft, isRight⟩

theorem movesShortly_pair {first second : Predicate} (one : MovesShortly first)
    (other : MovesShortly second) :
    MovesShortly (.grouped (.junction .and [first, second])) := by
  intro test member
  rw [isGathered_atoms.grouped, isGathered_atoms.junction, List.flatMap_cons,
    List.flatMap_singleton] at member
  rcases List.mem_append.mp member with found | found
  · exact one test found
  · exact other test found

namespace LocalTime

/-- The minutes of a time are a number of 32 bits. -/
def IsShort (time : LocalTime) : Prop :=
  Decimal.fits32 time.minutes = true

theorem isShort_ofHours (hours : Float) : (ofHours hours).IsShort :=
  Decimal.fits32_iff.mpr ⟨Int32.le_toInt _, Int.le_of_lt_add_one (Int32.toInt_lt _)⟩

variable {time : LocalTime} (short : time.IsShort)
include short

theorem movesShortly_localise {moment : Expression} (moves : moment.MovesShortly) :
    (time.localise moment).MovesShortly := by
  have fits := Decimal.fits32_iff.mp short
  rw [localise]
  split
  · exact ⟨Decimal.fits32_iff.mpr (by omega), moves⟩
  · exact ⟨short, moves⟩

theorem movesShortly_now : time.now.MovesShortly :=
  movesShortly_localise short True.intro

theorem movesShortly_nowPlus (unit : DateUnit) {count : Int}
    (fits : Decimal.fits32 count = true) : (time.nowPlus unit count).MovesShortly :=
  ⟨fits, movesShortly_now short⟩

theorem movesShortly_boundary (unit : DateUnit) {count : Int}
    (fits : Decimal.fits32 count = true) : (time.boundary unit count).MovesShortly := by
  rw [boundary]
  split
  · exact movesShortly_now short
  · exact ⟨fits, movesShortly_now short⟩

theorem movesShortly_reference (unit : DateUnit) (neighbour : Neighbour) :
    (time.reference unit neighbour).MovesShortly := by
  cases neighbour with
  | current => exact movesShortly_now short
  | previous => exact movesShortly_nowPlus short unit (by decide)
  | next => exact movesShortly_nowPlus short unit (by decide)

variable {column : Expression} (moves : column.MovesShortly)
include moves

theorem movesShortly_inPeriod (period : CalendarPeriod) (neighbour : Neighbour) :
    MovesShortly (time.inPeriod column period neighbour) := by
  have moment := movesShortly_localise short moves
  have other (unit : DateUnit) := movesShortly_reference short unit neighbour
  cases period with
  | day => exact movesShortly_compare moment (other .day)
  | week =>
      exact movesShortly_pair (movesShortly_compare moment (other .week))
        (movesShortly_compare moment (other .week))
  | month =>
      exact movesShortly_pair (movesShortly_compare moment (other .month))
        (movesShortly_compare moment (other .month))
  | year => exact movesShortly_compare moment (other .year)

theorem movesShortly_window (unit : DateUnit) {count : Int} (direction : Direction)
    (fits : Decimal.fits32 (farBound count direction) = true) :
    MovesShortly (time.window column unit count direction) := by
  have moment := movesShortly_localise short moves
  have near := movesShortly_boundary short unit (show Decimal.fits32 1 = true by decide)
  have far := movesShortly_boundary short unit fits
  cases direction with
  | past => exact movesShortly_pair (movesShortly_compare moment far) (movesShortly_compare moment near)
  | future =>
      exact movesShortly_pair (movesShortly_compare moment near) (movesShortly_compare moment far)

theorem movesShortly_olderThan (unit : DateUnit) {count : Int}
    (fits : Decimal.fits32 (-count) = true) :
    MovesShortly (time.olderThan column unit count) :=
  movesShortly_compare (movesShortly_localise short moves) (movesShortly_nowPlus short unit fits)

theorem movesShortly_comparedWithDay {day : Expression} (isDay : day.MovesShortly)
    (relation : DayRelation) :
    MovesShortly (Condition.comparedWithDay time column day relation) := by
  have moment := movesShortly_localise short moves
  cases relation with
  | on => exact movesShortly_compare moment isDay
  | onOrAfter => exact movesShortly_compare moment isDay
  | onOrBefore => exact movesShortly_compare moment isDay

end LocalTime

namespace Condition

variable {condition : Condition} {predicate : Predicate}

theorem movesShortly_convert {settings : Settings} {tableAlias : Text}
    (short : settings.time.IsShort)
    (kept : (condition.convert settings tableAlias).predicate? = some predicate) :
    MovesShortly predicate := by
  have column : (Expression.column tableAlias condition.column).MovesShortly := True.intro
  cases yields_of_convert kept with
  | compare => exact movesShortly_compare column True.intro
  | isNull => exact movesShortly_test (by simp [atoms]) column
  | like => exact movesShortly_test (by simp [atoms]) column
  | isIn => exact movesShortly_test (by simp [atoms]) column
  | between => exact movesShortly_test (by simp [atoms]) column
  | inPeriod => exact LocalTime.movesShortly_inPeriod short column _ _
  | @sevenDays direction =>
      have fits : Decimal.fits32 (LocalTime.farBound 7 direction) = true := by
        cases direction <;> decide
      exact LocalTime.movesShortly_window short column _ _ fits
  | window _ fits => exact LocalTime.movesShortly_window short column _ _ fits
  | olderThan _ fits => exact LocalTime.movesShortly_olderThan short column _ fits
  | @day _ value =>
      have day : (Expression.literal (.ofText value)).MovesShortly := True.intro
      exact LocalTime.movesShortly_comparedWithDay short column day _
  | currentUser => exact movesShortly_compare column True.intro
  | userTeams => exact movesShortly_test (by simp [atoms]) column

end Condition

/-- What is written for a place is moved by numbers of 32 bits. -/
theorem Visit.movesShortly_written {settings : Settings} (short : settings.time.IsShort)
    {visit : Visit} {test : Predicate} (member : Atom.test test ∈ visit.written settings) :
    test.MovesShortly := by
  cases visit with
  | condition tableAlias condition =>
      rw [Visit.written, List.mem_flatMap] at member
      obtain ⟨predicate, kept, inside⟩ := member
      exact Condition.movesShortly_convert short (Option.mem_toList.mp kept) test inside
  | link outerAlias ownAlias link =>
      rw [Visit.written, Link.existence?, Option.mem_toList] at member
      split at member
      · cases member
      · cases member

/-- A row filter consists of what is written for the places of its view. -/
theorem Query.covers_convert (settings : Settings) (tableAlias : Text) (query : Query) :
    (query.convert settings tableAlias).predicate.toList.flatMap atoms =
      (query.visits tableAlias).flatMap (Visit.written settings) := by
  have filters := Group.covers_convertEach settings tableAlias 0 query.filters
  have links := Link.covers_convertEach settings tableAlias
    (Group.aliasCountEach query.filters) query.links
  rw [Query.predicate_convert, isGathered_atoms.all?, (filters.append links).written, Query.visits]

/-- The increments in the clause of a row filter are numerals of 32 bits. -/
theorem Query.isShort_of_mem_increments {settings : Settings} (short : settings.time.IsShort)
    (tableAlias : Text) (query : Query) :
    ∀ numeral ∈ Sql.increments (Sql.lexemes (query.convert settings tableAlias).clause),
      Sql.IsShort numeral := by
  have covers := query.covers_convert settings tableAlias
  rw [Conversion.clause]
  cases kept : (query.convert settings tableAlias).predicate with
  | none =>
      rintro numeral ⟨⟩
  | some predicate =>
      rw [kept, Option.toList_some, List.flatMap_singleton] at covers
      refine (Query.isSound_convert settings kept).isShort fun test member => ?_
      rw [covers, List.mem_flatMap] at member
      obtain ⟨visit, _, inside⟩ := member
      exact Visit.movesShortly_written short inside

end Filter

end TabularModel
