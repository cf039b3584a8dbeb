import TabularModel.Filter.Operator

/-!
# Local time

Stored moments are in universal time, while a view speaks about a local
calendar. The two differ by a fixed number of minutes, and every stored column
and every present moment is moved by it before they are compared.
-/

set_option autoImplicit false

namespace TabularModel

namespace Filter

open Sql (Expression Predicate)

structure LocalTime where
  minutes : Int
deriving DecidableEq, Repr

namespace LocalTime

/-- The offset in hours is taken to the nearest minute, a half away from zero,
and limited to 32 bits; what is not a number counts as zero. -/
def ofHours (hours : Float) : LocalTime :=
  ⟨(hours * 60).round.toInt32.toInt⟩

variable (time : LocalTime)

/-- A moment in local time, moved by whole hours where that is exact. -/
def localise (moment : Expression) : Expression :=
  if time.minutes % 60 = 0 then .dateAdd .hour (time.minutes / 60) moment
  else .dateAdd .minute time.minutes moment

def now : Expression :=
  time.localise .utcNow

def nowPlus (unit : DateUnit) (count : Int) : Expression :=
  .dateAdd unit.part count time.now

/-- The start of the present period. -/
def periodStart (unit : DateUnit) : Expression :=
  .startOf unit.part time.now

/-- The start of the period that lies `count` periods after the present one. -/
def boundary (unit : DateUnit) (count : Int) : Expression :=
  if count = 0 then time.periodStart unit
  else .dateAdd unit.part count (time.periodStart unit)

/-- The present moment itself, or the one a unit before or after it. -/
def reference (unit : DateUnit) : Neighbour -> Expression
  | .current => time.now
  | .previous => time.nowPlus unit (-1)
  | .next => time.nowPlus unit 1

def inPeriod (column : Expression) : CalendarPeriod -> Neighbour -> Predicate
  | .day, neighbour =>
      .compare .equal (.asDate (time.localise column)) (.asDate (time.reference .day neighbour))
  | .week, neighbour =>
      let moment := time.localise column
      let other := time.reference .week neighbour
      .grouped (.junction .and
        [ .compare .equal (.partOf .week moment) (.partOf .week other),
          .compare .equal (.partOf .year moment) (.partOf .year other) ])
  | .month, neighbour =>
      let moment := time.localise column
      let other := time.reference .month neighbour
      .grouped (.junction .and
        [ .compare .equal (.monthOf moment) (.monthOf other),
          .compare .equal (.yearOf moment) (.yearOf other) ])
  | .year, neighbour =>
      .compare .equal (.yearOf (time.localise column)) (.yearOf (time.reference .year neighbour))

/-- From the lower bound on and before the upper bound. -/
def within (column lower upper : Expression) : Predicate :=
  let moment := time.localise column
  .grouped (.junction .and
    [.compare .greaterOrEqual moment lower, .compare .less moment upper])

/-- By how many periods the far bound of a window lies after the start of the
present one. -/
def farBound (count : Int) : Direction -> Int
  | .past => 1 - count
  | .future => 1 + count

/-- The window of `count` periods that ends with the present one, or that
begins with the next one. -/
def window (column : Expression) (unit : DateUnit) (count : Int)
    (direction : Direction) : Predicate :=
  let far := time.boundary unit (farBound count direction)
  let near := time.boundary unit 1
  match direction with
  | .past => time.within column far near
  | .future => time.within column near far

def olderThan (column : Expression) (unit : DateUnit) (count : Int) : Predicate :=
  .compare .less (time.localise column) (time.nowPlus unit (-count))

end LocalTime

end Filter

end TabularModel
