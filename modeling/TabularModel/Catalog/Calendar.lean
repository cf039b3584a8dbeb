import TabularModel.Decimal.Shortest

/-!
# The calendar of a model

A calendar covers whole years, and is joined to one date field of one table. The
offset of local time from universal time is given in hours.
-/

set_option autoImplicit false

namespace TabularModel

namespace Catalog

/-- The offsets that occur on earth. What is not a number is outside. -/
def isValidOffset (hours : Float) : Bool :=
  -14 ≤ hours && hours ≤ 14

inductive CalendarFault where
  | inverted (first last : Int)
  | offset (hours : Float)
deriving Repr

def CalendarFault.message : CalendarFault -> Text
  | .inverted first last =>
      "date range is inverted: start year " ++ Decimal.integer first ++ " is after end year " ++
        Decimal.integer last
  | .offset hours => "UTC offset " ++ Decimal.double hours ++ " hours is outside -14..=14"

/-- The table and the field are given by their logical names. -/
structure Calendar where
  firstYear : Int
  lastYear : Int
  offsetHours : Float
  table : Text
  field : Text
deriving Repr

namespace Calendar

def fault? (calendar : Calendar) : Option CalendarFault :=
  if calendar.lastYear < calendar.firstYear then
    some (.inverted calendar.firstYear calendar.lastYear)
  else if isValidOffset calendar.offsetHours then none
  else some (.offset calendar.offsetHours)

end Calendar

end Catalog

end TabularModel
