import TabularModel.Catalog.Calendar
import TabularModel.Definition.Column
import TabularModel.Definition.Convention
import TabularModel.Definition.Partition

/-!
# The calendar table

A calculated table with one row for each day. Its key is the day itself, and
its other columns are computed from that.
-/

set_option autoImplicit false

namespace TabularModel

namespace Definition

open Catalog (Calendar)

/-- A column of the calendar and the expression that computes it. -/
structure CalendarColumn where
  name : Text
  expression : Text
  dataType : DataType
  format : Option Text
deriving DecidableEq, Repr

def calendarColumns : List CalendarColumn :=
  [ ⟨"Year", "YEAR([Date])", .int64, some "0"⟩,
    ⟨"Quarter", "\"Q\" & QUARTER([Date])", .string, none⟩,
    ⟨"Month Number", "MONTH([Date])", .int64, some "0"⟩,
    ⟨"Month", "FORMAT([Date], \"MMMM\")", .string, none⟩,
    ⟨"Week of Year", "WEEKNUM([Date], 2)", .int64, some "0"⟩,
    ⟨"Day of Week", "WEEKDAY([Date], 2)", .int64, some "0"⟩,
    ⟨"Day Name", "FORMAT([Date], \"dddd\")", .string, none⟩,
    ⟨"Day", "DAY([Date])", .int64, some "0"⟩ ]

/-- The first days and the last days of both years belong to the calendar. -/
def calendarExpression (calendar : Calendar) : Text :=
  let computed : List Text := calendarColumns.map fun column =>
    "\t\"" ++ column.name ++ "\", " ++ column.expression
  Text.joined "\n"
    [ "ADDCOLUMNS(",
      "\tCALENDAR(DATE(" ++ Decimal.integer calendar.firstYear ++ ", 1, 1), DATE(" ++
        Decimal.integer calendar.lastYear ++ ", 12, 31)),",
      Text.joined ",\n" computed,
      ")" ]

/-- Columns of a calculated table have their own names in brackets as source. -/
def calculatedSource (name : Text) : Text :=
  '[' :: (name ++ [']'])

def dayColumn : Column :=
  { name := Convention.calendarColumn
    source := calculatedSource Convention.calendarColumn
    dataType := .dateTime
    format := some "Short Date"
    isHidden := false
    isKey := true }

def CalendarColumn.column (column : CalendarColumn) : Column :=
  { name := column.name
    source := calculatedSource column.name
    dataType := column.dataType
    format := column.format
    isHidden := false
    isKey := false }

/-- What an element of a table is identified by while its file is written. -/
inductive Member where
  | table
  | column (source : Text)
  | measure (name : Text)
deriving DecidableEq, Repr

def calendarLines (calendar : Calendar) (tag : Member -> Text) : List Line :=
  let columns := dayColumn :: calendarColumns.map CalendarColumn.column
  line ("table " ++ Name.written Convention.calendarTable) ::
    Line.nested
      ([ line ("lineageTag: " ++ tag .table), line "dataCategory: Time", .blank ] ++
        columns.flatMap (fun column => column.lines (tag (.column column.source))) ++
        partitionLines .calculated Convention.calendarTable .importMode
          (calendarExpression calendar) ++
        [ line ("annotation " ++ Convention.logicalName ++ " = " ++ Convention.calendarTable),
          .blank,
          line "annotation PBI_ResultType = Table" ])

def calendarText (calendar : Calendar) (tag : Member -> Text) : Text :=
  Line.fileText (calendarLines calendar tag)

end Definition

end TabularModel
