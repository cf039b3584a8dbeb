import TabularModel.Catalog.Selection
import TabularModel.Definition.Path
import TabularModel.Plan.Relationship
import TabularModel.Sql.Validation

/-!
# What goes into a generation and what comes out

A selection that cannot become a model is refused with a fault. Everything that
can be written without is written without it, and reported in a diagnostic.
Written elements are told apart by identifiers, which come from outside: a
supply gives one for each slot of the written files.
-/

set_option autoImplicit false

namespace TabularModel

namespace Generation

open Catalog (CalendarFault Connection StorageMode)
open Definition (Member)

structure Options where
  connection : Connection
  mode : StorageMode
  culture : Text
  corrections : Corrections
  /-- Whether every query is read back and reported if that fails. -/
  checksQueries : Bool
  /-- The offset of local time in filters, instead of that of the calendar. -/
  offsetHours : Option Float
deriving Repr

def Options.standard : Options where
  connection := ⟨.dataverse, [], [], []⟩
  mode := .directQuery
  culture := "en-US"
  corrections := .standard
  checksQueries := true
  offsetHours := none

inductive Fault where
  | duplicateTable (name : Text)
  | factTableNotSelected (logicalName : Text)
  | calendarTableNotSelected (logicalName : Text)
  | calendarFieldNotSelected (table field : Text)
  | calendar (fault : CalendarFault)
  | offset (hours : Float)
deriving Repr

namespace Fault

def message : Fault -> Text
  | .duplicateTable name => "duplicate table '" ++ name ++ "' in selection"
  | .factTableNotSelected logicalName =>
      "fact table '" ++ logicalName ++ "' is not among the selected tables"
  | .calendarTableNotSelected logicalName =>
      "date table '" ++ logicalName ++ "' is not among the selected tables"
  | .calendarFieldNotSelected table field =>
      "date field '" ++ field ++ "' is not selected on table '" ++ table ++ "'"
  | .calendar fault => "invalid date configuration: " ++ fault.message
  | .offset hours => "UTC offset " ++ Decimal.double hours ++ " is outside -14..=14 hours"

end Fault

inductive Finding where
  | partialFilter (unsupported : List Text)
  | skippedRelationship (edge : Catalog.Edge) (problem : Plan.EdgeProblem)
  | skippedColumn (source : Text)
  | invalidQuery (fault : Sql.Fault)
deriving Repr

namespace Finding

def message : Finding -> Text
  | .partialFilter unsupported => Text.joined "; " unsupported
  | .skippedRelationship edge problem => problem.message edge
  | .skippedColumn source => "row-source column '" ++ source ++ "' is already projected"
  | .invalidQuery fault => fault.message

end Finding

/-- A finding about a table, which is given by its name in the model. -/
structure Diagnostic where
  table : Text
  finding : Finding
deriving Repr

/-- An element that needs an identifier. Tables are given by their logical
names, relationships by their positions. -/
inductive Slot where
  | member (table : Text) (member : Member)
  | calendar (member : Member)
  | parameter (name : Text)
  | relationship (position : Nat)
deriving DecidableEq, Repr

/-- A text by which members of a table are told apart. -/
def memberKey : Member -> Text
  | .table => "table"
  | .column source => "col:" ++ source
  | .measure name => "measure:" ++ name

/-- A text by which slots are told apart. -/
def Slot.key : Slot -> Text
  | .member table part =>
      "member:" ++ Decimal.natural table.length ++ ":" ++ table ++ memberKey part
  | .calendar part => "calendar:" ++ memberKey part
  | .parameter name => "parameter:" ++ name
  | .relationship position => "relationship:" ++ Decimal.natural position

abbrev Supply := Slot -> Text

structure Output where
  definitions : DefinitionSet
  diagnostics : List Diagnostic
  /-- The filters of the tables that have one, by their names in the model. -/
  filters : SortedMap Filter.RowFilter
deriving Repr

end Generation

end TabularModel
