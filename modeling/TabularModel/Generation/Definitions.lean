import TabularModel.Definition.ModelFile
import TabularModel.Generation.Basic

/-!
# Generation of a definition set

A selection becomes one file for each table, one for the calendar if there is
one, one for the relationships if there are any, and the files of the
parameters, the model and its database. No two tables may have one logical name
or one path, up to letter case.
-/

set_option autoImplicit false

namespace TabularModel

namespace Generation

open Catalog (Calendar Selection)

/-- The first table whose logical name or path occurred before. -/
def firstDuplicate? (names paths : List Text) : List Catalog.Table -> Option Catalog.Table
  | [] => none
  | table :: tables =>
      let name := Text.lower table.logicalName
      let path := Text.lower (Path.table table.modelName)
      if names.contains name || paths.contains path then some table
      else firstDuplicate? (name :: names) (path :: paths) tables

/-- The paths that are taken before any table is written. -/
def reservedPaths (calendar : Option Calendar) : List Text :=
  if calendar.isSome then [Text.lower (Path.table Convention.calendarTable)] else []

/-- The offset of local time in filters. -/
def offsetHours (options : Options) (calendar : Option Calendar) : Float :=
  (options.offsetHours <|> calendar.map (·.offsetHours)).getD 0

def context (options : Options) (selection : Selection) : Plan.Context where
  corrections := options.corrections
  settings :=
    { time := .ofHours (offsetHours options selection.calendar)
      environment :=
        { replicaSource := !options.connection.type.knowsUser
          importMode := options.mode == .importMode } }
  calendar := selection.calendar
  edges := selection.edges

def plans (options : Options) (selection : Selection) : List Plan.Table :=
  selection.tables.map (Plan.Table.build (context options selection))

/-- The column from which a relationship leads to the calendar. -/
def calendarEnd (plans : List Plan.Table) (calendar : Calendar) : Except Fault Text :=
  match Plan.tableNamed? plans calendar.table with
  | none => .error (.calendarTableNotSelected calendar.table)
  | some plan =>
      match plan.columnFrom? calendar.field with
      | none => .error (.calendarFieldNotSelected calendar.table calendar.field)
      | some column => .ok (Name.columnReference plan.name column)

def calendarRelationships (plans : List Plan.Table) (calendar : Option Calendar) :
    Except Fault (List Definition.Relationship) :=
  match calendar with
  | none => .ok []
  | some calendar =>
      (calendarEnd plans calendar).map fun column => [Plan.calendarRelationship column]

/-- Refuses what no plan can mend. -/
def check (options : Options) (selection : Selection) : Except Fault Unit :=
  match selection.calendar.bind Calendar.fault? with
  | some fault => .error (.calendar fault)
  | none =>
      match firstDuplicate? [] (reservedPaths selection.calendar) selection.tables with
      | some table => .error (.duplicateTable table.modelName)
      | none =>
          let hours := offsetHours options selection.calendar
          if Catalog.isValidOffset hours then .ok () else .error (.offset hours)

def filterFindings (plan : Plan.Table) : List Finding :=
  match plan.filter with
  | some filter => if filter.isFullySupported then [] else [.partialFilter filter.unsupported]
  | none => []

def queryFindings (options : Options) (plan : Plan.Table) : List Finding :=
  if options.checksQueries then
    ((Sql.fault? plan.query.render).map Finding.invalidQuery).toList
  else []

def tableDiagnostics (options : Options) (plan : Plan.Table) : List Diagnostic :=
  (filterFindings plan ++ plan.skipped.map Finding.skippedColumn ++ queryFindings options plan).map
    fun finding => ⟨plan.name, finding⟩

def skippedDiagnostic? :
    Except Plan.SkippedEdge Definition.Relationship -> Option Diagnostic
  | .ok _ => none
  | .error skipped => some ⟨skipped.table, .skippedRelationship skipped.edge skipped.problem⟩

def tableFile (options : Options) (supply : Supply) (plan : Plan.Table) : Text × Text :=
  (Path.table plan.name,
    plan.text options.connection options.mode fun member =>
      supply (.member plan.logicalName member))

def calendarFile (supply : Supply) (calendar : Calendar) : Text × Text :=
  (Path.table Convention.calendarTable,
    Definition.calendarText calendar fun member => supply (.calendar member))

def relationshipLines (supply : Supply) (relationships : List Definition.Relationship) :
    List Line :=
  (relationships.mapIdx fun position relationship =>
    relationship.lines (supply (.relationship position))).flatten

def relationshipFile (supply : Supply) (relationships : List Definition.Relationship) :
    List (Text × Text) :=
  if relationships.isEmpty then []
  else [(Path.relationships, Line.fileText (relationshipLines supply relationships))]

/-- The tables of the model, in the order of the model file. -/
def tableNames (plans : List Plan.Table) (calendar : Option Calendar) : List Text :=
  plans.map (·.name) ++ (calendar.map fun _ => Convention.calendarTable).toList

def queryOrder (options : Options) (plans : List Plan.Table) : List Text :=
  options.connection.parameters.map (·.1) ++ plans.map (·.name)

/-- All files of the model. -/
def files (options : Options) (supply : Supply) (selection : Selection)
    (relationships : List Definition.Relationship) : List (Text × Text) :=
  let planned := plans options selection
  planned.map (tableFile options supply) ++
    (selection.calendar.map (calendarFile supply)).toList ++
    relationshipFile supply relationships ++
    [ (Path.expressions,
        Definition.parametersText options.connection fun name => supply (.parameter name)),
      (Path.model,
        Definition.modelText options.culture (queryOrder options planned)
          (tableNames planned selection.calendar)),
      (Path.database, Definition.databaseText selection.modelName) ]

def filters (plans : List Plan.Table) : SortedMap Filter.RowFilter :=
  .ofList <| plans.filterMap fun plan => plan.filter.map fun filter => (plan.name, filter)

/-- The definition set of a selection, with what was left out of it. -/
def generate (options : Options) (supply : Supply) (selection : Selection) :
    Except Fault Output := do
  check options selection
  let planned := plans options selection
  let toCalendar <- calendarRelationships planned selection.calendar
  let outcomes := Plan.ofEdges planned selection.edges
  let relationships := outcomes.filterMap Except.toOption ++ toCalendar
  return {
    definitions := .ofList (files options supply selection relationships)
    diagnostics :=
      planned.flatMap (tableDiagnostics options) ++ outcomes.filterMap skippedDiagnostic?
    filters := filters planned }

end Generation

end TabularModel
