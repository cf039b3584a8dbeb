import TabularModel.Catalog.Calendar
import TabularModel.Definition.Calendar
import TabularModel.Filter.RowFilter
import TabularModel.Lookup.Grouping
import TabularModel.Lookup.Resolution
import TabularModel.Plan.Correction
import TabularModel.Sql.Select

/-!
# The plan of a table

A plan settles what is written about a table before any text is written: its
columns with their expressions in the row source, its filter, and the key
columns of its lookups. The first column is the key of the table. A column of
the row source is planned once; a name that is taken gets the source behind it
in parentheses.
-/

set_option autoImplicit false

namespace TabularModel

namespace Plan

open Catalog (Attribute Calendar Edge LookupColumn)
open Definition (DataType Member)
open Sql (Expression)

/-- The name of the table in its own query. -/
def baseAlias : Text := "Base"

/-- How the row source gives a column: as it is, or as a day in local time. -/
inductive Projection where
  | source
  | localDay (day : Expression)
deriving DecidableEq, Repr

structure Column where
  written : Definition.Column
  projection : Projection
deriving DecidableEq, Repr

/-- What the plan of a table depends on besides the table. -/
structure Context where
  corrections : Corrections
  settings : Filter.Settings
  calendar : Option Calendar
  edges : List Edge

structure Table where
  name : Text
  logicalName : Text
  isFact : Bool
  columns : List Column
  filter : Option Filter.RowFilter
  /-- The names of the key columns of lookups, under lower-case logical names. -/
  idColumns : SortedMap Text
  /-- The lookups whose key column is left out, in lower case. -/
  excludedIds : List Text
  /-- The sources of columns that were planned already. -/
  skipped : List Text
deriving Repr

namespace Table

def hasSource (plan : Table) (source : Text) : Bool :=
  plan.columns.any fun column => Text.sameIgnoringCase column.written.source source

def hasName (plan : Table) (name : Text) : Bool :=
  plan.columns.any fun column => Text.sameIgnoringCase column.written.name name

/-- The name under which a column is written: its own one unless it is taken. -/
def freeName (plan : Table) (column : Definition.Column) : Text :=
  if plan.hasName column.name then column.name ++ " (" ++ column.source ++ ")" else column.name

/-- Adds a column, or notes that its source is taken. -/
def push (plan : Table) (column : Definition.Column) (projection : Projection) : Table :=
  if plan.hasSource column.source then { plan with skipped := plan.skipped ++ [column.source] }
  else
    let written := { column with name := plan.freeName column }
    { plan with columns := plan.columns ++ [⟨written, projection⟩] }

def keyColumn (primaryKey : Text) : Definition.Column :=
  { Definition.Column.plain primaryKey primaryKey .string with isHidden := true, isKey := true }

def lookupColumnName (display lookup : Text) : LookupColumn -> Text
  | .id => lookup
  | .name => display
  | .kind => display ++ " Type"
  | .phonetic => display ++ " Yomi"

def pushLookupColumn (context : Context) (display : Text) (parent : Attribute)
    (visibility : LookupColumn -> Lookup.Visibility) (plan : Table) (column : LookupColumn) :
    Table :=
  let lookup := parent.logicalName
  let source := context.corrections.apply (column.source lookup)
  let written :=
    { Definition.Column.plain (lookupColumnName display lookup column) source .string with
      isHidden := (visibility column).hidden }
  let pushed := plan.push written .source
  if column == .id && !plan.hasSource source then
    { pushed with idColumns := pushed.idColumns.insert (Text.lower lookup) (plan.freeName written) }
  else pushed

def pushLookup (context : Context) (table : Catalog.Table) (parent : Attribute) (plan : Table) :
    Table :=
  let visibility := Lookup.resolve table.logicalName parent
    (table.lookups.get? parent.logicalName) context.edges
  let noted :=
    if (visibility .id).included then plan
    else { plan with excludedIds := plan.excludedIds ++ [Text.lower parent.logicalName] }
  (Lookup.shown visibility).foldl
    (pushLookupColumn context (table.nameOf parent) parent visibility) noted

/-- The day of a stored moment in local time. -/
def localDay (offsetHours : Float) (logicalName : Text) : Expression :=
  .asDate ((Filter.LocalTime.ofHours offsetHours).localise (.column baseAlias logicalName))

/-- Whether the calendar is joined to the attribute. -/
def isCalendarField (calendar : Calendar) (table : Catalog.Table) (attr : Attribute) : Bool :=
  Text.sameIgnoringCase calendar.table table.logicalName &&
    Text.sameIgnoringCase calendar.field attr.logicalName

/-- The column of an attribute that is no lookup. Coded values come from their
label column, and the field of the calendar as a day. -/
def attributeColumn (context : Context) (table : Catalog.Table) (attr : Attribute) : Column :=
  let name := table.nameOf attr
  let dataType := DataType.ofAttribute attr.type
  let asStored : Column :=
    ⟨.plain name (context.corrections.apply attr.logicalName) dataType, .source⟩
  if attr.type.isChoice then
    ⟨.plain name (context.corrections.apply (attr.logicalName ++ "name")) dataType, .source⟩
  else
    match context.calendar with
    | some calendar =>
        if isCalendarField calendar table attr then
          ⟨{ Definition.Column.plain name attr.logicalName .dateTime with
              format := some "Short Date" },
            .localDay (localDay calendar.offsetHours attr.logicalName)⟩
        else asStored
    | none => asStored

def pushGroup (context : Context) (table : Catalog.Table) (plan : Table) (group : Lookup.Group) :
    Table :=
  if Text.sameIgnoringCase group.leader.logicalName table.primaryKey then plan
  else
    match group with
    | .standalone attr =>
        let column := attributeColumn context table attr
        plan.push column.written column.projection
    | .lookup parent _ => plan.pushLookup context table parent

/-- The group that a name leads comes first, the others keep their order. -/
def primaryFirst (primary : Option Text) (groups : List Lookup.Group) : List Lookup.Group :=
  match primary with
  | none => groups
  | some name =>
      let isPrimary := fun (group : Lookup.Group) =>
        Text.sameIgnoringCase group.leader.logicalName name
      match groups.find? isPrimary with
      | some group => group :: groups.eraseP isPrimary
      | none => groups

def start (table : Catalog.Table) : Table :=
  { name := table.modelName
    logicalName := table.logicalName
    isFact := table.isFact
    columns := []
    filter := none
    idColumns := .empty
    excludedIds := []
    skipped := [] }

def build (context : Context) (table : Catalog.Table) : Table :=
  let keyed := (start table).push (keyColumn table.primaryKey) .source
  let groups := primaryFirst table.primaryName (Lookup.groups table.attributes)
  let planned := groups.foldl (pushGroup context table) keyed
  { planned with
    filter := table.filterText?.map (Filter.RowFilter.ofDocument context.settings baseAlias) }

/-- The name of the column that comes from the given source. -/
def columnFrom? (plan : Table) (source : Text) : Option Text :=
  (plan.columns.find? fun column => Text.sameIgnoringCase column.written.source source).map
    (·.written.name)

def keyColumn? (plan : Table) : Option Text :=
  (plan.columns.find? (·.written.isKey)).map (·.written.name)

def select (query : Sql.Select) (column : Column) : Sql.Select :=
  match column.projection with
  | .source => query.addColumn column.written.source
  | .localDay day => query.addExpression day column.written.source

/-- The query for the rows of the table. -/
def query (plan : Table) : Sql.Select :=
  let selected := plan.columns.foldl select (.start plan.logicalName baseAlias)
  match plan.filter with
  | some filter => selected.withFilter filter.clause
  | none => selected

def measureLines (plan : Table) (tag : Member -> Text) : List Line :=
  let measure := Convention.countMeasure plan.name
  if plan.isFact then
    line ("measure " ++ Name.written measure ++ " = COUNTROWS(" ++ Name.quoted plan.name ++ ")") ::
      Line.nested
        [ line "formatString: #,0",
          line ("lineageTag: " ++ tag (.measure measure)),
          .blank ]
  else []

def lines (plan : Table) (connection : Catalog.Connection) (mode : Catalog.StorageMode)
    (tag : Member -> Text) : List Line :=
  line ("table " ++ Name.written plan.name) ::
    Line.nested
      ([line ("lineageTag: " ++ tag .table), .blank] ++
        plan.measureLines tag ++
        plan.columns.flatMap (fun column =>
          column.written.lines (tag (.column column.written.source))) ++
        Definition.partitionLines .query plan.name mode
          (Definition.queryExpression connection plan.query.render) ++
        [ line ("annotation " ++ Convention.logicalName ++ " = " ++ plan.logicalName),
          .blank,
          line "annotation PBI_ResultType = Table" ])

def text (plan : Table) (connection : Catalog.Connection) (mode : Catalog.StorageMode)
    (tag : Member -> Text) : Text :=
  Line.fileText (plan.lines connection mode tag)

end Table

end Plan

end TabularModel
