import TabularModel.Plan.Table
import TabularModel.Proofs.Definition.Lines

/-!
# The blocks of a table file

A written table file is one block, whose shape is settled by an outline: the
table, its columns and its partition. What stands in that shape besides, the
state of the table, is what a merge may change: lineage tags, the formatting and
the annotations of columns, and the measures that people have added. The file of
a planned table and that of the calendar are read as the block of an outline in
its first state.
-/

set_option autoImplicit false

namespace TabularModel

open Block (node)
open Document (Entry group nest IsBlankLine IsHeaderLine)

namespace Definition

/-! ## Columns -/

/-- What a merge may change about the block of a column. -/
structure ColumnState where
  tag : Text
  format : Option Text
  summary : Text
  annotations : List Block

namespace Column

def formatNodes (format : Option Text) : List Block :=
  match format with
  | some format => [node 2 (propertyContent "formatString" format) [] []]
  | none => []

def flagNodes (flag : Bool) (name : Text) : List Block :=
  if flag then [node 2 name [] []] else []

/-- The members of a column in front of its tag. -/
def frontNodes (column : Column) (format : Option Text) : List Block :=
  node 2 (propertyContent "dataType" column.dataType.name) [] [] ::
    (formatNodes format ++ flagNodes column.isHidden "isHidden" ++ flagNodes column.isKey "isKey")

/-- The members of a column in front of its annotations. -/
def memberNodes (column : Column) (tag : Text) (format : Option Text) (summary : Text) :
    List Block :=
  column.frontNodes format ++
    [ node 2 (propertyContent "lineageTag" tag) [] [],
      node 2 (propertyContent "summarizeBy" summary) [] [],
      node 2 (propertyContent "sourceColumn" column.source) [[]] [] ]

def block (column : Column) (state : ColumnState) : Block :=
  node 1 ("column" ++ ' ' :: Name.written column.name) []
    (column.memberNodes state.tag state.format state.summary ++ state.annotations)

/-- The annotation that every written column carries. -/
def summarizationNode : Block :=
  node 2 (annotationContent "SummarizationSetBy" "Automatic") [[]] []

def freshState (column : Column) (tag : Text) : ColumnState :=
  ⟨tag, column.format, column.summary, [summarizationNode]⟩

theorem map_render_formatLine (format : Option Text) :
    (formatLine format).map (Line.render ∘ Line.deeper 1 ∘ Line.deeper 1) =
      Block.linesOfEach (formatNodes format) := by
  cases format <;>
    simp [formatLine, formatNodes, Block.linesOfEach, Block.lines_node, propertyContent, line,
      Line.deeper, Line.render]

theorem map_render_flagLine (flag : Bool) (name : Text) :
    (flagLine flag name).map (Line.render ∘ Line.deeper 1 ∘ Line.deeper 1) =
      Block.linesOfEach (flagNodes flag name) := by
  cases flag <;>
    simp [flagLine, flagNodes, Block.linesOfEach, Block.lines_node, line, Line.deeper, Line.render]

/-- The lines of a column inside a table are those of its block. -/
theorem map_render_lines (column : Column) (tag : Text) :
    (Line.nested (column.lines tag)).map Line.render =
      (column.block (column.freshState tag)).lines := by
  rw [block, Block.lines_node, freshState, memberNodes, frontNodes]
  simp only [List.cons_append, Block.linesOfEach, Block.linesOfEach_append, ← map_render_formatLine, ← map_render_flagLine]
  simp [lines, Line.nested, Block.linesOfEach, Block.lines_node, summarizationNode,
    propertyContent, annotationContent_eq, line, Line.deeper, Line.render]

theorem map_render_flatMap_lines (columns : List Column) (tag : Column -> Text) :
    (Line.nested (columns.flatMap fun column => column.lines (tag column))).map Line.render =
      Block.linesOfEach (columns.map fun column => column.block (column.freshState (tag column))) := by
  induction columns with
  | nil => rfl
  | cons column columns ih =>
      rw [List.flatMap_cons, Line.nested, List.map_append, List.map_append, ← Line.nested,
        ← Line.nested, map_render_lines, ih, List.map_cons, Block.linesOfEach]

end Column

/-! ## Tables -/

/-- What a written table file is made of. Facts have a measure that counts their
rows, and the calendar is marked as a table of dates. -/
structure TableOutline where
  name : Text
  logicalName : Text
  isCalendar : Bool
  isCounted : Bool
  columns : List Column
  kind : PartitionKind
  mode : Catalog.StorageMode
  expression : Text

/-- What a merge may change about the block of a table. -/
structure TableState where
  tag : Text
  countTag : Text
  columns : List Block
  measures : List Block

namespace TableOutline

variable (outline : TableOutline)

def headNodes (tag : Text) : List Block :=
  if outline.isCalendar then
    [ node 1 (propertyContent "lineageTag" tag) [] [],
      node 1 (propertyContent "dataCategory" "Time") [[]] [] ]
  else [node 1 (propertyContent "lineageTag" tag) [[]] []]

/-- The header of the measure that counts the rows, behind the keyword. -/
def countHeader : Text :=
  Name.written (Convention.countMeasure outline.name) ++
    (" = COUNTROWS(" ++ (Name.quoted outline.name ++ ")"))

def countNodes (tag : Text) : List Block :=
  if outline.isCounted then
    [ node 1 ("measure" ++ ' ' :: outline.countHeader) []
        [ node 2 (propertyContent "formatString" "#,0") [] [],
          node 2 (propertyContent "lineageTag" tag) [[]] [] ] ]
  else []

/-- The lines of the expression in their place, with the blank line that ends
the partition. -/
def sourceLines : List Text :=
  (Text.lines outline.expression).map (Line.tabs 4 ++ ·) ++ [[]]

def sourceNodes : List Block :=
  nest (group [] outline.sourceLines).entries

def partitionHeader : Text :=
  Name.written outline.name ++ (" = " ++ outline.kind.name)

def partitionNode : Block :=
  node 1 ("partition" ++ ' ' :: outline.partitionHeader) []
    [ node 2 (propertyContent "mode" outline.mode.name) [] [],
      node 2 "source =" [] outline.sourceNodes ]

def closingNodes : List Block :=
  [ node 1 (annotationContent Convention.logicalName outline.logicalName) [[]] [],
    node 1 (annotationContent "PBI_ResultType" "Table") [] [] ]

def members (state : TableState) : List Block :=
  outline.headNodes state.tag ++ outline.countNodes state.countTag ++ state.columns ++
    state.measures ++ outline.partitionNode :: outline.closingNodes

def block (state : TableState) : Block :=
  node 0 ("table" ++ ' ' :: Name.written outline.name) [] (outline.members state)

/-- The state of a written file. -/
def freshState (tag : Member -> Text) : TableState where
  tag := tag .table
  countTag := tag (.measure (Convention.countMeasure outline.name))
  columns := outline.columns.map fun column =>
    column.block (column.freshState (tag (.column column.source)))
  measures := []

/-- The lines of a written file up to the expression of its partition. -/
def openingLines (tag : Member -> Text) : List Text :=
  ("table" ++ ' ' :: Name.written outline.name) ::
      Block.linesOfEach (outline.headNodes (outline.freshState tag).tag ++
        outline.countNodes (outline.freshState tag).countTag ++
        (outline.freshState tag).columns) ++
    [ Line.tabs 1 ++ ("partition" ++ ' ' :: outline.partitionHeader),
      Line.tabs 2 ++ propertyContent "mode" outline.mode.name,
      Line.tabs 2 ++ "source =" ]

def fileLines (tag : Member -> Text) : List Text :=
  outline.openingLines tag ++ outline.sourceLines ++ Block.linesOfEach outline.closingNodes

/-- A partition inside a table, with its expression. -/
theorem map_render_partitionLines :
    (Line.nested (partitionLines outline.kind outline.name outline.mode outline.expression)).map
        Line.render =
      [ Line.tabs 1 ++ ("partition" ++ ' ' :: outline.partitionHeader),
        Line.tabs 2 ++ propertyContent "mode" outline.mode.name,
        Line.tabs 2 ++ "source =" ] ++ outline.sourceLines := by
  simp [partitionLines, Line.nested, Line.ofExpression, sourceLines, partitionHeader,
    propertyContent, line, Line.deeper, Line.render]

theorem lines_block (tag : Member -> Text) :
    (outline.block (outline.freshState tag)).lines =
      outline.openingLines tag ++ Block.linesOfEach outline.sourceNodes ++
        Block.linesOfEach outline.closingNodes := by
  simp [block, members, openingLines, partitionNode, Block.lines_node, Block.linesOfEach_append,
    Block.linesOfEach, freshState, Line.tabs_zero]

end TableOutline

end Definition

namespace Plan.Table

open Definition (TableOutline)

/-- The outline of a planned table. -/
def outline (plan : Table) (connection : Catalog.Connection) (mode : Catalog.StorageMode) :
    TableOutline where
  name := plan.name
  logicalName := plan.logicalName
  isCalendar := false
  isCounted := plan.isFact
  columns := plan.columns.map (·.written)
  kind := .query
  mode := mode
  expression := Definition.queryExpression connection plan.query.render

theorem map_render_measureLines (plan : Table) (connection : Catalog.Connection)
    (mode : Catalog.StorageMode) (tag : Definition.Member -> Text) :
    (Line.nested (plan.measureLines tag)).map Line.render =
      Block.linesOfEach ((plan.outline connection mode).countNodes
        ((plan.outline connection mode).freshState tag).countTag) := by
  rw [measureLines, TableOutline.countNodes]
  cases fact : plan.isFact with
  | false => simp [outline, fact, Line.nested, Block.linesOfEach]
  | true =>
      simp [outline, fact, Line.nested, Block.linesOfEach, Block.lines_node, TableOutline.freshState,
        TableOutline.countHeader, propertyContent, line, Line.deeper, Line.render]

/-- A planned table is written as the file of its outline. -/
theorem map_render_lines (plan : Table) (connection : Catalog.Connection)
    (mode : Catalog.StorageMode) (tag : Definition.Member -> Text) :
    (plan.lines connection mode tag).map Line.render =
      (plan.outline connection mode).fileLines tag := by
  have columns := Definition.Column.map_render_flatMap_lines (plan.columns.map (·.written))
    fun column => tag (.column column.source)
  have measures := plan.map_render_measureLines connection mode tag
  have partition := (plan.outline connection mode).map_render_partitionLines
  rw [List.flatMap_map] at columns
  simp only [Line.nested] at columns measures partition
  rw [lines, Line.nested]
  simp only [List.map_append, List.map_cons]
  rw [measures, columns]
  simp only [outline] at partition ⊢
  rw [partition]
  simp [TableOutline.fileLines, TableOutline.openingLines, TableOutline.headNodes,
    TableOutline.freshState, TableOutline.closingNodes, Block.linesOfEach_append,
    Block.linesOfEach, Block.lines_node, propertyContent, annotationContent_eq, line, Line.deeper,
    Line.render, Line.tabs_zero]

end Plan.Table

namespace Definition

/-- The outline of the calendar. -/
def calendarOutline (calendar : Catalog.Calendar) : TableOutline where
  name := Convention.calendarTable
  logicalName := Convention.calendarTable
  isCalendar := true
  isCounted := false
  columns := dayColumn :: calendarColumns.map CalendarColumn.column
  kind := .calculated
  mode := .importMode
  expression := calendarExpression calendar

/-- The calendar is written as the file of its outline. -/
theorem map_render_calendarLines (calendar : Catalog.Calendar) (tag : Member -> Text) :
    (calendarLines calendar tag).map Line.render = (calendarOutline calendar).fileLines tag := by
  have columns := Column.map_render_flatMap_lines
    (dayColumn :: calendarColumns.map CalendarColumn.column) fun column => tag (.column column.source)
  have partition := (calendarOutline calendar).map_render_partitionLines
  simp only [Line.nested] at columns partition
  rw [calendarLines, Line.nested]
  simp only [List.map_append, List.map_cons]
  simp only [List.map_cons] at columns
  rw [columns]
  simp only [calendarOutline] at partition ⊢
  rw [partition]
  simp [TableOutline.fileLines, TableOutline.openingLines, TableOutline.headNodes,
    TableOutline.countNodes, TableOutline.freshState, TableOutline.closingNodes,
    Block.linesOfEach, Block.lines_node, propertyContent, annotationContent_eq, line, Line.deeper,
    Line.render, Line.tabs_zero]

end Definition

end TabularModel
