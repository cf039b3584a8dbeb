import TabularModel.Generation.Definitions
import TabularModel.Proofs.Definition.TableFile
import TabularModel.Proofs.Plan.Columns

/-!
# The files of planned tables

The file of a planned table and that of the calendar are read as the block of
their outline, as long as the names that are written in them stand on one line
each. The query of a table may be any text.
-/

set_option autoImplicit false

namespace TabularModel

open Document (IsHeaderLine)

/-! ## Expressions -/

namespace Text

theorem isSingleLine_dropFinal {text : Text} (mark : Char) (single : IsSingleLine text) :
    IsSingleLine (dropFinal mark text) := by
  rw [dropFinal]
  split
  · exact fun member => single ((List.dropLast_sublist text).mem member)
  · exact single

/-- The lines of a text between a first and a last line. -/
theorem lines_enclosed {first last : Text} (middle : Text) (singleFirst : IsSingleLine first)
    (whole : dropFinal '\r' first = first) (singleLast : IsSingleLine last) (nonempty : last ≠ []) :
    lines (first ++ '\n' :: (middle ++ '\n' :: last)) =
      first :: ((fields '\n' middle).map (dropFinal '\r') ++ [last]) := by
  have pieces : fields '\n' (first ++ '\n' :: (middle ++ '\n' :: last)) =
      (first :: fields '\n' middle) ++ [last] := by
    rw [fields_append_separator '\n' first _ singleFirst, fields_append_last '\n' middle last singleLast,
      List.cons_append]
  obtain ⟨c, rest, rfl⟩ := List.exists_cons_of_ne_nil nonempty
  rw [lines, pieces, List.getLast?_concat, List.dropLast_concat, List.map_cons, whole]
  rfl

/-- Four pieces with line feeds between them. -/
theorem joined_four (first second third last : Text) :
    joined "\n" [first, second, third, last] =
      first ++ '\n' :: ((second ++ '\n' :: third) ++ '\n' :: last) := by
  have feed : ("\n" : Text) = ['\n'] := by decide
  simp [joined, List.intercalate_cons_cons, feed]

end Text

namespace Definition

open Catalog (Calendar Connection StorageMode)

theorem isEnclosed_lines {first last : Text} (middle : Text) (isFirst : IsHeaderLine first)
    (whole : Text.dropFinal '\r' first = first) (isLast : IsHeaderLine last) :
    TableOutline.IsEnclosed (first ++ '\n' :: (middle ++ '\n' :: last)) := by
  have nonempty : last ≠ [] := by
    rintro rfl
    exact Bool.noConfusion isLast.visible
  refine ⟨first, _, last, Text.lines_enclosed middle isFirst.single whole isLast.single nonempty,
    isFirst, isLast, ?_⟩
  intro line member
  obtain ⟨field, inside, rfl⟩ := List.mem_map.mp member
  exact Text.isSingleLine_dropFinal '\r' (Text.absent_of_mem_fields '\n' middle field inside)

theorem isEnclosed_queryExpression (connection : Connection) (query : Text) :
    TableOutline.IsEnclosed (queryExpression connection query) := by
  have opening : ("let\n    Source = " : Text) = "let" ++ '\n' :: "    Source = " := by decide
  have ending : (", null, [EnableFolding=true])\nin\n    Query" : Text) =
      ", null, [EnableFolding=true])\nin" ++ '\n' :: "    Query" := by decide
  have shape : queryExpression connection query =
      "let" ++ '\n' :: (("    Source = " ++ (sourceStep connection.type ++
        (",\n    Query = Value.NativeQuery(Source, " ++ (expressionString query ++
          ", null, [EnableFolding=true])\nin")))) ++ '\n' :: "    Query") := by
    unfold queryExpression
    rw [opening, ending]
    simp only [List.append_assoc, List.cons_append]
  rw [shape]
  exact isEnclosed_lines _ ⟨by decide, by decide, by decide⟩ (by decide)
    ⟨by decide, by decide, by decide⟩

theorem isEnclosed_calendarExpression (calendar : Calendar) :
    TableOutline.IsEnclosed (calendarExpression calendar) := by
  obtain ⟨middle, shape⟩ : ∃ middle : Text, calendarExpression calendar =
      "ADDCOLUMNS(" ++ '\n' :: (middle ++ '\n' :: ")") := ⟨_, Text.joined_four _ _ _ _⟩
  rw [shape]
  exact isEnclosed_lines _ ⟨by decide, by decide, by decide⟩ (by decide)
    ⟨by decide, by decide, by decide⟩

theorem isTrimmed_defaultFormat (dataType : DataType) :
    ∀ text ∈ dataType.defaultFormat?, Text.IsTrimmed text ∧ Text.IsSingleLine text := by
  cases dataType <;> decide

end Definition

/-! ## Planned tables -/

namespace Plan.Table

open Definition (TableOutline)

/-- The names that are written in the file of the table stand on one line each. -/
structure HasSingleLines (plan : Table) : Prop where
  name : Text.IsSingleLine plan.name
  logicalName : Text.IsSingleLine plan.logicalName
  columns : ∀ column ∈ plan.columns,
    Text.IsSingleLine column.written.name ∧ Text.IsSingleLine column.written.source

instance (plan : Table) : Decidable plan.HasSingleLines :=
  decidable_of_iff (Text.IsSingleLine plan.name ∧ Text.IsSingleLine plan.logicalName ∧
      ∀ column ∈ plan.columns,
        Text.IsSingleLine column.written.name ∧ Text.IsSingleLine column.written.source)
    ⟨fun all => ⟨all.1, all.2.1, all.2.2⟩, fun all => ⟨all.name, all.logicalName, all.columns⟩⟩

theorem isTrimmed_format_of_offered {context : Context} {table : Catalog.Table}
    {column : Column} (offered : Offered context table column) :
    ∀ text ∈ column.written.format, Text.IsTrimmed text ∧ Text.IsSingleLine text := by
  have default := Definition.isTrimmed_defaultFormat
  cases offered with
  | ofKey => exact default .string
  | ofLookup parent _ column hidden => exact default .string
  | ofAttribute attr =>
      rw [attributeColumn]
      split
      · exact default _
      · split
        · split
          · intro text member
            rw [← Option.some.inj member]
            decide
          · exact default _
        · exact default _

/-- The format of a planned column is that of an offered one. -/
theorem isTrimmed_format_of_mem_build {context : Context} {table : Catalog.Table} {column : Column}
    (member : column ∈ (build context table).columns) :
    ∀ text ∈ column.written.format, Text.IsTrimmed text ∧ Text.IsSingleLine text := by
  obtain ⟨own, offered, renamed⟩ := (isPlanned_build context table).offered column member
  have format := isTrimmed_format_of_offered offered
  cases renamed with
  | same => exact format
  | sourced => exact format

theorem isReadable_outline {context : Context} {table : Catalog.Table}
    (single : (build context table).HasSingleLines) (connection : Catalog.Connection)
    (mode : Catalog.StorageMode) : ((build context table).outline connection mode).IsReadable := by
  refine ⟨single.name, single.logicalName, ?_, Definition.isEnclosed_queryExpression _ _⟩
  intro column member
  obtain ⟨planned, inside, rfl⟩ := List.mem_map.mp member
  exact ⟨(single.columns planned inside).1, (single.columns planned inside).2,
    fun text found => (isTrimmed_format_of_mem_build inside text found).2⟩

/-- The file of a plan holds the lines of its outline. -/
theorem text_eq (plan : Table) (connection : Catalog.Connection) (mode : Catalog.StorageMode)
    (tag : Definition.Member -> Text) :
    plan.text connection mode tag =
      Block.textOfLines ((plan.outline connection mode).fileLines tag) := by
  rw [text, Line.fileText_eq, map_render_lines plan connection mode tag]

end Plan.Table

/-! ## The calendar -/

namespace Definition

theorem hasSingleLines_calendarColumns :
    ∀ column ∈ dayColumn :: calendarColumns.map CalendarColumn.column, column.HasSingleLines := by
  have each : ∀ column ∈ dayColumn :: calendarColumns.map CalendarColumn.column,
      Text.IsSingleLine column.name ∧ Text.IsSingleLine column.source ∧
        ∀ text ∈ column.format, Text.IsSingleLine text := by decide
  intro column member
  obtain ⟨name, source, format⟩ := each column member
  exact ⟨name, source, format⟩

theorem isReadable_calendarOutline (calendar : Catalog.Calendar) :
    (calendarOutline calendar).IsReadable := by
  have date : Text.IsSingleLine Convention.calendarTable := by decide
  exact ⟨date, date, hasSingleLines_calendarColumns, isEnclosed_calendarExpression calendar⟩

theorem calendarText_eq (calendar : Catalog.Calendar) (tag : Member -> Text) :
    calendarText calendar tag = Block.textOfLines ((calendarOutline calendar).fileLines tag) := by
  rw [calendarText, Line.fileText_eq, map_render_calendarLines]

end Definition

end TabularModel
