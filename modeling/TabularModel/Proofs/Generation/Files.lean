import TabularModel.Generation.Definitions
import TabularModel.Proofs.Plan.TableFile
import TabularModel.Proofs.Prior.Recovery
import TabularModel.Proofs.SortedMap

/-!
# The files of a generated set

A generated set holds the files of its plans, of the calendar and of the
relationships, and three more. A file in the tables folder is that of a readable
outline.
-/

set_option autoImplicit false

namespace TabularModel

namespace Generation

open Catalog (Selection)
open Definition (Member TableOutline)
open Prior (IsTag)

theorem eq_ok_of_toOption {ε α : Type} {result : Except ε α} {value : α}
    (found : result.toOption = some value) : result = .ok value := by
  cases result with
  | error fault => cases found
  | ok other => exact congrArg _ (Option.some.inj found)

/-- The relationships that a generation writes. -/
structure IsGenerated (options : Options) (supply : Supply) (selection : Selection)
    (relationships : List Definition.Relationship) (output : Output) : Prop where
  checked : check options selection = .ok ()
  calendar : ∃ toCalendar,
    calendarRelationships (plans options selection) selection.calendar = .ok toCalendar ∧
      relationships = (Plan.ofEdges (plans options selection) selection.edges).filterMap
        Except.toOption ++ toCalendar
  definitions : output.definitions = .ofList (files options supply selection relationships)

theorem exists_isGenerated {options : Options} {supply : Supply} {selection : Selection}
    {output : Output} (generated : generate options supply selection = .ok output) :
    ∃ relationships, IsGenerated options supply selection relationships output := by
  rw [generate] at generated
  cases checked : check options selection with
  | error fault =>
      rw [checked] at generated
      cases generated
  | ok done =>
      rw [checked] at generated
      cases toCalendar : calendarRelationships (plans options selection) selection.calendar with
      | error fault =>
          simp only [toCalendar] at generated
          cases generated
      | ok relationships =>
          simp only [toCalendar] at generated
          cases generated
          exact ⟨_, checked, ⟨relationships, toCalendar, rfl⟩, rfl⟩

variable {options : Options} {supply : Supply} {selection : Selection}

/-! ## Table files -/

/-- A table that is written, with the slots of its members. -/
structure WrittenTable where
  path : Text
  outline : TableOutline
  slot : Member -> Slot

/-- The file of a written table. -/
def WrittenTable.file (supply : Supply) (table : WrittenTable) : Text × Text :=
  (table.path, Block.textOfLines (table.outline.fileLines fun member => supply (table.slot member)))

/-- The table of a plan. -/
def plannedTable (options : Options) (plan : Plan.Table) : WrittenTable :=
  ⟨Path.table plan.name, plan.outline options.connection options.mode, .member plan.logicalName⟩

/-- The calendar as a table. -/
def calendarTable (calendar : Catalog.Calendar) : WrittenTable :=
  ⟨Path.table Convention.calendarTable, Definition.calendarOutline calendar, .calendar⟩

def writtenTables (options : Options) (selection : Selection) : List WrittenTable :=
  (plans options selection).map (plannedTable options) ++
    (selection.calendar.map calendarTable).toList

/-- The files that are written once for a model. -/
def modelFiles (options : Options) (supply : Supply) (selection : Selection) : List (Text × Text) :=
  [ (Path.expressions,
      Definition.parametersText options.connection fun name => supply (.parameter name)),
    (Path.model,
      Definition.modelText options.culture (queryOrder options (plans options selection))
        (tableNames (plans options selection) selection.calendar)),
    (Path.database, Definition.databaseText selection.modelName) ]

/-- A generated set holds the files of its tables, of its relationships and of
the model. -/
theorem files_eq (options : Options) (supply : Supply) (selection : Selection)
    (relationships : List Definition.Relationship) :
    files options supply selection relationships =
      (writtenTables options selection).map (WrittenTable.file supply) ++
        (relationshipFile supply relationships ++ modelFiles options supply selection) := by
  have planned : (plans options selection).map (tableFile options supply) =
      ((plans options selection).map (plannedTable options)).map (WrittenTable.file supply) := by
    rw [List.map_map]
    refine List.map_congr_left fun plan _ => ?_
    rw [tableFile, plan.text_eq]
    rfl
  have calendar : (selection.calendar.map (calendarFile supply)).toList =
      (selection.calendar.map calendarTable).toList.map (WrittenTable.file supply) := by
    cases selection.calendar with
    | none => rfl
    | some calendar =>
        rw [Option.map_some, calendarFile, Definition.calendarText_eq]
        rfl
  rw [files, planned, calendar, writtenTables, List.map_append, List.append_assoc,
    List.append_assoc, List.append_assoc]
  rfl

/-- The other files have fixed paths. -/
theorem path_of_mem_others {relationships : List Definition.Relationship} {file : Text × Text}
    (member : file ∈ relationshipFile supply relationships ++ modelFiles options supply selection) :
    file.1 ∈ [Path.relationships, Path.expressions, Path.model, Path.database] := by
  rcases List.mem_append.mp member with relationship | model
  · rw [relationshipFile] at relationship
    split at relationship
    · cases relationship
    · rw [List.mem_singleton.mp relationship]
      exact List.mem_cons_self
  · simp only [modelFiles, List.mem_cons, List.not_mem_nil, or_false] at model
    rcases model with rfl | rfl | rfl <;> simp

theorem isInTablesFolder_of_mem_others {relationships : List Definition.Relationship}
    {file : Text × Text}
    (member : file ∈ relationshipFile supply relationships ++ modelFiles options supply selection) :
    Path.isInTablesFolder file.1 = false := by
  have fixed : ∀ path ∈ [Path.relationships, Path.expressions, Path.model, Path.database],
      Path.isInTablesFolder path = false := by decide
  exact fixed file.1 (path_of_mem_others member)

/-- A file in the tables folder is that of a written table. -/
theorem exists_writtenTable_of_mem_files {relationships : List Definition.Relationship}
    {file : Text × Text} (member : file ∈ files options supply selection relationships)
    (isTable : Path.isInTablesFolder file.1 = true) :
    ∃ table ∈ writtenTables options selection, table.file supply = file := by
  rw [files_eq] at member
  rcases List.mem_append.mp member with table | other
  · exact List.mem_map.mp table
  · rw [isInTablesFolder_of_mem_others other] at isTable
    exact Bool.noConfusion isTable

/-- The same of a file that is found under its path. -/
theorem exists_writtenTable_of_get? {output : Output}
    (generated : generate options supply selection = .ok output) {path text : Text}
    (isTable : Path.isInTablesFolder path = true)
    (found : output.definitions.get? path = some text) :
    ∃ table ∈ writtenTables options selection, table.file supply = (path, text) := by
  obtain ⟨relationships, isGenerated⟩ := exists_isGenerated generated
  have inside := SortedMap.mem_of_get? found
  rw [isGenerated.definitions] at inside
  exact exists_writtenTable_of_mem_files (SortedMap.mem_of_mem_ofList inside) isTable

theorem isInTablesFolder_table (name : Text) : Path.isInTablesFolder (Path.table name) = true := by
  rw [Path.isInTablesFolder, Path.table, List.append_assoc, List.isPrefixOf_iff_prefix]
  exact List.prefix_append _ _

theorem exists_path_of_mem_writtenTables {table : WrittenTable}
    (member : table ∈ writtenTables options selection) : ∃ name, table.path = Path.table name := by
  rcases List.mem_append.mp member with planned | calendar
  · obtain ⟨plan, _, rfl⟩ := List.mem_map.mp planned
    exact ⟨plan.name, rfl⟩
  · rw [Option.mem_toList, Option.map_eq_some_iff] at calendar
    obtain ⟨_, _, rfl⟩ := calendar
    exact ⟨Convention.calendarTable, rfl⟩

theorem isInTablesFolder_of_mem_writtenTables {table : WrittenTable}
    (member : table ∈ writtenTables options selection) :
    Path.isInTablesFolder table.path = true := by
  obtain ⟨name, path⟩ := exists_path_of_mem_writtenTables member
  rw [path]
  exact isInTablesFolder_table name

theorem nodup_otherPaths (options : Options) (supply : Supply) (selection : Selection)
    (relationships : List Definition.Relationship) :
    ((relationshipFile supply relationships ++ modelFiles options supply selection).map
      (·.1)).Nodup := by
  have paths : [Path.relationships, Path.expressions, Path.model, Path.database].Nodup := by decide
  rw [relationshipFile]
  split
  · exact (List.nodup_cons.mp paths).2
  · exact paths

/-- The files besides the tables are found under their paths. -/
theorem IsGenerated.get?_of_mem_others {relationships : List Definition.Relationship}
    {output : Output} (generated : IsGenerated options supply selection relationships output)
    {file : Text × Text}
    (member : file ∈ relationshipFile supply relationships ++ modelFiles options supply selection) :
    output.definitions.get? file.1 = some file.2 := by
  rw [generated.definitions, files_eq]
  refine SortedMap.get?_ofList_of_mem (List.mem_append_right _ member) ?_
  intro entry inside same
  rcases List.mem_append.mp inside with isTable | isOther
  · obtain ⟨table, tableMember, rfl⟩ := List.mem_map.mp isTable
    have samePath : table.path = file.1 := same
    have folder := isInTablesFolder_of_mem_writtenTables tableMember
    rw [samePath, isInTablesFolder_of_mem_others member] at folder
    exact Bool.noConfusion folder
  · have equal : entry = file := List.inj_on_of_nodup_map
      (nodup_otherPaths options supply selection relationships) isOther member same
    rw [equal]

/-- A generated set has a file of relationships if it has relationships. -/
theorem IsGenerated.get?_relationships {relationships : List Definition.Relationship}
    {output : Output} (generated : IsGenerated options supply selection relationships output) :
    output.definitions.get? Path.relationships =
      if relationships.isEmpty then none
      else some (Line.fileText (relationshipLines supply relationships)) := by
  split
  · next none =>
      have paths : Path.relationships ∉ [Path.expressions, Path.model, Path.database] := by decide
      have folder : Path.isInTablesFolder Path.relationships = false := by decide
      rw [generated.definitions, files_eq, relationshipFile, if_pos none, List.nil_append]
      refine (SortedMap.get?_ofList_eq_none_iff _ _).mpr fun entry member same => ?_
      rcases List.mem_append.mp member with isTable | isOther
      · obtain ⟨table, inside, rfl⟩ := List.mem_map.mp isTable
        have samePath : table.path = Path.relationships := same
        rw [← samePath, isInTablesFolder_of_mem_writtenTables inside] at folder
        exact Bool.noConfusion folder
      · exact paths (same ▸ List.mem_map.mpr ⟨entry, isOther, rfl⟩)
  · next some =>
      have inside : (Path.relationships, Line.fileText (relationshipLines supply relationships)) ∈
          relationshipFile supply relationships := by
        rw [relationshipFile, if_neg some]
        exact List.mem_singleton_self _
      exact generated.get?_of_mem_others (List.mem_append_left _ inside)

/-- Every written table is readable if the names in it stand on one line. -/
theorem isReadable_of_mem_writtenTables
    (names : ∀ plan ∈ plans options selection, plan.HasSingleLines) {table : WrittenTable}
    (member : table ∈ writtenTables options selection) : table.outline.IsReadable := by
  rcases List.mem_append.mp member with planned | calendar
  · obtain ⟨plan, inside, rfl⟩ := List.mem_map.mp planned
    have single := names plan inside
    obtain ⟨own, _, rfl⟩ := List.mem_map.mp inside
    exact Plan.Table.isReadable_outline single options.connection options.mode
  · rw [Option.mem_toList, Option.map_eq_some_iff] at calendar
    obtain ⟨calendar, _, rfl⟩ := calendar
    exact Definition.isReadable_calendarOutline calendar

/-- The text of a table file is that of a readable outline. -/
structure IsTableText (outline : TableOutline) (tag : Member -> Text) (text : Text) : Prop where
  readable : outline.IsReadable
  tags : ∀ member, IsTag (tag member)
  text : text = Block.textOfLines (outline.fileLines tag)

theorem isTableText_file {table : WrittenTable} (readable : table.outline.IsReadable)
    (tags : ∀ slot, IsTag (supply slot)) :
    IsTableText table.outline (fun member => supply (table.slot member)) (table.file supply).2 :=
  ⟨readable, fun _ => tags _, rfl⟩

theorem exists_isTableText {relationships : List Definition.Relationship} {file : Text × Text}
    (names : ∀ plan ∈ plans options selection, plan.HasSingleLines)
    (tags : ∀ slot, IsTag (supply slot))
    (member : file ∈ files options supply selection relationships)
    (isTable : Path.isInTablesFolder file.1 = true) :
    ∃ outline tag, IsTableText outline tag file.2 := by
  obtain ⟨table, inside, rfl⟩ := exists_writtenTable_of_mem_files member isTable
  exact ⟨_, _, isTableText_file (isReadable_of_mem_writtenTables names inside) tags⟩

theorem IsTableText.ofText {outline : TableOutline} {tag : Member -> Text} {text : Text}
    (written : IsTableText outline tag text) :
    Document.ofText text = ⟨[outline.block (outline.freshState tag)], true⟩ := by
  rw [written.text]
  exact TableOutline.ofText_file written.readable fun member => (written.tags member).isSingleLine

end Generation

end TabularModel
