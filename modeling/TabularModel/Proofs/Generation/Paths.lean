import TabularModel.Proofs.Definition.ModelFile
import TabularModel.Proofs.Definition.Path
import TabularModel.Proofs.Generation.Readback

/-!
# Each table has a file of its own

Different names may be written as one file name, so it is not the names but the check
for duplicates that keeps the files of two tables apart. A selection that passes it has
one file for each of its tables, and what is written for one table stands in that file.
-/

set_option autoImplicit false

namespace TabularModel

namespace Generation

open Catalog (Selection)

/-- The names of the tables that a selection stands for. The calendar is the last. -/
def listedTables (selection : Selection) : List Text :=
  selection.tables.map (·.modelName) ++
    (selection.calendar.map fun _ => Convention.calendarTable).toList

/-- The paths besides those of the tables. -/
def otherPaths (relationships : List Definition.Relationship) : List Text :=
  (if relationships.isEmpty then [] else [Path.relationships]) ++
    [Path.expressions, Path.model, Path.database]

/-- A set holds one file for each table and besides them only the files of the model.
Their paths differ in more than letter case, and those of the tables stay inside their
folder. -/
structure HasOwnFiles (options : Options) (supply : Supply) (selection : Selection)
    (output : Output) : Prop where
  paths : (output.definitions.entries.map (·.1)).Perm
    ((listedTables selection).map Path.table ++ otherPaths (emitted options selection))
  apart : (output.definitions.entries.map fun file => Text.lower file.1).Nodup
  inside : ∀ name ∈ listedTables selection, ∃ file,
    Path.table name = Path.tablesFolder ++ file ++ ".tmdl" ∧ Path.IsFileName file
  ofTable : ∀ table ∈ selection.tables,
    output.definitions.get? (Path.table table.modelName) =
      some ((Plan.Table.build (context options selection) table).text options.connection
        options.mode fun member => supply (.member table.logicalName member))
  ofCalendar : ∀ calendar ∈ selection.calendar,
    output.definitions.get? (Path.table Convention.calendarTable) =
      some (Definition.calendarText calendar fun member => supply (.calendar member))
  listed : (listedTables selection).Nodup ∧ ∃ text,
    output.definitions.get? Path.model = some text ∧
      (Text.IsSingleLine options.culture ->
        (∀ table ∈ selection.tables, Text.IsSingleLine table.modelName) ->
          Definition.referredTables text = listedTables selection)

variable {options : Options} {supply : Supply} {selection : Selection} {output : Output}
variable {relationships : List Definition.Relationship}

theorem tableNames_plans (options : Options) (selection : Selection) :
    tableNames (plans options selection) selection.calendar = listedTables selection := by
  rw [tableNames, listedTables, plans, List.map_map]
  congr 1
  exact List.map_congr_left fun table _ => (Plan.Table.isPlanned_build _ table).name

theorem map_path_files (options : Options) (supply : Supply) (selection : Selection)
    (relationships : List Definition.Relationship) :
    (files options supply selection relationships).map (·.1) =
      (listedTables selection).map Path.table ++ otherPaths relationships := by
  have tables : ((writtenTables options selection).map (WrittenTable.file supply)).map (·.1) =
      (listedTables selection).map Path.table := by
    have paths := map_path_writtenTables options selection
    rw [listedTables, List.map_append, List.map_map, List.map_map]
    refine paths.trans ?_
    congr 1
    cases selection.calendar <;> rfl
  have others : (relationshipFile supply relationships ++
      modelFiles options supply selection).map (·.1) = otherPaths relationships := by
    rw [otherPaths, relationshipFile]
    split <;> rfl
  rw [files_eq, List.map_append, tables, others]

/-! ## Paths up to letter case -/

theorem isInTablesFolder_lower_table (name : Text) :
    Path.isInTablesFolder (Text.lower (Path.table name)) = true := by
  have folder : Text.lower Path.tablesFolder = Path.tablesFolder := by decide
  rw [Path.isInTablesFolder, Path.table, List.append_assoc, Text.lower, List.map_append,
    ← Text.lower, folder, List.isPrefixOf_iff_prefix]
  exact List.prefix_append _ _

theorem nodup_lower_otherPaths (relationships : List Definition.Relationship) :
    ((otherPaths relationships).map Text.lower).Nodup ∧
      ∀ path ∈ otherPaths relationships, Path.isInTablesFolder (Text.lower path) = false := by
  rw [otherPaths]
  split <;> decide

theorem nodup_lower_tablePaths (checked : check options selection = .ok ()) :
    (((listedTables selection).map Path.table).map Text.lower).Nodup := by
  have distinct := areDistinct_of_check checked
  have shape : ((listedTables selection).map Path.table).map Text.lower =
      selection.tables.map (fun table => Text.lower (Path.table table.modelName)) ++
        (selection.calendar.map fun _ =>
          Text.lower (Path.table Convention.calendarTable)).toList := by
    rw [listedTables, List.map_append, List.map_append, List.map_map, List.map_map]
    congr 1
    cases selection.calendar <;> rfl
  rw [shape]
  refine nodup_append_toList distinct.distinctPaths fun configured member => ?_
  obtain ⟨table, inside, same⟩ := List.mem_map.mp member
  refine distinct.newPaths table inside ?_
  rw [same, reservedPaths, if_pos configured]
  exact List.mem_singleton_self _

theorem nodup_lower_paths (checked : check options selection = .ok ()) :
    (((listedTables selection).map Path.table ++ otherPaths relationships).map
      Text.lower).Nodup := by
  obtain ⟨others, outside⟩ := nodup_lower_otherPaths relationships
  rw [List.map_append, List.nodup_append]
  refine ⟨nodup_lower_tablePaths checked, others, ?_⟩
  intro path member other otherMember same
  obtain ⟨table, tableMember, rfl⟩ := List.mem_map.mp member
  obtain ⟨name, _, rfl⟩ := List.mem_map.mp tableMember
  obtain ⟨fixed, fixedMember, rfl⟩ := List.mem_map.mp otherMember
  have folder := isInTablesFolder_lower_table name
  rw [same, outside fixed fixedMember] at folder
  exact Bool.noConfusion folder

/-! ## The files of a generated set -/

theorem IsGenerated.get?_of_mem_files
    (generated : IsGenerated options supply selection relationships output) {file : Text × Text}
    (member : file ∈ files options supply selection relationships) :
    output.definitions.get? file.1 = some file.2 :=
  SortedMap.get?_of_mem (generated.perm_entries.mem_iff.mpr member)

theorem IsGenerated.hasOwnFiles
    (generated : IsGenerated options supply selection relationships output) :
    HasOwnFiles options supply selection output := by
  have paths : (output.definitions.entries.map (·.1)).Perm
      ((listedTables selection).map Path.table ++ otherPaths relationships) := by
    rw [← map_path_files options supply]
    exact generated.perm_entries.map _
  refine ⟨generated.emitted_eq ▸ paths, ?_, ?_, ?_, ?_, ?_, ?_⟩
  · have lowered := paths.map Text.lower
    rw [List.map_map] at lowered
    exact lowered.nodup_iff.mpr (nodup_lower_paths generated.checked)
  · exact fun name _ => ⟨Path.fileName name, rfl, Path.isFileName_fileName name⟩
  · intro table member
    have planned := Plan.Table.isPlanned_build (context options selection) table
    have written : tableFile options supply (Plan.Table.build (context options selection) table) ∈
        files options supply selection relationships := by
      simp only [files, List.mem_append]
      exact Or.inl (Or.inl (Or.inl (List.mem_map_of_mem (List.mem_map_of_mem member))))
    have found := generated.get?_of_mem_files written
    rwa [tableFile, planned.name, planned.logicalName] at found
  · intro calendar configured
    have written : calendarFile supply calendar ∈
        files options supply selection relationships := by
      simp only [files, List.mem_append]
      refine Or.inl (Or.inl (Or.inr ?_))
      rw [Option.mem_def.mp configured]
      exact List.mem_singleton_self _
    exact generated.get?_of_mem_files written
  · exact .of_map Path.table (.of_map Text.lower (nodup_lower_tablePaths generated.checked))
  · refine ⟨_, generated.get?_of_mem_others (List.mem_append_right _
      (List.mem_cons_of_mem _ List.mem_cons_self)), fun culture names => ?_⟩
    have single : ∀ name ∈ listedTables selection, Text.IsSingleLine name := by
      intro name member
      rcases List.mem_append.mp member with table | calendar
      · obtain ⟨own, inside, rfl⟩ := List.mem_map.mp table
        exact names own inside
      · rw [Option.mem_toList, Option.map_eq_some_iff] at calendar
        obtain ⟨_, _, rfl⟩ := calendar
        decide
    rw [tableNames_plans]
    exact Definition.referredTables_modelText culture _ single

/-- In the set of an accepted selection no file takes the place of another one, and
none leaves its folder. -/
theorem hasOwnFiles_of_generate (generated : generate options supply selection = .ok output) :
    HasOwnFiles options supply selection output := by
  obtain ⟨relationships, isGenerated⟩ := exists_isGenerated generated
  exact isGenerated.hasOwnFiles

/-- Tables beside a calendar, of which one name is that of a folder, one is empty but
for what is dropped from its end, and one separates folders. -/
theorem hasOwnFiles_of_generate_marks :
    let tableCalled (logicalName name : Text) : Catalog.Table :=
      { Catalog.Table.plain logicalName "id" with displayName := some name }
    let selection : Selection :=
      { modelName := "Sales"
        tables :=
          [tableCalled "a" "../..", tableCalled "b" " . .", tableCalled "c" "C:\\Users",
            { tableCalled "d" "date?" with
              attributes := [⟨"createdon", none, .dateTime, [], none⟩] }]
        edges := []
        calendar := some ⟨2020, 2021, 0, "d", "createdon"⟩ }
    let options : Options := { Options.standard with checksQueries := false }
    let supply : Supply := fun _ => "tag"
    ∃ output text, generate options supply selection = .ok output ∧
      HasOwnFiles options supply selection output ∧
      output.definitions.get? Path.model = some text ∧
      Definition.referredTables text =
        [("../.." : Text), (" . ." : Text), ("C:\\Users" : Text), ("date?" : Text), ("Date" : Text)] := by
  intro tableCalled selection options supply
  have accepted : (generate options supply selection).toOption.isSome = true := by decide +kernel
  obtain ⟨output, found⟩ := Option.isSome_iff_exists.mp accepted
  have generated := eq_ok_of_toOption found
  have own := hasOwnFiles_of_generate generated
  obtain ⟨_, text, present, read⟩ := own.listed
  have culture : Text.IsSingleLine options.culture := by decide +kernel
  have names : ∀ table ∈ selection.tables, Text.IsSingleLine table.modelName := by decide +kernel
  have listed : listedTables selection =
      [("../.." : Text), (" . ." : Text), ("C:\\Users" : Text), ("date?" : Text), ("Date" : Text)] := by
    decide +kernel
  exact ⟨output, text, generated, own, present, (read culture names).trans listed⟩

/-- A culture of several lines may list a table besides. -/
theorem lists_table_of_culture :
    let selection : Selection :=
      { modelName := "Sales"
        tables := [.plain "account" "accountid"]
        edges := []
        calendar := none }
    let options : Options := { Options.standard with culture := "en\nref table account" }
    ∃ output text, generate options (fun _ => "tag") selection = .ok output ∧
      (∀ table ∈ selection.tables, Text.IsSingleLine table.modelName) ∧
      output.definitions.get? Path.model = some text ∧
      (Definition.referredTables text).count ("account" : Text) = 3 := by
  intro selection options
  have written : ((generate options (fun _ => "tag") selection).toOption.bind fun output =>
      output.definitions.get? Path.model).map (fun text =>
        (Definition.referredTables text).count ("account" : Text)) = some 3 := by
    decide +kernel
  obtain ⟨text, present, thrice⟩ := Option.map_eq_some_iff.mp written
  obtain ⟨output, found, inside⟩ := Option.bind_eq_some_iff.mp present
  exact ⟨output, text, eq_ok_of_toOption found, by decide +kernel, inside, thrice⟩

end Generation

end TabularModel
