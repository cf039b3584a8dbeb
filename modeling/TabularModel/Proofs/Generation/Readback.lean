import TabularModel.Proofs.Generation.Names
import TabularModel.Proofs.Prior.Expressions
import TabularModel.Proofs.Prior.Readback
import TabularModel.Proofs.Prior.Warnings

/-!
# A generated set is read in full

Reading a generated set gives back what was planned: every table with its
columns, its row count and its partition, the relationships in their order, and
the parameters, each with the tag under which it was written. Nothing is
reported.
-/

set_option autoImplicit false

namespace TabularModel

namespace Generation

open Catalog (Selection)
open Definition (parameterNodes)
open Prior (GivesRelationships IsTag Model tableBlocks)

/-! ## What is expected -/

/-- The relationships that are written for a selection, in their order. -/
def emitted (options : Options) (selection : Selection) : List Definition.Relationship :=
  (Plan.ofEdges (plans options selection) selection.edges).filterMap Except.toOption ++
    (calendarRelationships (plans options selection) selection.calendar).toOption.getD []

/-- A written table as it is read again. -/
def WrittenTable.recovered (supply : Supply) (table : WrittenTable) : Prior.Table :=
  table.outline.recovered fun member => supply (table.slot member)

/-- What a selection plans is known from a model, and nothing else. -/
structure IsReadBack (options : Options) (supply : Supply) (selection : Selection)
    (model : Model) : Prop where
  warnings : model.warnings = []
  names : (writtenTables options selection).map (fun table =>
      (table.outline.logicalName, table.outline.name)) =
    selection.tables.map (fun table => (table.logicalName, table.modelName)) ++
      (selection.calendar.map fun _ =>
        (Convention.calendarTable, Convention.calendarTable)).toList
  tables : model.tables.entries.Perm ((writtenTables options selection).map fun table =>
    (table.outline.logicalName, table.recovered supply))
  columns : ∀ table ∈ writtenTables options selection,
    (table.recovered supply).columns.entries.Perm
      (table.outline.columns.map fun column => (column.source, column.recovered))
  columnTags : ∀ table ∈ writtenTables options selection,
    (table.recovered supply).columnTags.entries.Perm
      (table.outline.columns.map fun column =>
        (column.source, supply (table.slot (.column column.source))))
  relationships : model.relationships = (emitted options selection).mapIdx fun position
    relationship => relationship.recovered position (supply (.relationship position))
  parameters : model.expressionTags.entries.Perm (options.connection.parameters.map fun parameter =>
    (parameter.1, supply (.parameter parameter.1)))

variable {options : Options} {supply : Supply} {selection : Selection} {output : Output}
variable {relationships : List Definition.Relationship}

theorem IsGenerated.emitted_eq
    (generated : IsGenerated options supply selection relationships output) :
    emitted options selection = relationships := by
  obtain ⟨toCalendar, found, rfl⟩ := generated.calendar
  rw [emitted, found]
  rfl

theorem map_names_writtenTables (options : Options) (selection : Selection) :
    (writtenTables options selection).map (fun table =>
        (table.outline.logicalName, table.outline.name)) =
      selection.tables.map (fun table => (table.logicalName, table.modelName)) ++
        (selection.calendar.map fun _ =>
          (Convention.calendarTable, Convention.calendarTable)).toList := by
  rw [writtenTables, List.map_append, plans, List.map_map, List.map_map]
  congr 1
  · refine List.map_congr_left fun table _ => ?_
    have planned := Plan.Table.isPlanned_build (context options selection) table
    exact Prod.ext planned.logicalName planned.name
  · cases selection.calendar <;> rfl

/-! ## Table files -/

/-- A written table as a block under fresh tags. -/
def WrittenTable.freshBlock (supply : Supply) (table : WrittenTable) : Block :=
  table.outline.block (table.outline.freshState fun member => supply (table.slot member))

theorem WrittenTable.IsStable.isSettled_freshState {table : WrittenTable}
    (stable : table.IsStable) (tags : ∀ slot, IsTag (supply slot)) :
    table.outline.IsSettled (Definition.TableOutline.freshColumn fun member =>
        supply (table.slot member))
      (table.outline.freshState fun member => supply (table.slot member)) :=
  Definition.TableOutline.isSettled_freshState stable.readable stable.trimmed fun _ => tags _

theorem WrittenTable.IsStable.tableKey?_freshBlock {table : WrittenTable}
    (stable : table.IsStable) (tags : ∀ slot, IsTag (supply slot)) :
    Prior.tableKey? (table.freshBlock supply) = some table.outline.logicalName := by
  have trimmed : Text.trim table.outline.logicalName = table.outline.logicalName :=
    stable.logicalName
  have key := (stable.isSettled_freshState tags).isReread.tableKey?
  rwa [trimmed] at key

/-- Nothing but the block of a written table is read from its file. -/
theorem WrittenTable.IsStable.blocksWith_table {table : WrittenTable} (stable : table.IsStable)
    (tags : ∀ slot, IsTag (supply slot)) :
    (Document.ofText (table.file supply).2).blocksWith "table" = [table.freshBlock supply] := by
  have header := Prior.hasHeader_of_tableKey? (stable.tableKey?_freshBlock tags)
  have blocks : Document.ofText (table.file supply).2 = ⟨[table.freshBlock supply], true⟩ :=
    (isTableText_file stable.readable tags).ofText
  rw [blocks, Document.blocksWith, List.filter_cons_of_pos header, List.filter_nil]

/-- The file of a written table is read as its table. -/
theorem WrittenTable.IsStable.readTable? {table : WrittenTable} (stable : table.IsStable)
    (tags : ∀ slot, IsTag (supply slot)) :
    ((Document.ofText (table.file supply).2).blocksWith "table").filterMap Prior.readTable? =
      [table.recovered supply] := by
  have read : Prior.readTable? (table.freshBlock supply) = some (table.recovered supply) :=
    Definition.TableOutline.readTable?_freshState (stable.isSettled_freshState tags) stable.trimmed
      stable.logicalName
  rw [stable.blocksWith_table tags, List.filterMap_cons_some read]
  rfl

theorem WrittenTable.IsStable.fileTables {table : WrittenTable} (stable : table.IsStable)
    (tags : ∀ slot, IsTag (supply slot)) :
    Prior.fileTables (table.file supply) = [table.recovered supply] := by
  have folder : Path.isInTablesFolder (table.file supply).1 = true := stable.path
  rw [Prior.fileTables, if_pos folder, stable.readTable? tags]

theorem fileTables_of_mem_others {file : Text × Text}
    (member : file ∈ relationshipFile supply relationships ++ modelFiles options supply selection) :
    Prior.fileTables file = [] := by
  rw [Prior.fileTables, isInTablesFolder_of_mem_others member, if_neg Bool.false_ne_true]

/-- The columns of a written table come from different sources. -/
theorem WrittenTable.IsStable.nodup_sources {table : WrittenTable} (stable : table.IsStable) :
    (table.outline.columns.map (·.source)).Nodup := by
  refine List.pairwise_map.mpr (stable.sources.imp_of_mem ?_)
  intro left right leftMember rightMember different same
  have leftSource : Text.trim left.source = left.source := (stable.trimmed left leftMember).source
  have rightSource : Text.trim right.source = right.source :=
    (stable.trimmed right rightMember).source
  rw [leftSource, rightSource] at different
  exact different same

/-! ## The files of a set in any order -/

theorem nodup_filePaths (checked : check options selection = .ok ()) :
    ((files options supply selection relationships).map (·.1)).Nodup := by
  rw [files_eq, List.map_append, List.nodup_append]
  refine ⟨?_, nodup_otherPaths options supply selection relationships, ?_⟩
  · rw [List.map_map]
    exact nodup_paths checked
  · intro path member other otherMember same
    obtain ⟨entry, inside, rfl⟩ := List.mem_map.mp member
    obtain ⟨table, tableMember, rfl⟩ := List.mem_map.mp inside
    obtain ⟨file, fileMember, rfl⟩ := List.mem_map.mp otherMember
    have folder := isInTablesFolder_of_mem_writtenTables tableMember
    have fixed := isInTablesFolder_of_mem_others fileMember
    rw [← same] at fixed
    exact Bool.noConfusion (folder.symm.trans fixed)

theorem IsGenerated.perm_entries
    (generated : IsGenerated options supply selection relationships output) :
    output.definitions.entries.Perm (files options supply selection relationships) := by
  rw [generated.definitions]
  exact SortedMap.perm_entries_ofList (nodup_filePaths generated.checked)

/-- The tables of all files are the written ones. -/
theorem flatMap_fileTables_files (names : HasStableTables options selection)
    (tags : ∀ slot, IsTag (supply slot)) :
    (files options supply selection relationships).flatMap Prior.fileTables =
      (writtenTables options selection).map (WrittenTable.recovered supply) := by
  have tables : ((writtenTables options selection).map (WrittenTable.file supply)).flatMap
      Prior.fileTables = (writtenTables options selection).map (WrittenTable.recovered supply) := by
    rw [List.flatMap_map, List.map_eq_flatMap]
    refine List.flatMap_congr fun table member => ?_
    exact (isStable_of_mem_writtenTables names member).fileTables tags
  have others : (relationshipFile supply relationships ++
      modelFiles options supply selection).flatMap Prior.fileTables = [] := by
    rw [List.flatMap_eq_nil_iff]
    exact fun file member => fileTables_of_mem_others member
  rw [files_eq, List.flatMap_append, tables, others, List.append_nil]

theorem IsGenerated.perm_fileTables
    (generated : IsGenerated options supply selection relationships output)
    (names : HasStableTables options selection) (tags : ∀ slot, IsTag (supply slot)) :
    (output.definitions.entries.flatMap Prior.fileTables).Perm
      ((writtenTables options selection).map (WrittenTable.recovered supply)) := by
  rw [← flatMap_fileTables_files names tags]
  exact generated.perm_entries.flatMap_right Prior.fileTables

/-- The tables of a generated set are known by different keys. -/
theorem IsGenerated.nodup_tableKeys
    (generated : IsGenerated options supply selection relationships output)
    (names : HasStableTables options selection) (tags : ∀ slot, IsTag (supply slot)) :
    ((output.definitions.entries.flatMap Prior.fileTables).map (·.key)).Nodup := by
  have keys := (generated.perm_fileTables names tags).map (·.key)
  rw [List.map_map] at keys
  exact keys.nodup_iff.mpr (nodup_logicalNames names generated.checked)

/-! ## Relationships -/

theorem blocksWith_relationshipLines (ends : ∀ relationship ∈ relationships, relationship.HasEnds)
    (tags : ∀ slot, IsTag (supply slot)) :
    (Document.ofText (Line.fileText (relationshipLines supply relationships))).blocksWith
        "relationship" =
      relationships.mapIdx fun position relationship =>
        relationship.block (supply (.relationship position)) := by
  have words (position : Nat) : IsTag (supply (.relationship position)) := tags _
  have each := Prior.isNested_of_mem_mergedBlocks Prior.areKnown_nil ends words
  rw [← Prior.blocksWith_relationshipsDocument, Prior.fileText_relationshipLines,
    Prior.relationshipsDocument_render Prior.areKnown_nil ends words, Document.blocksWith,
    List.filter_eq_self.mpr fun block member => (each block member).2, Prior.mergedBlocks_nil]

theorem gives_fileText_relationshipLines (apart : Prior.AreApart relationships)
    (tags : ∀ slot, IsTag (supply slot)) :
    GivesRelationships (Line.fileText (relationshipLines supply relationships))
      (relationships.mapIdx fun position relationship =>
        relationship.recovered position (supply (.relationship position))) := by
  have words (position : Nat) : IsTag (supply (.relationship position)) := tags _
  refine ⟨?_, ?_⟩
  · refine Eq.trans ?_ (Prior.map_mapIdx_of_eq relationships fun _ _ _ => rfl).symm
    rw [blocksWith_relationshipLines apart.ends tags, List.mapIdx_mapIdx,
      List.mapIdx_eq_mapIdx_iff]
    intro position inside
    exact Definition.Relationship.readRelationship_block (apart.ends _ (List.getElem_mem inside))
      position (Text.isTrimmed_of_noBlank _ (words position).visible)
  · have keys : (relationships.mapIdx fun position relationship =>
        relationship.recovered position (supply (.relationship position))).map (·.key) =
        relationships.map Definition.Relationship.key :=
      List.ext_getElem (by simp) (by simp [Definition.Relationship.recovered])
    rw [keys]
    exact apart.distinct

theorem IsGenerated.relationships_ofDefinitions
    (generated : IsGenerated options supply selection relationships output)
    (apart : Prior.AreApart relationships) (tags : ∀ slot, IsTag (supply slot)) :
    (Model.ofDefinitions output.definitions).relationships =
      relationships.mapIdx fun position relationship =>
        relationship.recovered position (supply (.relationship position)) := by
  have found := generated.get?_relationships
  cases relationships with
  | nil =>
      rw [List.isEmpty_nil, if_pos rfl] at found
      rw [Model.relationships_ofDefinitions, found]
      rfl
  | cons relationship others =>
      rw [List.isEmpty_cons, if_neg Bool.false_ne_true] at found
      exact Model.relationships_ofDefinitions_of_gives found
        (gives_fileText_relationshipLines apart tags)

/-! ## The whole set -/

theorem IsGenerated.areClear
    (generated : IsGenerated options supply selection relationships output)
    (names : HasStableTables options selection) (tags : ∀ slot, IsTag (supply slot)) :
    Prior.AreClear output.definitions.entries := by
  refine ⟨output.definitions.keys_nodup, ?_, generated.nodup_tableKeys names tags, ?_⟩
  · intro file member isTable
    have inside := generated.perm_entries.mem_iff.mp member
    obtain ⟨table, tableMember, rfl⟩ := exists_writtenTable_of_mem_files inside isTable
    have read := (isStable_of_mem_writtenTables names tableMember).readTable? tags
    intro none
    rw [none] at read
    cases read
  · intro file member isRelationships
    have found := SortedMap.get?_of_mem member
    rw [isRelationships, generated.get?_relationships] at found
    split at found
    · cases found
    · rw [← Option.some.inj found]
      exact ⟨_, gives_fileText_relationshipLines (areApart_of_isGenerated names generated) tags⟩

theorem IsGenerated.perm_expressionTags
    (generated : IsGenerated options supply selection relationships output)
    (names : HasStableNames options selection) (tags : ∀ slot, IsTag (supply slot)) :
    (Model.ofDefinitions output.definitions).expressionTags.entries.Perm
      (options.connection.parameters.map fun parameter =>
        (parameter.1, supply (.parameter parameter.1))) := by
  have readable := Definition.areReadable_parameters names.parameters
  have written := generated.get?_of_mem_others (List.mem_append_right _ List.mem_cons_self)
  rw [Definition.parametersText_eq readable] at written
  rw [Prior.expressionTags_ofDefinitions_of_written readable (fun name => tags (.parameter name))
    written]
  refine SortedMap.perm_entries_ofList ?_
  rw [List.map_map]
  exact readable.distinct

/-- The tables of a generated set are known under their logical names. -/
theorem IsGenerated.perm_tables
    (generated : IsGenerated options supply selection relationships output)
    (names : HasStableTables options selection) (tags : ∀ slot, IsTag (supply slot)) :
    (Model.ofDefinitions output.definitions).tables.entries.Perm
      ((writtenTables options selection).map fun table =>
        (table.outline.logicalName, table.recovered supply)) := by
  have keys : ((output.definitions.entries.flatMap Prior.fileTables).map fun table =>
      (table.key, table)).map (·.1) =
      (output.definitions.entries.flatMap Prior.fileTables).map (·.key) := by
    rw [List.map_map]
    rfl
  have entries := SortedMap.perm_entries_ofList (keys ▸ generated.nodup_tableKeys names tags)
  rw [Model.tables_ofDefinitions_eq]
  refine entries.trans (((generated.perm_fileTables names tags).map _).trans ?_)
  rw [List.map_map]
  exact .refl _

theorem IsGenerated.get?_tables
    (generated : IsGenerated options supply selection relationships output)
    (names : HasStableTables options selection) (tags : ∀ slot, IsTag (supply slot))
    {table : WrittenTable} (member : table ∈ writtenTables options selection) :
    (Model.ofDefinitions output.definitions).tables.get? table.outline.logicalName =
      some (table.recovered supply) :=
  SortedMap.get?_of_mem ((generated.perm_tables names tags).symm.subset
    (List.mem_map.mpr ⟨table, member, rfl⟩))

theorem IsGenerated.isReadBack
    (generated : IsGenerated options supply selection relationships output)
    (names : HasStableNames options selection) (tags : ∀ slot, IsTag (supply slot)) :
    IsReadBack options supply selection (.ofDefinitions output.definitions) := by
  have apart := areApart_of_isGenerated names.stableTables generated
  refine ⟨Model.warnings_ofDefinitions (generated.areClear names.stableTables tags),
    map_names_writtenTables options selection, generated.perm_tables names.stableTables tags, ?_, ?_,
    ?_, generated.perm_expressionTags names tags⟩
  · intro table member
    have sources := (isStable_of_mem_writtenTables names.stableTables member).nodup_sources
    refine SortedMap.perm_entries_ofList ?_
    rw [List.map_map]
    exact sources
  · intro table member
    have sources := (isStable_of_mem_writtenTables names.stableTables member).nodup_sources
    refine SortedMap.perm_entries_ofList ?_
    rw [List.map_map]
    exact sources
  · rw [generated.relationships_ofDefinitions apart tags, generated.emitted_eq]

/-- Reading a generated set gives back what was planned, and reports nothing. -/
theorem isReadBack_ofDefinitions {options : Options} {supply : Supply} {selection : Selection}
    {output : Output} (generated : generate options supply selection = .ok output)
    (names : HasStableNames options selection) (tags : ∀ slot, IsTag (supply slot)) :
    IsReadBack options supply selection (.ofDefinitions output.definitions) := by
  obtain ⟨relationships, isGenerated⟩ := exists_isGenerated generated
  exact isGenerated.isReadBack names tags

/-- A fact and a dimension beside a calendar, under names that look like lines of
a definition file. -/
theorem isReadBack_ofDefinitions_quoted :
    let selection : Selection :=
      { modelName := "Sales"
        tables :=
          [{ Catalog.Table.plain "salesorder" "salesorderid" with
              displayName := some "Order's = partition x.y"
              role := .fact
              attributes :=
                [⟨"customerid", some "annotation SemforgeLogicalName = other", .lookup,
                    ["account"], none⟩,
                  ⟨"amount", some "isHidden", .decimal, [], none⟩,
                  ⟨"createdon", some "lineageTag: one", .dateTime, [], none⟩] },
            { Catalog.Table.plain "account" "accountid" with
              displayName := some "sourceColumn: 'a'" }]
        edges := [.plain "salesorder" "customerid" "account"]
        calendar := some ⟨2020, 2021, 0, "salesorder", "createdon"⟩ }
    let supply : Supply := fun slot =>
      match slot with
      | .relationship _ => "edge"
      | _ => "tag"
    ∃ output, generate .standard supply selection = .ok output ∧
      output.definitions.contains Path.relationships = true ∧
      IsReadBack .standard supply selection (.ofDefinitions output.definitions) := by
  intro selection supply
  have written : (generate .standard supply selection).toOption.map (fun output =>
      output.definitions.contains Path.relationships) = some true := by
    decide +kernel
  obtain ⟨output, found, present⟩ := Option.map_eq_some_iff.mp written
  have generated := eq_ok_of_toOption found
  have names : HasStableNames .standard selection :=
    ⟨by decide +kernel, by decide +kernel, by decide +kernel, fun _ => by decide +kernel⟩
  have words : IsTag "edge" ∧ IsTag "tag" := by decide
  have tags : ∀ slot, IsTag (supply slot) := by
    intro slot
    cases slot with
    | relationship position => exact words.1
    | member table part => exact words.2
    | calendar part => exact words.2
    | parameter name => exact words.2
  exact ⟨output, generated, present, isReadBack_ofDefinitions generated names tags⟩

end Generation

end TabularModel
