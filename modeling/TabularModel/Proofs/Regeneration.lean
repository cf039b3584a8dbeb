import TabularModel.Proofs.Generation.Names
import TabularModel.Proofs.Prior.Expressions
import TabularModel.Proofs.Prior.KeptRelationships
import TabularModel.Proofs.Prior.Orderly
import TabularModel.Regeneration

/-!
# Regeneration reaches a fixed point

A definition set that was regenerated is regenerated as it is, whatever fresh
identifiers are drawn. Its table files hold settled tables, each of which is
found again under its logical name, its file of relationships holds the merged
blocks, and the tags of its parameters are found under their names.
-/

set_option autoImplicit false

namespace TabularModel

open Catalog (Selection)
open Generation (Options Supply WrittenTable)
open Prior (IsTag knownOf mergeFile mergedBlocks relationshipText?)

namespace Generation

variable {options : Options} {supply : Supply} {selection : Selection}
variable {relationships : List Definition.Relationship} {fresh : Output}

/-! ## Table files -/

/-- The file of a table is found under its path. -/
theorem IsGenerated.get?_path
    (generated : IsGenerated options supply selection relationships fresh) {table : WrittenTable}
    (member : table ∈ writtenTables options selection)
    (isTable : Path.isInTablesFolder table.path = true) :
    fresh.definitions.get? table.path = some (table.file supply).2 := by
  rw [generated.definitions]
  refine SortedMap.get?_ofList_of_mem ?_ ?_
  · rw [files_eq]
    exact List.mem_append_left _ (List.mem_map.mpr ⟨table, member, rfl⟩)
  · intro entry inside same
    obtain ⟨other, otherMember, rfl⟩ := exists_writtenTable_of_mem_files inside (same ▸ isTable)
    have equal : other = table := List.inj_on_of_nodup_map (nodup_paths generated.checked)
      otherMember member same
    rw [equal]

/-- A merged table file is that of a written table. -/
theorem IsGenerated.exists_table_of_mem_merge
    (generated : IsGenerated options supply selection relationships fresh) {earlier : Prior.Model}
    {entry : Text × Text} (member : entry ∈ (merge fresh.definitions earlier).entries)
    (isTable : Path.isInTablesFolder entry.1 = true) :
    ∃ table ∈ writtenTables options selection,
      entry = (table.path, mergeFile earlier table.path (table.file supply).2) := by
  have found := SortedMap.get?_of_mem member
  rw [get?_merge_of_ne _ _ (relationships_ne_of_isInTablesFolder isTable),
    Option.map_eq_some_iff] at found
  obtain ⟨text, isFresh, merged⟩ := found
  have inside := SortedMap.mem_of_get? isFresh
  rw [generated.definitions] at inside
  obtain ⟨table, tableMember, same⟩ :=
    exists_writtenTable_of_mem_files (SortedMap.mem_of_mem_ofList inside) isTable
  refine ⟨table, tableMember, ?_⟩
  have path : table.path = entry.1 := congrArg Prod.fst same
  rw [path, same, merged]

/-- Every table block of a merged set is that of a written table. -/
theorem IsGenerated.exists_of_mem_tableBlocks
    (generated : IsGenerated options supply selection relationships fresh) {earlier : Prior.Model}
    {block : Block} (member : block ∈ Prior.tableBlocks (merge fresh.definitions earlier)) :
    ∃ table ∈ writtenTables options selection,
      block ∈ (Document.ofText (mergeFile earlier table.path (table.file supply).2)).blocksWith
        "table" := by
  obtain ⟨file, inside, isBlock⟩ := List.mem_flatMap.mp member
  obtain ⟨fileMember, isTable⟩ := List.mem_filter.mp inside
  obtain ⟨table, tableMember, rfl⟩ := generated.exists_table_of_mem_merge fileMember isTable
  exact ⟨table, tableMember, isBlock⟩

theorem IsGenerated.mem_tableBlocks
    (generated : IsGenerated options supply selection relationships fresh) {earlier : Prior.Model}
    {table : WrittenTable} (member : table ∈ writtenTables options selection)
    (isTable : Path.isInTablesFolder table.path = true) {block : Block}
    (inside : block ∈
      (Document.ofText (mergeFile earlier table.path (table.file supply).2)).blocksWith "table") :
    block ∈ Prior.tableBlocks (merge fresh.definitions earlier) := by
  have found : (merge fresh.definitions earlier).get? table.path =
      some (mergeFile earlier table.path (table.file supply).2) := by
    rw [get?_merge_of_ne _ _ (relationships_ne_of_isInTablesFolder isTable),
      generated.get?_path member isTable, Option.map_some]
  exact List.mem_flatMap.mpr
    ⟨_, List.mem_filter.mpr ⟨SortedMap.mem_of_get? found, isTable⟩, inside⟩

/-- A table of a merged set, with the states that its block shows. -/
structure IsSettledIn (supply : Supply) (earlier : DefinitionSet) (table : WrittenTable)
    (states : Definition.Column -> Definition.ColumnState) (state : Definition.TableState) : Prop where
  settled : table.outline.IsSettled states state
  merged : mergeFile (.ofDefinitions earlier) table.path (table.file supply).2 =
    Document.render ⟨[table.outline.block state], true⟩

/-- Nothing but the block of a settled table is read from its file. -/
theorem IsSettledIn.blocksWith_table {earlier : DefinitionSet} {table : WrittenTable}
    {states : Definition.Column -> Definition.ColumnState} {state : Definition.TableState}
    (settled : IsSettledIn supply earlier table states state) (stable : table.IsStable) :
    (Document.ofText (mergeFile (.ofDefinitions earlier) table.path (table.file supply).2)).blocksWith
        "table" = [table.outline.block state] ∧
      Prior.tableKey? (table.outline.block state) = some table.outline.logicalName := by
  have key := settled.settled.isReread.tableKey?
  have header := Prior.hasHeader_of_tableKey? key
  have trimmed : Text.trim table.outline.logicalName = table.outline.logicalName := stable.logicalName
  rw [settled.merged, Definition.TableOutline.ofText_render_of_isSettled stable.readable
    settled.settled, Document.blocksWith, List.filter_cons_of_pos header, List.filter_nil, key, trimmed]
  exact ⟨rfl, rfl⟩

/-- Tables of a merged set are found again under their logical names. -/
theorem IsGenerated.get?_tables_merge
    (generated : IsGenerated options supply selection relationships fresh)
    (names : HasStableTables options selection) {earlier : DefinitionSet}
    (settles : ∀ table ∈ writtenTables options selection,
      ∃ states state, IsSettledIn supply earlier table states state)
    {table : WrittenTable} (member : table ∈ writtenTables options selection)
    {states : Definition.Column -> Definition.ColumnState} {state : Definition.TableState}
    (settled : IsSettledIn supply earlier table states state) :
    (Prior.Model.ofDefinitions (merge fresh.definitions (.ofDefinitions earlier))).tables.get?
        table.outline.logicalName =
      Prior.readTable? (table.outline.block state) := by
  have stable := isStable_of_mem_writtenTables names member
  obtain ⟨blocks, key⟩ := settled.blocksWith_table stable
  have only : ∀ block ∈ Prior.tableBlocksFor (merge fresh.definitions (.ofDefinitions earlier))
      table.outline.logicalName, block = table.outline.block state := by
    intro block inside
    obtain ⟨isBlock, known⟩ := List.mem_filter.mp inside
    obtain ⟨other, otherMember, isOther⟩ := generated.exists_of_mem_tableBlocks isBlock
    obtain ⟨otherStates, otherState, otherSettled⟩ := settles other otherMember
    obtain ⟨otherBlocks, otherKey⟩ :=
      otherSettled.blocksWith_table (isStable_of_mem_writtenTables names otherMember)
    rw [otherBlocks] at isOther
    rw [List.mem_singleton.mp isOther, otherKey] at known
    have equal : other = table := List.inj_on_of_nodup_map
      (nodup_logicalNames names generated.checked) otherMember member (by simpa using known)
    subst equal
    rw [blocks] at otherBlocks
    rw [List.mem_singleton.mp isOther]
    exact (List.cons.inj otherBlocks).1.symm
  have inside : table.outline.block state ∈ Prior.tableBlocksFor
      (merge fresh.definitions (.ofDefinitions earlier)) table.outline.logicalName :=
    List.mem_filter.mpr ⟨generated.mem_tableBlocks member stable.path
      (blocks ▸ List.mem_singleton_self _), by simp [key]⟩
  rw [Prior.get?_tables]
  cases last : (Prior.tableBlocksFor (merge fresh.definitions (.ofDefinitions earlier))
      table.outline.logicalName).getLast? with
  | none =>
      rw [List.getLast?_eq_none_iff.mp last] at inside
      cases inside
  | some block => rw [only block (List.mem_of_getLast? last), Option.bind_some]

/-! ## Relationships -/

/-- The fresh blocks stand in the fresh set. -/
theorem IsGenerated.get?_relationships_fresh
    (generated : IsGenerated options supply selection relationships fresh) :
    fresh.definitions.get? Path.relationships =
      relationshipText? (mergedBlocks [] (fun position => supply (.relationship position))
        relationships) := by
  rw [generated.get?_relationships, relationshipText?, ← Prior.fileText_relationshipLines,
    Prior.mergedBlocks_nil]
  cases relationships with
  | nil => rfl
  | cons relationship relationships =>
      rw [List.mapIdx_cons]
      rfl

/-- The merged blocks stand in the merged set. -/
theorem IsGenerated.get?_relationships_merge
    (generated : IsGenerated options supply selection relationships fresh)
    (names : ∀ plan ∈ plans options selection, plan.HasSingleLines)
    (tags : ∀ slot, IsTag (supply slot)) (earlier : DefinitionSet) :
    (merge fresh.definitions (.ofDefinitions earlier)).get? Path.relationships =
      relationshipText? (mergedBlocks (knownOf earlier)
        (fun position => supply (.relationship position)) relationships) := by
  have ends := generated.hasEnds names
  have nested := Prior.isNested_of_mem_mergedBlocks Prior.areKnown_nil ends
    fun position => tags (.relationship position)
  obtain ⟨-, written⟩ := Prior.get?_relationships_merge generated (.ofDefinitions earlier)
  rw [written, Prior.fileBlocks_of_relationshipText? generated.get?_relationships_fresh
    fun block member => (nested block member).1, Prior.mergedBlocks_nil, Prior.mergeRelationships_blocks _
      (fun position => Text.isTrimmed_of_noBlank _ (tags (.relationship position)).visible)
      ends]
  rfl

/-! ## The second pass -/

/-- An earlier set in which people have kept the places of what they edited, and
have taken no name of a row count for a measure of their own. -/
structure IsOrderlyFor (definitions : DefinitionSet) (selection : Selection) : Prop where
  places : Prior.IsOrderly definitions
  counts : ∀ table ∈ selection.tables,
    Prior.CountIsFree definitions table.logicalName table.modelName
  calendarCount : selection.calendar.isSome = true ->
    Prior.CountIsFree definitions Convention.calendarTable Convention.calendarTable

/-- Every table that is merged with an orderly set is settled. -/
theorem exists_isSettledIn (names : HasStableTables options selection)
    (tags : ∀ slot, IsTag (supply slot)) {earlier : DefinitionSet}
    (orderly : IsOrderlyFor earlier selection) {table : WrittenTable}
    (member : table ∈ writtenTables options selection) :
    ∃ states state, IsSettledIn supply earlier table states state := by
  have stable := isStable_of_mem_writtenTables names member
  have free : Prior.CountIsFree earlier table.outline.logicalName table.outline.name := by
    rcases List.mem_append.mp member with planned | calendar
    · obtain ⟨plan, inside, rfl⟩ := List.mem_map.mp planned
      obtain ⟨own, ownMember, _, name, logicalName⟩ := exists_table_of_mem_plans inside
      have counts := orderly.counts own ownMember
      rw [← name, ← logicalName] at counts
      exact counts
    · rw [Option.mem_toList, Option.map_eq_some_iff] at calendar
      obtain ⟨calendar, configured, rfl⟩ := calendar
      exact orderly.calendarCount (by rw [configured]; rfl)
  have trimmed : Text.trim table.outline.logicalName = table.outline.logicalName := stable.logicalName
  rw [← trimmed] at free
  obtain ⟨states, state, settled, merged⟩ := Definition.TableOutline.exists_settled_mergeFile
    (isTableText_file stable.readable tags) stable.trimmed orderly.places free stable.path
  exact ⟨states, state, settled, merged⟩

variable {other : Supply} {again : Output} {earlier : DefinitionSet}

/-- A table file that was merged is reached again by a merge with the merged set. -/
theorem IsGenerated.mergeFile_table_again
    (generated : IsGenerated options supply selection relationships fresh)
    (names : HasStableTables options selection) (tags : ∀ slot, IsTag (supply slot))
    (others : ∀ slot, IsTag (other slot)) (orderly : IsOrderlyFor earlier selection)
    {table : WrittenTable} (member : table ∈ writtenTables options selection) :
    mergeFile (.ofDefinitions (merge fresh.definitions (.ofDefinitions earlier))) table.path
        (table.file other).2 =
      mergeFile (.ofDefinitions earlier) table.path (table.file supply).2 := by
  have stable := isStable_of_mem_writtenTables names member
  have trimmed : Text.trim table.outline.logicalName = table.outline.logicalName := stable.logicalName
  obtain ⟨states, state, settled⟩ := exists_isSettledIn names tags orderly member
  have known := generated.get?_tables_merge names
    (fun _ inside => exists_isSettledIn names tags orderly inside) member settled
  rw [settled.merged]
  exact Definition.TableOutline.mergeFile_of_isSettled (isTableText_file stable.readable others)
    stable.sources settled.settled (trimmed.symm ▸ known) stable.path

theorem IsGenerated.knownOf_merge
    (generated : IsGenerated options supply selection relationships fresh)
    (names : ∀ plan ∈ plans options selection, plan.HasSingleLines)
    (tags : ∀ slot, IsTag (supply slot)) (orderly : Prior.IsOrderly earlier) :
    knownOf (merge fresh.definitions (.ofDefinitions earlier)) =
      Prior.knownAmong (mergedBlocks (knownOf earlier)
        (fun position => supply (.relationship position)) relationships) :=
  Prior.knownOf_of_get? (Prior.areKnown_ofDefinitions orderly) (generated.hasEnds names)
    (fun _ => tags _)
    (generated.get?_relationships_merge names tags earlier)

/-- The blocks of relationships are reached again. -/
theorem IsGenerated.mergedBlocks_again
    (generated : IsGenerated options supply selection relationships fresh)
    (names : HasStableTables options selection) (tags : ∀ slot, IsTag (supply slot))
    (orderly : Prior.IsOrderly earlier) (tag : Nat -> Text) :
    mergedBlocks (knownOf (merge fresh.definitions (.ofDefinitions earlier))) tag relationships =
      mergedBlocks (knownOf earlier) (fun position => supply (.relationship position))
        relationships := by
  rw [generated.knownOf_merge (hasSingleLines_of_mem_plans names) tags orderly]
  exact Prior.mergedBlocks_again (Prior.areKnown_ofDefinitions orderly)
    (areApart_of_isGenerated names generated) (fun _ => tags _) tag

theorem mergeFile_modelFile (earlier : Prior.Model) (text : Text) :
    mergeFile earlier Path.model text = text ∧ mergeFile earlier Path.database text = text := by
  have paths : ∀ path ∈ [Path.model, Path.database], Path.isInTablesFolder path = false ∧
      path ≠ Path.relationships ∧ path ≠ Path.expressions := by decide
  have kept (path : Text) (member : path ∈ [Path.model, Path.database]) :
      mergeFile earlier path text = text := by
    obtain ⟨folder, relationships, expressions⟩ := paths path member
    exact mergeFile_of_other earlier text folder relationships expressions
  exact ⟨kept Path.model (by simp), kept Path.database (by simp)⟩

/-- The other files are reached again too. -/
theorem IsGenerated.map_mergeFile_modelFiles_again
    (generated : IsGenerated options supply selection relationships fresh)
    (names : HasStableNames options selection) (tags : ∀ slot, IsTag (supply slot))
    (others : ∀ slot, IsTag (other slot)) :
    (modelFiles options other selection).map (fun file => (file.1, mergeFile
        (.ofDefinitions (merge fresh.definitions (.ofDefinitions earlier))) file.1 file.2)) =
      (modelFiles options supply selection).map fun file =>
        (file.1, mergeFile (.ofDefinitions earlier) file.1 file.2) := by
  have different : Path.relationships ≠ Path.expressions := by decide
  have isFresh := generated.get?_of_mem_others (List.mem_append_right _ List.mem_cons_self)
  have written : (merge fresh.definitions (.ofDefinitions earlier)).get? Path.expressions =
      some (mergeFile (.ofDefinitions earlier) Path.expressions
        (Definition.parametersText options.connection fun name => supply (.parameter name))) := by
    rw [get?_merge_of_ne _ _ different, isFresh, Option.map_some]
  have parameters := Definition.mergeFile_parametersText_again
    (Definition.areReadable_parameters names.parameters) (fun name => tags (.parameter name))
    (fun name => others (.parameter name)) earlier written
  simp only [modelFiles, List.map_cons, List.map_nil, parameters, (mergeFile_modelFile _ _).1,
    (mergeFile_modelFile _ _).2]

theorem IsGenerated.mapValues_mergeFile
    (generated : IsGenerated options supply selection relationships fresh) (earlier : Prior.Model) :
    fresh.definitions.mapValues (mergeFile earlier) =
      .ofList
        (((writtenTables options selection).map (WrittenTable.file supply)).map (fun file =>
            (file.1, mergeFile earlier file.1 file.2)) ++
          ((relationshipFile supply relationships).map (fun file =>
              (file.1, mergeFile earlier file.1 file.2)) ++
            (modelFiles options supply selection).map fun file =>
              (file.1, mergeFile earlier file.1 file.2))) := by
  rw [generated.definitions, SortedMap.mapValues_ofList, files_eq, List.map_append, List.map_append]

/-- The result of a merge is settled by the merged files and by the relationships
that are added to a set without any. -/
theorem merge_eq_merge {fresh again : DefinitionSet} {left right : Prior.Model}
    (merged : again.mapValues (mergeFile left) = fresh.mapValues (mergeFile right))
    (contained : again.contains Path.relationships = fresh.contains Path.relationships)
    (added : fresh.contains Path.relationships = false ->
      Prior.mergeRelationships left .empty = Prior.mergeRelationships right .empty) :
    merge again left = merge fresh right := by
  rw [merge, merge, merged, contained]
  split
  · rfl
  · next absent => rw [added (by simpa using absent)]

/-- A merge with the merged set is the merged set. -/
theorem IsGenerated.merge_again
    (generated : IsGenerated options supply selection relationships fresh)
    (regenerated : IsGenerated options other selection relationships again)
    (names : HasStableNames options selection) (tags : ∀ slot, IsTag (supply slot))
    (others : ∀ slot, IsTag (other slot)) (orderly : IsOrderlyFor earlier selection) :
    merge again.definitions (.ofDefinitions (merge fresh.definitions (.ofDefinitions earlier))) =
      merge fresh.definitions (.ofDefinitions earlier) := by
  have ends := generated.hasEnds (hasSingleLines_of_mem_plans names.stableTables)
  have blocks (tag : Nat -> Text) := generated.mergedBlocks_again names.stableTables tags orderly.places tag
  have tables : ((writtenTables options selection).map (WrittenTable.file other)).map (fun file =>
      (file.1, mergeFile (.ofDefinitions (merge fresh.definitions (.ofDefinitions earlier))) file.1
        file.2)) =
      ((writtenTables options selection).map (WrittenTable.file supply)).map fun file =>
        (file.1, mergeFile (.ofDefinitions earlier) file.1 file.2) := by
    rw [List.map_map, List.map_map]
    refine List.map_congr_left fun table member => congrArg (Prod.mk table.path) ?_
    exact generated.mergeFile_table_again names.stableTables tags others orderly member
  have relationshipFiles : (relationshipFile other relationships).map (fun file =>
      (file.1, mergeFile (.ofDefinitions (merge fresh.definitions (.ofDefinitions earlier))) file.1
        file.2)) =
      (relationshipFile supply relationships).map fun file =>
        (file.1, mergeFile (.ofDefinitions earlier) file.1 file.2) := by
    rw [relationshipFile, relationshipFile]
    split
    · rfl
    · simp only [List.map_cons, List.map_nil,
        Prior.mergeFile_relationships ends (fun _ => others _),
        Prior.mergeFile_relationships ends (fun _ => tags _), blocks]
  have present := generated.get?_relationships
  refine merge_eq_merge ?_ ?_ fun absent => ?_
  · rw [regenerated.mapValues_mergeFile, generated.mapValues_mergeFile, tables, relationshipFiles,
      generated.map_mergeFile_modelFiles_again names tags others]
  · rw [SortedMap.contains_eq, SortedMap.contains_eq, present, regenerated.get?_relationships]
    split <;> rfl
  · rw [SortedMap.contains_eq, present] at absent
    have none : relationships = [] := by
      by_contra some
      rw [if_neg fun empty => some (List.isEmpty_iff.mp empty)] at absent
      exact Bool.noConfusion absent
    subst none
    rw [Prior.mergeRelationships_empty fun position => supply (.relationship position),
      Prior.mergeRelationships_empty fun position => supply (.relationship position), blocks]

end Generation

/-! ## Regeneration -/

namespace Regeneration

/-- Whether a selection becomes a model does not depend on the identifiers. -/
theorem exists_isGenerated_again {options : Options} {supply : Supply} {selection : Selection}
    {relationships : List Definition.Relationship} {fresh : Generation.Output}
    (generated : Generation.IsGenerated options supply selection relationships fresh)
    (other : Supply) :
    ∃ again, Generation.generate options other selection = .ok again ∧
      Generation.IsGenerated options other selection relationships again := by
  obtain ⟨toCalendar, found, rfl⟩ := generated.calendar
  obtain ⟨again, regenerated⟩ : ∃ again, Generation.generate options other selection = .ok again := by
    rw [Generation.generate, generated.checked]
    simp only [found]
    exact ⟨_, rfl⟩
  obtain ⟨_, isGenerated⟩ := Generation.exists_isGenerated regenerated
  obtain ⟨otherToCalendar, otherFound, rfl⟩ := isGenerated.calendar
  cases found.symm.trans otherFound
  exact ⟨again, regenerated, isGenerated⟩

variable {options : Options} {settings : Change.Settings} {supply : Supply}
variable {selection : Selection} {earlier : Option DefinitionSet}

/-- What makes up the result of a run. -/
theorem exists_eq_of_regenerate {result : Regeneration}
    (regenerated : regenerate options settings supply selection earlier = .ok result) :
    checkFactTable settings selection = .ok () ∧
      ∃ fresh, Generation.generate options supply selection = .ok fresh ∧
        result = ⟨merge fresh.definitions (earlierModel earlier),
          changesFrom settings earlier fresh.definitions ++ fresh.diagnostics.map ofDiagnostic,
          fresh.diagnostics⟩ := by
  rw [regenerate] at regenerated
  cases checked : checkFactTable settings selection with
  | error fault =>
      rw [checked] at regenerated
      cases regenerated
  | ok done =>
      rw [checked] at regenerated
      cases generated : Generation.generate options supply selection with
      | error fault =>
          rw [generated] at regenerated
          cases regenerated
      | ok fresh =>
          rw [generated] at regenerated
          cases regenerated
          exact ⟨rfl, fresh, rfl, rfl⟩

/-- What is regenerated is a generated set that is merged with the earlier one. -/
theorem exists_of_regenerate {result : Regeneration}
    (regenerated : regenerate options settings supply selection earlier = .ok result) :
    checkFactTable settings selection = .ok () ∧
      ∃ fresh, Generation.generate options supply selection = .ok fresh ∧
        result.definitions = merge fresh.definitions (earlierModel earlier) := by
  obtain ⟨checked, fresh, generated, rfl⟩ := exists_eq_of_regenerate regenerated
  exact ⟨checked, fresh, generated, rfl⟩

theorem exists_regenerate (checked : checkFactTable settings selection = .ok ())
    {fresh : Generation.Output} (generated : Generation.generate options supply selection = .ok fresh)
    (earlier : Option DefinitionSet) :
    ∃ result, regenerate options settings supply selection earlier = .ok result ∧
      result.definitions = merge fresh.definitions (earlierModel earlier) := by
  rw [regenerate, checked, generated]
  exact ⟨_, rfl, rfl⟩

theorem earlierModel_eq (earlier : Option DefinitionSet) :
    earlierModel earlier = .ofDefinitions (earlier.getD .empty) := by
  cases earlier <;> rfl

theorem isOrderlyFor_empty (selection : Selection) :
    Generation.IsOrderlyFor .empty selection := by
  have tables (key name : Text) : Prior.CountIsFree .empty key name := by
    intro table member
    cases member
  exact ⟨⟨nofun, nofun, nofun⟩, fun _ _ => tables _ _, fun _ => tables _ _⟩

theorem isOrderlyFor_getD
    (orderly : ∀ definitions ∈ earlier, Generation.IsOrderlyFor definitions selection) :
    Generation.IsOrderlyFor (earlier.getD .empty) selection := by
  cases earlier with
  | none => exact isOrderlyFor_empty selection
  | some definitions => exact orderly definitions rfl

end Regeneration

/-- Regeneration reaches a fixed point in one pass: what was regenerated against
an earlier set, or against none, is regenerated as it is. -/
theorem regenerate_again {options : Options} {settings : Change.Settings} {supply other : Supply}
    {selection : Selection} {earlier : Option DefinitionSet} {first : Regeneration}
    (regenerated : regenerate options settings supply selection earlier = .ok first)
    (names : Generation.HasStableNames options selection)
    (orderly : ∀ definitions ∈ earlier, Generation.IsOrderlyFor definitions selection)
    (tags : ∀ slot, IsTag (supply slot)) (others : ∀ slot, IsTag (other slot)) :
    ∃ second, regenerate options settings other selection (some first.definitions) = .ok second ∧
      second.definitions = first.definitions := by
  obtain ⟨checked, fresh, generated, definitions⟩ := Regeneration.exists_of_regenerate regenerated
  obtain ⟨relationships, isGenerated⟩ := Generation.exists_isGenerated generated
  obtain ⟨again, generatedAgain, isGeneratedAgain⟩ :=
    Regeneration.exists_isGenerated_again isGenerated other
  obtain ⟨second, regeneratedAgain, same⟩ :=
    Regeneration.exists_regenerate checked generatedAgain (some first.definitions)
  rw [Regeneration.earlierModel_eq] at definitions
  refine ⟨second, regeneratedAgain, ?_⟩
  rw [same, Regeneration.earlierModel_eq, Option.getD_some, definitions]
  exact isGenerated.merge_again isGeneratedAgain names tags others
    (Regeneration.isOrderlyFor_getD orderly)

/-- A table that has got another name, and a measure of its own, since the earlier
set was written. -/
theorem regenerate_again_renamed :
    let selection : Selection :=
      { modelName := "Sales"
        tables := [{ Catalog.Table.plain "account" "accountid" with
          displayName := some "Customer", role := .fact }]
        edges := []
        calendar := none }
    let supply : Supply := fun _ => "first"
    let other : Supply := fun _ => "second"
    let earlier : DefinitionSet := .ofList
      [ ("definition/tables/Account.tmdl",
          "table Account\n\tlineageTag: old\n\n\tmeasure Total = 1\n\n\tannotation SemforgeLogicalName = account\n"),
        ("definition/relationships.tmdl",
          "relationship mine\n\tfromColumn: Account.a\n\ttoColumn: Other.b\n") ]
    ∃ first second,
      regenerate .standard .standard supply selection (some earlier) = .ok first ∧
      regenerate .standard .standard other selection (some first.definitions) = .ok second ∧
      second.definitions = first.definitions := by
  intro selection supply other earlier
  have accepted : (regenerate .standard .standard supply selection
      (some earlier)).toOption.isSome = true := by decide +kernel
  obtain ⟨first, found⟩ := Option.isSome_iff_exists.mp accepted
  have regenerated := Generation.eq_ok_of_toOption found
  have names : Generation.HasStableNames .standard selection :=
    ⟨by decide +kernel, by decide +kernel, by decide +kernel, nofun⟩
  have orderly : Generation.IsOrderlyFor earlier selection :=
    ⟨by decide +kernel, by decide +kernel, nofun⟩
  have tags : IsTag "first" ∧ IsTag "second" := by decide
  obtain ⟨second, again, same⟩ := regenerate_again regenerated names
    (fun _ member => Option.some.inj member ▸ orderly) (fun _ => tags.1) (fun _ => tags.2)
  exact ⟨first, second, regenerated, again, same⟩

end TabularModel
