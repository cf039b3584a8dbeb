import TabularModel.Proofs.Change.Paths
import TabularModel.Proofs.Generation.Readback
import TabularModel.Proofs.Plan.Offers
import TabularModel.Proofs.Regeneration

/-!
# The fact table of a run

A run is refused unless a selected table bears the name of the configured fact table, up to
letter case. The comparison then looks for a table under exactly this name as its key. Where
it finds the selected table, all its warnings about missing paths are about paths from there.
-/

set_option autoImplicit false

namespace TabularModel

open Catalog (Selection)
open Change (LeadsTo knownTables mergedDocument mergedRelationships missingPaths tableNames)
open Generation (Options Output Supply)
open Prior (HasDistinctTables IsTag fileBlocks name? relationshipText? tableBlocks tableKey?)
open Relation (ReflTransGen)

/-! ## The table that is meant -/

/-- A selected table with the name of the fact table, which no other one bears. -/
structure Catalog.Selection.Means (selection : Selection) (factTable : Text)
    (table : Catalog.Table) : Prop where
  member : table ∈ selection.tables
  named : Text.sameIgnoringCase table.logicalName factTable = true
  only : ∀ other ∈ selection.tables,
    Text.sameIgnoringCase other.logicalName factTable = true -> other = table

/-- What a run accepts as its fact table is one of the selected tables. -/
theorem Regeneration.exists_means {options : Options} {settings : Change.Settings}
    {selection : Selection} {factTable : Text} (configured : settings.factTable = some factTable)
    (accepted : checkFactTable settings selection = .ok ())
    (checked : Generation.check options selection = .ok ()) :
    ∃ table, selection.Means factTable table := by
  rw [checkFactTable, configured] at accepted
  simp only at accepted
  split at accepted
  · next has =>
      obtain ⟨table, member, named⟩ := List.any_eq_true.mp has
      refine ⟨table, member, named, fun other inside same => ?_⟩
      have names := (Generation.areDistinct_of_check checked).distinctNames
      exact List.inj_on_of_nodup_map names inside member
        ((Text.sameIgnoringCase_iff.mp same).trans (Text.sameIgnoringCase_iff.mp named).symm)
  · cases accepted

/-! ## Its block -/

/-- A block in the file of a table by which the comparison knows a key. -/
structure Change.Knows (fresh : DefinitionSet) (table : Catalog.Table) (key : Text)
    (block : Block) : Prop where
  inFile : block ∈ fileBlocks fresh (Path.table table.modelName)
  isKnown : block ∈ knownTables fresh
  key : tableKey? block = some key

namespace Generation

variable {options : Options} {supply : Supply} {selection : Selection} {output : Output}

theorem WrittenTable.header_freshBlock (supply : Supply) (table : WrittenTable) :
    tableKey? (table.freshBlock supply) = some (Text.trim table.outline.logicalName) ∧
      name? "table" (table.freshBlock supply) = some table.outline.name := by
  have reread := table.outline.isReread_freshState fun member => supply (table.slot member)
  exact ⟨reread.tableKey?, table.outline.name?_table reread.line⟩

/-- The file of a written table is read as one block. -/
theorem IsGenerated.fileBlocks_path {relationships : List Definition.Relationship}
    (generated : IsGenerated options supply selection relationships output)
    (names : ∀ plan ∈ plans options selection, plan.HasSingleLines)
    (tags : ∀ slot, IsTag (supply slot)) {table : WrittenTable}
    (member : table ∈ writtenTables options selection) :
    fileBlocks output.definitions table.path = [table.freshBlock supply] := by
  rw [fileBlocks, generated.get?_path member (isInTablesFolder_of_mem_writtenTables member),
    Option.elim_some, (isTableText_file (isReadable_of_mem_writtenTables names member) tags).ofText]
  rfl

theorem mem_tableBlocks_of_mem_fileBlocks {definitions : DefinitionSet} {path key : Text}
    (folder : Path.isInTablesFolder path = true) {block : Block}
    (member : block ∈ fileBlocks definitions path) (known : tableKey? block = some key) :
    block ∈ tableBlocks definitions := by
  rw [fileBlocks] at member
  cases found : definitions.get? path with
  | none =>
      rw [found] at member
      cases member
  | some text =>
      rw [found, Option.elim_some] at member
      exact List.mem_flatMap.mpr
        ⟨_, List.mem_filter.mpr ⟨SortedMap.mem_of_get? found, folder⟩,
          List.mem_filter.mpr ⟨member, Prior.hasHeader_of_tableKey? known⟩⟩

/-- A table whose names stand on one line is known by its logical name, if no other table
of the set is. -/
theorem exists_knows (generated : generate options supply selection = .ok output)
    (names : ∀ plan ∈ plans options selection, plan.HasSingleLines)
    (tags : ∀ slot, IsTag (supply slot)) (distinct : HasDistinctTables output.definitions)
    {table : Catalog.Table} (member : table ∈ selection.tables) :
    ∃ block, Change.Knows output.definitions table (Text.trim table.logicalName) block ∧
      name? "table" block = some table.modelName := by
  obtain ⟨relationships, isGenerated⟩ := exists_isGenerated generated
  let written := plannedTable options (.build (context options selection) table)
  have isWritten : written ∈ writtenTables options selection :=
    List.mem_append_left _ (List.mem_map_of_mem (List.mem_map_of_mem member))
  have planned := Plan.Table.isPlanned_build (context options selection) table
  have path : written.path = Path.table table.modelName := congrArg Path.table planned.name
  have logicalName : written.outline.logicalName = table.logicalName := planned.logicalName
  obtain ⟨key, named⟩ := written.header_freshBlock supply
  rw [logicalName] at key
  have inFile : written.freshBlock supply ∈
      fileBlocks output.definitions (Path.table table.modelName) := by
    rw [← path, isGenerated.fileBlocks_path names tags isWritten]
    exact List.mem_singleton_self _
  refine ⟨_, ⟨inFile, ?_, key⟩, named.trans (congrArg some planned.name)⟩
  exact (Change.mem_knownTables_iff_of_distinct distinct _).mpr
    (mem_tableBlocks_of_mem_fileBlocks (isInTablesFolder_table _) inFile key)

end Generation

/-! ## Warnings of a run -/

/-- The warnings about missing paths begin at a table: they name the tables, apart from the
calendar, to which no path of merged relationships leads from there, each of them once. -/
structure Change.StartsAt (start : Block) (earlier fresh : DefinitionSet) (changes : List Change) :
    Prop where
  once : (missingPaths changes).Nodup
  warned (table fact : Text) : (table, fact) ∈ missingPaths changes ↔
    name? "table" start = some fact ∧ table ∈ tableNames (knownTables fresh) ∧
      table ≠ Convention.calendarTable ∧
      ¬ReflTransGen (LeadsTo (knownTables fresh) (mergedRelationships earlier fresh)) fact table

/-- From a configured table that is known by its key all paths are searched. -/
theorem Change.startsAt_compare {settings : Settings} {factTable : Text}
    (configured : settings.factTable = some factTable) (earlier : DefinitionSet)
    {fresh : DefinitionSet} {start : Block} (isKnown : start ∈ knownTables fresh)
    (key : tableKey? start = some factTable) :
    StartsAt start earlier fresh (compare settings (.ofDefinitions earlier) fresh) := by
  have knows : settings.KnowsFactTable fresh := by
    intro other named
    rw [configured] at named
    cases named
    exact List.mem_filterMap.mpr ⟨start, mem_tableBlocks_of_mem_knownTables isKnown, key⟩
  have isStart (block : Block) : IsStart settings (knownTables fresh) block ↔ block = start := by
    constructor
    · rintro (⟨named, isBlock, known⟩ | ⟨unnamed, -, -, -, -⟩)
      · rw [configured] at named
        cases named
        have last := (getLast?_tableBlocksFor_iff factTable block).mpr ⟨isBlock, known⟩
        rw [(getLast?_tableBlocksFor_iff factTable start).mpr ⟨isKnown, key⟩] at last
        exact (Option.some.inj last).symm
      · rw [configured] at unnamed
        cases unnamed
    · rintro rfl
      exact .configured configured isKnown key
  have warns := warnsOfPaths_compare earlier knows
  refine ⟨warns.once, fun table fact => ?_⟩
  simp only [warns.warned, isStart, exists_eq_left]

/-- What was left out of the fresh set is no warning about paths. -/
theorem Regeneration.missingPaths_changes {options : Options} {settings : Change.Settings}
    {supply : Supply} {selection : Selection} {earlier : DefinitionSet} {result : Regeneration}
    (regenerated : regenerate options settings supply selection (some earlier) = .ok result) :
    ∃ fresh, Generation.generate options supply selection = .ok fresh ∧
      result.definitions = merge fresh.definitions (.ofDefinitions earlier) ∧
      missingPaths result.changes =
        missingPaths (Change.compare settings (.ofDefinitions earlier) fresh.definitions) := by
  obtain ⟨-, fresh, generated, rfl⟩ := exists_eq_of_regenerate regenerated
  have silent : Change.IsSilent (fresh.diagnostics.map ofDiagnostic) :=
    Change.isSilent_map _ fun _ => rfl
  refine ⟨fresh, generated, rfl, ?_⟩
  rw [Change.missingPaths_append, silent, List.append_nil]
  rfl

/-- The accepted fact table is the one that is checked. A run with a configured fact table means
one selected table. If the comparison knows this table by the configured name, the warnings
about missing paths are exactly those about paths from it, over the relationships of the merged
file. And it knows a table by its logical name if no other table of the set has its key, where
the names stand on one line each. -/
theorem regenerate_checksFactTable {options : Options} {settings : Change.Settings}
    {supply : Supply} {selection : Selection} {earlier : DefinitionSet} {result : Regeneration}
    {factTable : Text}
    (regenerated : regenerate options settings supply selection (some earlier) = .ok result)
    (configured : settings.factTable = some factTable) :
    ∃ fresh table, Generation.generate options supply selection = .ok fresh ∧
      selection.Means factTable table ∧
      result.definitions.get? Path.relationships =
        relationshipText? (mergedDocument earlier fresh.definitions).blocks ∧
      (∀ start, Change.Knows fresh.definitions table factTable start ->
        Change.StartsAt start earlier fresh.definitions result.changes) ∧
      (HasDistinctTables fresh.definitions ->
        (∀ block, block ∈ knownTables fresh.definitions ↔ block ∈ tableBlocks fresh.definitions) ∧
        ((∀ plan ∈ Generation.plans options selection, plan.HasSingleLines) ->
          (∀ slot, IsTag (supply slot)) -> factTable = Text.trim table.logicalName ->
          ∃ start, Change.Knows fresh.definitions table factTable start ∧
            name? "table" start = some table.modelName)) := by
  have accepted := (Regeneration.exists_of_regenerate regenerated).1
  obtain ⟨fresh, generated, definitions, warnings⟩ :=
    Regeneration.missingPaths_changes regenerated
  obtain ⟨relationships, isGenerated⟩ := Generation.exists_isGenerated generated
  obtain ⟨table, means⟩ := Regeneration.exists_means configured accepted isGenerated.checked
  obtain ⟨-, written⟩ := Prior.get?_relationships_merge isGenerated (.ofDefinitions earlier)
  refine ⟨fresh, table, generated, means, definitions ▸ written, fun start knows => ?_,
    fun distinct => ⟨Change.mem_knownTables_iff_of_distinct distinct, ?_⟩⟩
  · have starts := Change.startsAt_compare configured earlier knows.isKnown knows.key
    exact ⟨warnings ▸ starts.once, fun table fact => warnings ▸ starts.warned table fact⟩
  · rintro names tags rfl
    exact Generation.exists_knows generated names tags distinct means.member

/-- Two tables without a relationship, of which the second one has a row count. -/
def accountsAndSales : Selection :=
  { modelName := "Sales"
    tables := [.plain "account" "accountid",
      { Catalog.Table.plain "opportunity" "opportunityid" with role := .fact }]
    edges := []
    calendar := none }

/-- The configured table is not the one with a row count. -/
theorem regenerate_checksFactTable_account :
    let settings : Change.Settings := { Change.Settings.standard with factTable := some "account" }
    let supply : Supply := fun _ => "fresh"
    ∃ result fresh start,
      regenerate .standard settings supply accountsAndSales (some .empty) = .ok result ∧
      missingPaths result.changes = [(("opportunity" : Text), ("account" : Text))] ∧
      Generation.generate .standard supply accountsAndSales = .ok fresh ∧
      name? "table" start = some "account" ∧
      Change.StartsAt start .empty fresh.definitions result.changes := by
  intro settings supply
  have computed : (regenerate .standard settings supply accountsAndSales
        (some .empty)).toOption.map (fun result => missingPaths result.changes) =
          some [(("opportunity" : Text), ("account" : Text))] ∧
      (Generation.generate .standard supply accountsAndSales).toOption.map
        (fun output => decide (HasDistinctTables output.definitions)) = some true := by
    decide +kernel
  obtain ⟨written, keys⟩ := computed
  obtain ⟨result, found, warnings⟩ := Option.map_eq_some_iff.mp written
  have regenerated := Generation.eq_ok_of_toOption found
  obtain ⟨fresh, table, generated, means, -, starts, known⟩ :=
    regenerate_checksFactTable regenerated rfl
  rw [generated] at keys
  have distinct := of_decide_eq_true (Option.some.inj keys)
  obtain rfl := means.only (.plain "account" "accountid") List.mem_cons_self (by decide)
  obtain ⟨start, knows, named⟩ := (known distinct).2 (by decide +kernel) (fun _ => by decide) rfl
  exact ⟨result, fresh, start, regenerated, warnings, generated, named, starts start knows⟩

/-- The configured name may differ from the logical name in letter case. It is accepted, but no
table is known by it, and the paths are searched from another table. -/
theorem regenerate_checksOtherTable :
    let settings : Change.Settings := { Change.Settings.standard with factTable := some "Account" }
    let supply : Supply := fun _ => "fresh"
    ∃ result, regenerate .standard settings supply accountsAndSales (some .empty) = .ok result ∧
      accountsAndSales.Means "Account" (.plain "account" "accountid") ∧
      missingPaths result.changes = [(("account" : Text), ("opportunity" : Text))] := by
  intro settings supply
  have written : (regenerate .standard settings supply accountsAndSales (some .empty)).toOption.map
      (fun result => missingPaths result.changes) =
        some [(("account" : Text), ("opportunity" : Text))] := by
    decide +kernel
  obtain ⟨result, found, warnings⟩ := Option.map_eq_some_iff.mp written
  refine ⟨result, Generation.eq_ok_of_toOption found, ⟨List.mem_cons_self, by decide, ?_⟩, warnings⟩
  intro other member same
  rcases List.mem_pair.mp member with rfl | rfl
  · rfl
  · exact absurd same (by decide)

end TabularModel
