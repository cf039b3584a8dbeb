import Mathlib.Data.List.Dedup
import TabularModel.Proofs.Change.NothingLost
import TabularModel.Proofs.Change.Reachability

/-!
# Warnings about missing paths

The comparison follows relationships before anything is merged, and decides by itself which
earlier ones will stay. Still its warnings are about the merged file: they name the tables to
which no path of merged relationships leads from the fact table. Of several tables with one
key the comparison sees the last one alone.
-/

set_option autoImplicit false

namespace TabularModel

open Prior (HasDistinctTables IsReadFrom isAdded knownOf measureNames mergeRelationship name?
  readTable? relationshipBlocks relationshipKey? relationshipKeys relationshipText? tableBlocks
  tableBlocksFor tableKey? withoutDescriptions)

namespace Change

open Relation (ReflTransGen)

/-! ## Warnings of a comparison -/

/-- The table out of reach that a change warns about, and the fact table. -/
def unreachable? : Change -> Option (Text × Text)
  | .unreachable table fact => some (table, fact)
  | _ => none

def missingPaths (changes : List Change) : List (Text × Text) :=
  changes.filterMap unreachable?

def IsSilent (changes : List Change) : Prop :=
  missingPaths changes = []

variable {settings : Settings}

@[simp] theorem missingPaths_append (front back : List Change) :
    missingPaths (front ++ back) = missingPaths front ++ missingPaths back :=
  List.filterMap_append

theorem missingPaths_append_of_isSilent {front : List Change} (silent : IsSilent front)
    (back : List Change) : missingPaths (front ++ back) = missingPaths back := by
  rw [missingPaths_append, silent, List.nil_append]

theorem isSilent_append {front back : List Change} :
    IsSilent (front ++ back) ↔ IsSilent front ∧ IsSilent back := by
  rw [IsSilent, missingPaths_append, List.append_eq_nil_iff]
  rfl

theorem isSilent_map {α : Type} (items : List α) {changeOf : α -> Change}
    (silent : ∀ item, unreachable? (changeOf item) = none) : IsSilent (items.map changeOf) := by
  rw [IsSilent, missingPaths, List.filterMap_map, List.filterMap_eq_nil_iff]
  exact fun item _ => silent item

theorem isSilent_flatMap {α : Type} (items : List α) {changesOf : α -> List Change}
    (silent : ∀ item, IsSilent (changesOf item)) : IsSilent (items.flatMap changesOf) := by
  rw [IsSilent, missingPaths, List.filterMap_flatMap, List.flatMap_eq_nil_iff]
  exact fun item _ => silent item

theorem isSilent_commonColumn (table : Text) (earlier fresh : Prior.Column) :
    IsSilent (commonColumn settings table earlier fresh) := by
  rw [commonColumn, ifListed]
  split
  · rfl
  · split
    · rfl
    · split <;> rfl

theorem isSilent_columnChanges (earlier fresh : Prior.Table) :
    IsSilent (columnChanges settings earlier fresh) := by
  refine isSilent_append.mpr ⟨isSilent_append.mpr ⟨isSilent_append.mpr ⟨?_, ?_⟩, ?_⟩, ?_⟩
  · exact isSilent_map _ fun _ => rfl
  · refine isSilent_flatMap _ fun ⟨source, new⟩ => ?_
    simp only
    split
    · exact isSilent_commonColumn _ _ _
    · rfl
  · exact isSilent_map _ fun _ => rfl
  · exact isSilent_map _ fun _ => rfl

theorem isSilent_freshTable (earlier : Prior.Model) (key : Text) (fresh : Prior.Table) :
    IsSilent (freshTable settings earlier key fresh) := by
  refine isSilent_append.mpr ⟨?_, ?_⟩
  · split
    · refine isSilent_append.mpr ⟨isSilent_append.mpr ⟨isSilent_columnChanges _ _, ?_⟩, ?_⟩
      · exact isSilent_append.mpr ⟨isSilent_append.mpr
          ⟨isSilent_map _ fun _ => rfl, isSilent_map _ fun _ => rfl⟩, isSilent_map _ fun _ => rfl⟩
      · rw [queryChanges]
        split
        · split <;> rfl
        · rfl
    · exact isSilent_map _ fun _ => rfl
  · rw [keyChanges]
    split <;> rfl

theorem isSilent_removedTable (fresh : Prior.Model) (key : Text) (earlier : Prior.Table) :
    IsSilent (removedTable fresh key earlier) := by
  rw [removedTable]
  split
  · rfl
  · exact isSilent_map _ fun _ => rfl

theorem isSilent_modeChanges (earlier : Prior.Table) : IsSilent (modeChanges settings earlier) := by
  rw [modeChanges]
  split
  · rfl
  · split
    · rfl
    · split <;> rfl

theorem isSilent_lostRelationships (lost : List Prior.Relationship)
    (added : List RelationshipKey) : IsSilent (lostRelationships lost added).1 := by
  induction lost generalizing added with
  | nil => rfl
  | cons old lost ih =>
      rw [lostRelationships]
      split
      · exact ih added
      · split
        · exact ih added
        · split
          · exact ih _
          · exact ih added

theorem isSilent_relationshipChanges (earlier fresh : Prior.Model) :
    IsSilent (relationshipChanges settings earlier fresh) := by
  refine isSilent_append.mpr ⟨isSilent_append.mpr ⟨?_, isSilent_lostRelationships _ _⟩, ?_⟩
  · refine isSilent_flatMap _ fun relationship => ?_
    split
    · rw [commonRelationship, ifListed]
      split
      · rfl
      · split <;> rfl
    · rfl
  · exact isSilent_map _ fun _ => rfl

/-- The warnings of a comparison are those of its last part. -/
theorem missingPaths_compare (earlier : Prior.Model) (definitions : DefinitionSet) :
    missingPaths (compare settings earlier definitions) =
      missingPaths (reachabilityChanges settings earlier (.ofDefinitions definitions)) := by
  rw [compare]
  refine missingPaths_append_of_isSilent (isSilent_append.mpr ⟨isSilent_append.mpr
    ⟨isSilent_append.mpr ⟨?_, ?_⟩, ?_⟩, ?_⟩) _
  · exact isSilent_flatMap _ fun entry => isSilent_freshTable _ _ _
  · exact isSilent_flatMap _ fun entry => isSilent_removedTable _ _ _
  · exact isSilent_flatMap _ isSilent_modeChanges
  · exact isSilent_relationshipChanges _ _

/-! ## Tables of a set -/

/-- The tables that stand for their keys: of those with one key, the last. -/
def knownTables (definitions : DefinitionSet) : List Block :=
  ((tableBlocks definitions).filterMap tableKey?).dedup.filterMap fun key =>
    (tableBlocksFor definitions key).getLast?

def tableNames (tables : List Block) : List Text :=
  tables.filterMap (name? "table")

/-- A table has its row count as a measure. -/
def HasRowCount (table : Block) : Prop :=
  ∃ name, name? "table" table = some name ∧ Convention.countMeasure name ∈ measureNames table

theorem any_isGenerated_iff {block : Block} {table : Prior.Table} (parts : IsReadFrom block table) :
    table.measures.any (·.isGenerated) = true ↔ HasRowCount block := by
  have counts := mem_generatedMeasures_iff_name parts (Convention.countMeasure table.name)
  rw [and_iff_left rfl, mem_generatedMeasures_iff] at counts
  rw [HasRowCount, parts.name, List.any_eq_true]
  constructor
  · rintro ⟨measure, member, generated⟩
    have named := (mem_generatedMeasures_iff_name parts measure.name).mp
      ((mem_generatedMeasures_iff table measure.name).mpr ⟨measure, member, generated, rfl⟩)
    exact ⟨table.name, rfl, named.2 ▸ named.1⟩
  · rintro ⟨name, same, member⟩
    obtain ⟨measure, inside, generated, -⟩ := counts.mpr (Option.some.inj same ▸ member)
    exact ⟨measure, inside, generated⟩

section Tables

variable {definitions : DefinitionSet}

theorem getLast?_tableBlocksFor_iff (key : Text) (table : Block) :
    (tableBlocksFor definitions key).getLast? = some table ↔
      table ∈ knownTables definitions ∧ tableKey? table = some key := by
  have inside {other : Text} {block : Block}
      (last : (tableBlocksFor definitions other).getLast? = some block) :
      block ∈ tableBlocks definitions ∧ tableKey? block = some other := by
    obtain ⟨member, known⟩ := List.mem_filter.mp (List.mem_of_getLast? last)
    exact ⟨member, eq_of_beq known⟩
  rw [knownTables, List.mem_filterMap]
  constructor
  · intro last
    obtain ⟨member, known⟩ := inside last
    exact ⟨⟨key, List.mem_dedup.mpr (List.mem_filterMap.mpr ⟨table, member, known⟩), last⟩, known⟩
  · rintro ⟨⟨other, -, last⟩, known⟩
    obtain rfl : other = key := Option.some.inj ((inside last).2.symm.trans known)
    exact last

theorem mem_tableBlocks_of_mem_knownTables {table : Block}
    (member : table ∈ knownTables definitions) : table ∈ tableBlocks definitions := by
  obtain ⟨key, -, last⟩ := List.mem_filterMap.mp member
  exact (List.mem_filter.mp (List.mem_of_getLast? last)).1

/-- A key of the set is the key of a known table. -/
theorem exists_mem_knownTables {key : Text}
    (member : key ∈ (tableBlocks definitions).filterMap tableKey?) :
    ∃ table ∈ knownTables definitions, tableKey? table = some key := by
  obtain ⟨block, inside, known⟩ := List.mem_filterMap.mp member
  have nonempty : tableBlocksFor definitions key ≠ [] :=
    List.ne_nil_of_mem (List.mem_filter.mpr ⟨inside, beq_iff_eq.mpr known⟩)
  exact ⟨_, (getLast?_tableBlocksFor_iff key _).mp (List.getLast?_eq_some_getLast nonempty)⟩

/-- Under different keys every table is known. -/
theorem mem_knownTables_iff_of_distinct (distinct : HasDistinctTables definitions)
    (table : Block) : table ∈ knownTables definitions ↔ table ∈ tableBlocks definitions := by
  refine ⟨mem_tableBlocks_of_mem_knownTables, fun member => ?_⟩
  obtain ⟨key, known⟩ := exists_tableKey? member
  refine ((getLast?_tableBlocksFor_iff key table).mp ?_).1
  rw [tableBlocksFor_eq_singleton distinct member known]
  rfl

theorem get?_tables_iff (key : Text) (table : Prior.Table) :
    (Prior.Model.ofDefinitions definitions).tables.get? key = some table ↔
      ∃ block ∈ knownTables definitions, tableKey? block = some key ∧
        readTable? block = some table := by
  rw [Prior.get?_tables, Option.bind_eq_some_iff]
  simp only [getLast?_tableBlocksFor_iff, and_assoc]

theorem mem_map_name_iff (name : Text) :
    name ∈ (Prior.Model.ofDefinitions definitions).tables.values.map (·.name) ↔
      name ∈ tableNames (knownTables definitions) := by
  rw [List.mem_map, tableNames, List.mem_filterMap]
  constructor
  · rintro ⟨table, member, rfl⟩
    obtain ⟨key, found⟩ := SortedMap.mem_values_iff.mp member
    obtain ⟨block, inside, -, read⟩ := (get?_tables_iff key table).mp found
    exact ⟨block, inside, (Prior.isReadFrom_of_readTable? read).name⟩
  · rintro ⟨block, member, named⟩
    obtain ⟨key, known⟩ := exists_tableKey? (mem_tableBlocks_of_mem_knownTables member)
    obtain ⟨table, read, -⟩ := Prior.exists_readTable? known
    have found := (get?_tables_iff key table).mpr ⟨block, member, known, read⟩
    refine ⟨table, SortedMap.mem_values_iff.mpr ⟨key, found⟩, ?_⟩
    exact Option.some.inj ((Prior.isReadFrom_of_readTable? read).name.symm.trans named)

end Tables

/-! ## The fact table -/

/-- The table at which all paths begin: the configured one, or the first one in the order of
keys that has its row count. -/
inductive IsStart (settings : Settings) (tables : List Block) : Block -> Prop where
  | configured {key : Text} {table : Block} (named : settings.factTable = some key)
      (member : table ∈ tables) (known : tableKey? table = some key) :
      IsStart settings tables table
  | first {key : Text} {table : Block} (unnamed : settings.factTable = none)
      (member : table ∈ tables) (known : tableKey? table = some key)
      (counted : HasRowCount table)
      (least : ∀ other ∈ tables, HasRowCount other ->
        ∀ otherKey, tableKey? other = some otherKey ->
          otherKey = key ∨ Text.before key otherKey = true) :
      IsStart settings tables table

theorem IsStart.name_mem {tables : List Block} {start : Block}
    (isStart : IsStart settings tables start) {fact : Prior.Table}
    (read : readTable? start = some fact) : fact.name ∈ tableNames tables := by
  have named := (Prior.isReadFrom_of_readTable? read).name
  cases isStart with
  | configured _ member _ => exact List.mem_filterMap.mpr ⟨start, member, named⟩
  | first _ member _ _ _ => exact List.mem_filterMap.mpr ⟨start, member, named⟩

/-- The configured fact table is a table of the set. -/
def Settings.KnowsFactTable (settings : Settings) (definitions : DefinitionSet) : Prop :=
  ∀ key, settings.factTable = some key -> key ∈ (tableBlocks definitions).filterMap tableKey?

theorem eq_of_least {left right : Text} (first : right = left ∨ Text.before left right = true)
    (second : left = right ∨ Text.before right left = true) : left = right := by
  rcases first with same | smaller
  · exact same.symm
  · refine second.resolve_right fun greater => ?_
    have cycle := Text.before_trans smaller greater
    rw [Text.before_irrefl] at cycle
    cases cycle

section FactTable

variable {definitions : DefinitionSet}

theorem isStart_of_factTable? {fact : Prior.Table}
    (knows : settings.KnowsFactTable definitions)
    (found : factTable? settings (.ofDefinitions definitions) = some fact) :
    ∃ start, IsStart settings (knownTables definitions) start ∧ readTable? start = some fact := by
  rw [factTable?] at found
  cases named : settings.factTable with
  | some key =>
      obtain ⟨table, member, known⟩ := exists_mem_knownTables (knows key named)
      obtain ⟨configured, read, -⟩ := Prior.exists_readTable? known
      have entered := (get?_tables_iff key configured).mpr ⟨table, member, known, read⟩
      rw [named, Option.bind_some, entered] at found
      cases found
      exact ⟨table, .configured named member known, read⟩
  | none =>
      rw [named] at found
      obtain ⟨key, entered, passes, least⟩ := SortedMap.exists_least_of_find?_values found
      obtain ⟨table, member, known, read⟩ := (get?_tables_iff key fact).mp entered
      refine ⟨table, .first named member known ?_ ?_, read⟩
      · exact (any_isGenerated_iff (Prior.isReadFrom_of_readTable? read)).mp passes
      · intro other inside counted otherKey otherKnown
        obtain ⟨otherTable, otherRead, -⟩ := Prior.exists_readTable? otherKnown
        exact least otherKey otherTable
          ((get?_tables_iff otherKey otherTable).mpr ⟨other, inside, otherKnown, otherRead⟩)
          ((any_isGenerated_iff (Prior.isReadFrom_of_readTable? otherRead)).mpr counted)

theorem factTable?_of_isStart {start : Block}
    (isStart : IsStart settings (knownTables definitions) start) :
    ∃ fact, factTable? settings (.ofDefinitions definitions) = some fact ∧
      readTable? start = some fact := by
  rw [factTable?]
  cases isStart with
  | configured named member known =>
      obtain ⟨fact, read, -⟩ := Prior.exists_readTable? known
      have entered := (get?_tables_iff _ fact).mpr ⟨start, member, known, read⟩
      rw [named, Option.bind_some, entered]
      exact ⟨fact, rfl, read⟩
  | @first key _ unnamed member known counted least =>
      obtain ⟨fact, read, -⟩ := Prior.exists_readTable? known
      have entered := (get?_tables_iff key fact).mpr ⟨start, member, known, read⟩
      have passes := (any_isGenerated_iff (Prior.isReadFrom_of_readTable? read)).mpr counted
      have some : ((Prior.Model.ofDefinitions definitions).tables.values.find? fun table =>
          table.measures.any (·.isGenerated)).isSome = true := by
        rw [List.find?_isSome]
        exact ⟨fact, SortedMap.mem_values_iff.mpr ⟨key, entered⟩, passes⟩
      obtain ⟨other, found⟩ := Option.isSome_iff_exists.mp some
      obtain ⟨otherKey, otherEntered, otherPasses, otherLeast⟩ :=
        SortedMap.exists_least_of_find?_values found
      obtain ⟨block, inside, otherKnown, otherRead⟩ :=
        (get?_tables_iff otherKey other).mp otherEntered
      have otherCounted := (any_isGenerated_iff (Prior.isReadFrom_of_readTable? otherRead)).mp
        otherPasses
      have same : key = otherKey :=
        eq_of_least (least block inside otherCounted otherKey otherKnown)
          (otherLeast key fact entered passes)
      subst same
      rw [entered] at otherEntered
      cases otherEntered
      rw [unnamed, Option.bind_none]
      exact ⟨fact, found, read⟩

end FactTable

/-! ## Merged relationships -/

theorem mem_keys_foldl_addKnown {more known : List Prior.Relationship} {key : RelationshipKey}
    (member : key ∈ (known ++ more).map (·.key)) :
    key ∈ (more.foldl Prior.addKnown known).map (·.key) := by
  induction more generalizing known with
  | nil => simpa using member
  | cons first more ih =>
      refine ih ?_
      by_cases same : key = first.key
      · simp [Prior.addKnown, same]
      · obtain ⟨relationship, inside, isKey⟩ := List.mem_map.mp member
        refine List.mem_map.mpr ⟨relationship, ?_, isKey⟩
        have different : relationship.key ≠ first.key := fun other => same (isKey.symm.trans other)
        have others : relationship ≠ first := fun other => different (congrArg _ other)
        simp only [List.mem_append, List.mem_cons, Prior.addKnown, List.mem_filter] at inside ⊢
        grind

/-- Every endpoint pair of a set is known. -/
theorem mem_keys_relationships_iff (definitions : DefinitionSet) (key : RelationshipKey) :
    key ∈ (Prior.Model.ofDefinitions definitions).relationships.map (·.key) ↔
      key ∈ relationshipKeys definitions := by
  refine ⟨fun member => keys_relationships_subset definitions member, fun member => ?_⟩
  obtain ⟨block, inside, known⟩ := List.mem_filterMap.mp member
  obtain ⟨relationship, read, rfl⟩ := Prior.exists_known? known
  rw [← keys_knownOf, Prior.knownOf_eq, Prior.knownAmong]
  refine mem_keys_foldl_addKnown ?_
  exact List.mem_map_of_mem (List.mem_filterMap.mpr ⟨block, inside, read⟩)

/-- An added relationship is written as a relationship with its endpoints. -/
theorem relationshipKey?_of_mem_userRelationships {earlier : DefinitionSet}
    {keys : List RelationshipKey} {added : Prior.Relationship}
    (member : added ∈ (Prior.Model.ofDefinitions earlier).userRelationships keys) :
    (withoutDescriptions added.block).hasHeader "relationship" = true ∧
      relationshipKey? (withoutDescriptions added.block) = some added.key := by
  have known : added.unplaced ∈ knownOf earlier := List.mem_map_of_mem (List.mem_filter.mp member).1
  obtain ⟨block, inside, read⟩ := Prior.exists_block_of_mem_knownOf known
  obtain ⟨same, key, -⟩ := Prior.block_of_known? read
  have isBlock : added.block = block := same
  rw [Prior.relationshipKey?_withoutDescriptions, isBlock]
  exact ⟨(Prior.isNested_of_mem_relationshipBlocks inside).2, key⟩

/-- The endpoint pairs that a merge writes are the fresh ones and those of added
relationships. -/
theorem filterMap_relationshipKey?_mergeRelationships (earlier : DefinitionSet)
    (document : Document) :
    ((Prior.mergeRelationships (.ofDefinitions earlier) document).blocksWith
        "relationship").filterMap relationshipKey? =
      Prior.freshKeys document ++
        ((Prior.Model.ofDefinitions earlier).userRelationships (Prior.freshKeys document)).map
          (·.key) := by
  have headers : ∀ block ∈ ((Prior.Model.ofDefinitions earlier).userRelationships
      (Prior.freshKeys document)).map fun added => withoutDescriptions added.block,
      block.hasHeader "relationship" = true := by
    intro block member
    obtain ⟨added, inside, rfl⟩ := List.mem_map.mp member
    exact (relationshipKey?_of_mem_userRelationships inside).1
  rw [Prior.mergeRelationships, Document.changeWith, Document.blocksWith, List.filter_append,
    Prior.filter_map_mergeRelationship, List.filter_eq_self.mpr headers, List.filterMap_append,
    List.filterMap_map, List.filterMap_map]
  congr 1
  · exact List.filterMap_congr fun block _ => relationshipKey?_mergeRelationship earlier block
  · rw [← List.filterMap_eq_map]
    exact List.filterMap_congr fun added member =>
      (relationshipKey?_of_mem_userRelationships member).2

theorem userRelationships_congr (earlier : Prior.Model) {keys others : List RelationshipKey}
    (same : ∀ key, key ∈ keys ↔ key ∈ others) :
    earlier.userRelationships keys = earlier.userRelationships others := by
  have contains (key : RelationshipKey) : keys.contains key = others.contains key := by
    rw [Bool.eq_iff_iff, List.contains_iff_mem, List.contains_iff_mem, same]
  simp only [Prior.Model.userRelationships, contains]

/-- The merged document of relationships. -/
def mergedDocument (earlier fresh : DefinitionSet) : Document :=
  Prior.mergeRelationships (.ofDefinitions earlier)
    ⟨Prior.fileBlocks fresh Path.relationships, true⟩

def mergedRelationships (earlier fresh : DefinitionSet) : List Block :=
  (mergedDocument earlier fresh).blocksWith "relationship"

theorem freshKeys_fileBlocks (definitions : DefinitionSet) :
    Prior.freshKeys ⟨Prior.fileBlocks definitions Path.relationships, true⟩ =
      relationshipKeys definitions := by
  rw [Prior.freshKeys, Document.blocksWith, ← Prior.relationshipBlocks_eq, relationshipKeys]

/-- The comparison decides on earlier relationships as a merge does. -/
theorem mem_mergedKeys_iff (earlier fresh : DefinitionSet) (key : RelationshipKey) :
    key ∈ mergedKeys (.ofDefinitions earlier) (.ofDefinitions fresh) ↔
      key ∈ (mergedRelationships earlier fresh).filterMap relationshipKey? := by
  have known := mem_keys_relationships_iff fresh
  rw [mergedRelationships, mergedDocument, filterMap_relationshipKey?_mergeRelationships,
    freshKeys_fileBlocks, mergedKeys, List.mem_append, List.mem_append, known,
    userRelationships_congr _ known]

/-! ## Paths -/

/-- A relationship leads from one of the tables to another one. -/
def LeadsTo (tables relationships : List Block) (table other : Text) : Prop :=
  table ∈ tableNames tables ∧ other ∈ tableNames tables ∧
    ∃ block ∈ relationships, ∃ key, relationshipKey? block = some key ∧
      key.sourceTable? = some table ∧ key.targetTable? = some other

/-- The warnings of some changes are about the tables, apart from the calendar, to which no
path leads from the fact table, and there is one warning for each of them. -/
structure WarnsOfPaths (settings : Settings) (tables relationships : List Block)
    (changes : List Change) : Prop where
  once : (missingPaths changes).Nodup
  warned (table fact : Text) : (table, fact) ∈ missingPaths changes ↔
    ∃ start, IsStart settings tables start ∧ name? "table" start = some fact ∧
      table ∈ tableNames tables ∧ table ≠ Convention.calendarTable ∧
      ¬ReflTransGen (LeadsTo tables relationships) fact table

section Paths

variable {definitions : DefinitionSet}

/-- The graph that the comparison searches is that of the merged relationships. -/
theorem leads_eq (earlier : DefinitionSet) :
    Reachability.Leads
        ((mergedKeys (.ofDefinitions earlier) (.ofDefinitions definitions)).filterMap tablePair?)
        ((Prior.Model.ofDefinitions definitions).tables.values.map (·.name)) =
      LeadsTo (knownTables definitions) (mergedRelationships earlier definitions) := by
  funext table other
  have pair (key : RelationshipKey) : tablePair? key = some (table, other) ↔
      key.sourceTable? = some table ∧ key.targetTable? = some other := by
    rw [tablePair?]
    cases key.sourceTable? <;> cases key.targetTable? <;> simp
  rw [Reachability.Leads, Reachability.LeadsInto, LeadsTo, mem_map_name_iff,
    mem_map_name_iff, List.mem_filterMap, eq_iff_iff]
  simp only [mem_mergedKeys_iff, List.mem_filterMap, pair]
  constructor
  · rintro ⟨isTable, ⟨key, ⟨block, member, read⟩, ends⟩, isOther⟩
    exact ⟨isTable, isOther, block, member, key, read, ends⟩
  · rintro ⟨isTable, isOther, block, member, key, read, ends⟩
    exact ⟨isTable, ⟨key, ⟨block, member, read⟩, ends⟩, isOther⟩

/-- From a fact table the comparison warns about the tables to which no path leads. -/
theorem missingPaths_of_factTable? (earlier : DefinitionSet) {fact : Prior.Table}
    (found : factTable? settings (.ofDefinitions definitions) = some fact)
    (inside : fact.name ∈ tableNames (knownTables definitions)) :
    (missingPaths (compare settings (.ofDefinitions earlier) definitions)).Nodup ∧
      ∀ table other,
        (table, other) ∈ missingPaths (compare settings (.ofDefinitions earlier) definitions) ↔
          fact.name = other ∧ table ∈ tableNames (knownTables definitions) ∧
            table ≠ Convention.calendarTable ∧
            ¬ReflTransGen
              (LeadsTo (knownTables definitions) (mergedRelationships earlier definitions))
              fact.name table := by
  have warnings : missingPaths (compare settings (.ofDefinitions earlier) definitions) =
      ((Reachability.unreachable
        ((Prior.Model.ofDefinitions definitions).tables.values.map (·.name))
        ((mergedKeys (.ofDefinitions earlier) (.ofDefinitions definitions)).filterMap tablePair?)
        fact.name).filter (· != Convention.calendarTable)).map (·, fact.name) := by
    rw [missingPaths_compare, reachabilityChanges, found]
    simp only [missingPaths, List.filterMap_map]
    exact congrFun List.filterMap_eq_map _
  have isNode := (mem_map_name_iff fact.name).mpr inside
  rw [warnings]
  refine ⟨((Reachability.nodup_unreachable _ _ _).filter _).map fun _ _ => by simp, ?_⟩
  intro table other
  rw [List.mem_map, ← leads_eq earlier, ← mem_map_name_iff table]
  simp only [List.mem_filter, Reachability.mem_unreachable_iff isNode, bne_iff_ne, Prod.mk.injEq]
  constructor
  · rintro ⟨_, ⟨⟨isTable, apart⟩, notCalendar⟩, rfl, same⟩
    exact ⟨same, isTable, notCalendar, apart⟩
  · rintro ⟨same, isTable, notCalendar, apart⟩
    exact ⟨table, ⟨⟨isTable, apart⟩, notCalendar⟩, rfl, same⟩

/-- The comparison warns of missing paths in the merged relationships. -/
theorem warnsOfPaths_compare (earlier : DefinitionSet)
    (knows : settings.KnowsFactTable definitions) :
    WarnsOfPaths settings (knownTables definitions) (mergedRelationships earlier definitions)
      (compare settings (.ofDefinitions earlier) definitions) := by
  cases found : factTable? settings (.ofDefinitions definitions) with
  | none =>
      have silent : missingPaths (compare settings (.ofDefinitions earlier) definitions) = [] := by
        rw [missingPaths_compare, reachabilityChanges, found]
        rfl
      refine ⟨silent ▸ List.nodup_nil, fun table fact => ?_⟩
      rw [silent]
      refine iff_of_false List.not_mem_nil fun ⟨block, isStart, _⟩ => ?_
      obtain ⟨_, known, _⟩ := factTable?_of_isStart isStart
      rw [found] at known
      cases known
  | some fact =>
      obtain ⟨start, isStart, read⟩ := isStart_of_factTable? knows found
      have named := (Prior.isReadFrom_of_readTable? read).name
      obtain ⟨once, warned⟩ := missingPaths_of_factTable? earlier found
        (isStart.name_mem read)
      refine ⟨once, fun table other => ?_⟩
      rw [warned]
      constructor
      · rintro ⟨rfl, others⟩
        exact ⟨start, isStart, named, others⟩
      · rintro ⟨block, isStart, blockNamed, others⟩
        obtain ⟨known, blockFound, blockRead⟩ := factTable?_of_isStart isStart
        rw [found] at blockFound
        cases blockFound
        have same : fact.name = other := Option.some.inj
          ((Prior.isReadFrom_of_readTable? blockRead).name.symm.trans blockNamed)
        rw [same]
        exact ⟨rfl, others⟩

end Paths

/-! ## Generated sets -/

/-- Warnings about missing paths are about what will be written. The comparison of a generated
set with any earlier one warns of exactly the known tables to which no path leads in the merged
file of relationships, and all tables are known if their keys differ. From an earlier set
whose relationships stand at the start of their lines, the merged ones are read again. -/
theorem warnsOfPaths_of_generate {options : Generation.Options} {supply : Generation.Supply}
    {selection : Catalog.Selection} {output : Generation.Output}
    (generated : Generation.generate options supply selection = .ok output)
    (earlier : DefinitionSet) (knows : settings.KnowsFactTable output.definitions) :
    (merge output.definitions (.ofDefinitions earlier)).get? Path.relationships =
        relationshipText? (mergedDocument earlier output.definitions).blocks ∧
      ((∀ block ∈ relationshipBlocks earlier, block.depth = 0) ->
        relationshipBlocks (merge output.definitions (.ofDefinitions earlier)) =
          mergedRelationships earlier output.definitions) ∧
      (HasDistinctTables output.definitions -> ∀ table,
        table ∈ knownTables output.definitions ↔ table ∈ tableBlocks output.definitions) ∧
      WarnsOfPaths settings (knownTables output.definitions)
        (mergedRelationships earlier output.definitions)
        (compare settings (.ofDefinitions earlier) output.definitions) := by
  obtain ⟨relationships, isGenerated⟩ := Generation.exists_isGenerated generated
  obtain ⟨nested, written⟩ := Prior.get?_relationships_merge isGenerated (.ofDefinitions earlier)
  refine ⟨written, fun places => ?_, mem_knownTables_iff_of_distinct,
    warnsOfPaths_compare earlier knows⟩
  rw [Prior.relationshipBlocks_eq, Prior.fileBlocks_of_relationshipText? written
    (Prior.isNested_of_mem_mergeRelationships places nested)]
  rfl

/-- Accounts are reached over a relationship that a person has added. -/
theorem warnsOfPaths_of_generate_added :
    let selection : Catalog.Selection :=
      { modelName := "Sales"
        tables := [.plain "opportunity" "opportunityid", .plain "account" "accountid"]
        edges := []
        calendar := none }
    let supply : Generation.Supply := fun _ => "fresh"
    let settings : Settings := { Settings.standard with factTable := some "opportunity" }
    let earlier : DefinitionSet := .ofList
      [(Path.relationships, Block.textOfLines
        ["relationship mine", "\tfromColumn: opportunity.customerid",
          "\ttoColumn: account.accountid", ""])]
    ∃ output, Generation.generate .standard supply selection = .ok output ∧
      (mergedRelationships earlier output.definitions).filterMap relationshipKey? =
        [⟨"opportunity.customerid", "account.accountid"⟩] ∧
      WarnsOfPaths settings (knownTables output.definitions)
        (mergedRelationships earlier output.definitions)
        (compare settings (.ofDefinitions earlier) output.definitions) := by
  intro selection supply settings earlier
  have written : (Generation.generate .standard supply selection).toOption.map (fun output =>
      ((mergedRelationships earlier output.definitions).filterMap relationshipKey?,
        ((tableBlocks output.definitions).filterMap tableKey?))) =
      some ([⟨"opportunity.customerid", "account.accountid"⟩],
        [("account" : Text), "opportunity"]) := by
    decide +kernel
  obtain ⟨output, found, parts⟩ := Option.map_eq_some_iff.mp written
  obtain ⟨relationships, keys⟩ := Prod.mk.inj parts
  have generated := Generation.eq_ok_of_toOption found
  have knows : settings.KnowsFactTable output.definitions := by
    intro key named
    rw [keys, ← Option.some.inj named]
    decide +kernel
  exact ⟨output, generated, relationships,
    (warnsOfPaths_of_generate generated earlier knows).2.2.2⟩

/-- Two logical names that differ in blanks alone are one key. Then the comparison sees the
later table alone, and nothing warns that the earlier one is out of reach. -/
theorem misses_path_of_repeated_key :
    let selection : Catalog.Selection :=
      { modelName := "Sales"
        tables := [{ Catalog.Table.plain "account" "accountid" with displayName := some "Account" },
          { Catalog.Table.plain " account" "accountid" with displayName := some "Client" },
          { Catalog.Table.plain "opportunity" "opportunityid" with
            displayName := some "Opportunity"
            role := .fact }]
        edges := []
        calendar := none }
    let supply : Generation.Supply := fun _ => "fresh"
    ∃ output, Generation.generate .standard supply selection = .ok output ∧
      Settings.standard.KnowsFactTable output.definitions ∧
      ¬WarnsOfPaths .standard (tableBlocks output.definitions)
        (mergedRelationships .empty output.definitions)
        (compare .standard (.ofDefinitions .empty) output.definitions) := by
  intro selection supply
  have written : (Generation.generate .standard supply selection).toOption.map (fun output =>
      (missingPaths (compare .standard (.ofDefinitions .empty) output.definitions),
        tableNames (tableBlocks output.definitions),
        (mergedRelationships .empty output.definitions).isEmpty)) =
      some ([(("Client" : Text), ("Opportunity" : Text))],
        [("Account" : Text), "Client", "Opportunity"], true) := by
    decide +kernel
  obtain ⟨output, found, parts⟩ := Option.map_eq_some_iff.mp written
  obtain ⟨missing, others⟩ := Prod.mk.inj parts
  obtain ⟨names, none⟩ := Prod.mk.inj others
  have knows : Settings.standard.KnowsFactTable output.definitions := nofun
  refine ⟨output, Generation.eq_ok_of_toOption found, knows, fun warns => ?_⟩
  have warned := warns.warned
  rw [missing, names, List.isEmpty_iff.mp none] at warned
  obtain ⟨start, isStart, named, -⟩ := (warned "Client" "Opportunity").mp List.mem_cons_self
  -- Without relationships nothing but the fact table itself is reached.
  have apart : ¬ReflTransGen (LeadsTo (tableBlocks output.definitions) [])
      "Opportunity" "Account" := by
    intro path
    rcases ReflTransGen.cases_head path with same | ⟨middle, ⟨_, _, block, member, _⟩, _⟩
    · exact absurd same (by decide)
    · cases member
  have absent := (warned "Account" "Opportunity").mpr
    ⟨start, isStart, named, by decide, by decide, apart⟩
  exact absurd absent (by decide)

end Change

end TabularModel
