import TabularModel.Proofs.Prior.Settled

/-!
# Orderly definition sets

A definition set that was edited by hand is orderly if the members of its tables
stand at one tab, those of its columns at two, and its relationships at the start
of their lines. What is recovered from it then keeps its place in a merged file.
A file that was merged with an orderly set is settled, and is reached again by a
merge with what is read from it.
-/

set_option autoImplicit false

namespace TabularModel

open Definition (IsOrderlyColumn IsOrderlyTable Member TableOutline annotationName?)
open Generation (IsTableText)

namespace Prior

/-- The places of what people may edit. -/
structure IsOrderly (definitions : DefinitionSet) : Prop where
  members : ∀ table ∈ tableBlocks definitions, ∀ member ∈ table.children,
    member.isBlank = false -> member.depth = 1
  columnMembers : ∀ table ∈ tableBlocks definitions, ∀ column ∈ table.childrenWith "column",
    ∀ member ∈ column.children, member.isBlank = false -> member.depth = 2
  relationships : ∀ text ∈ definitions.get? Path.relationships,
    ∀ block ∈ (Document.ofText text).blocksWith "relationship", block.depth = 0

/-- The blocks of a table that will have the given name hold no measure with the
name of its row count, unless they have the name already. -/
def CountIsFree (definitions : DefinitionSet) (key name : Text) : Prop :=
  ∀ table ∈ tableBlocksFor definitions key, name? "table" table ≠ some name ->
    ∀ measure ∈ table.childrenWith "measure",
      name? "measure" measure ≠ some (Convention.countMeasure name)

instance (definitions : DefinitionSet) : Decidable (IsOrderly definitions) :=
  decidable_of_iff
    ((∀ table ∈ tableBlocks definitions, ∀ member ∈ table.children,
        member.isBlank = false -> member.depth = 1) ∧
      (∀ table ∈ tableBlocks definitions, ∀ column ∈ table.childrenWith "column",
        ∀ member ∈ column.children, member.isBlank = false -> member.depth = 2) ∧
      ∀ text ∈ definitions.get? Path.relationships,
        ∀ block ∈ (Document.ofText text).blocksWith "relationship", block.depth = 0)
    ⟨fun all => ⟨all.1, all.2.1, all.2.2⟩,
      fun all => ⟨all.members, all.columnMembers, all.relationships⟩⟩

instance (definitions : DefinitionSet) (key name : Text) :
    Decidable (CountIsFree definitions key name) :=
  inferInstanceAs (Decidable (∀ table ∈ tableBlocksFor definitions key,
    name? "table" table ≠ some name -> ∀ measure ∈ table.childrenWith "measure",
      name? "measure" measure ≠ some (Convention.countMeasure name)))

theorem isBlank_of_mem_childrenWith {block child : Block} {keyword : Text}
    (visible : BeginsVisibly keyword) (member : child ∈ block.childrenWith keyword) :
    child.isBlank = false :=
  Block.allBlank_of_hasHeader visible (List.mem_filter.mp member).2

variable {definitions : DefinitionSet}

theorem isOrderlyTable_of_get?_tables (orderly : IsOrderly definitions) {key : Text} {table : Table}
    (found : (Model.ofDefinitions definitions).tables.get? key = some table) :
    IsOrderlyTable table := by
  obtain ⟨block, member, read⟩ := exists_mem_of_get?_tables found
  have inside := (List.mem_filter.mp member).1
  have parts := isReadFrom_of_readTable? read
  refine ⟨isWritable_of_get?_tables found, ?_, ?_⟩
  · intro source known entered
    have writable := (isWritable_of_get?_tables found).columns source known entered
    rw [parts.columns] at entered
    obtain ⟨entry, entryMember, same⟩ :=
      List.mem_map.mp (SortedMap.mem_of_mem_ofList (SortedMap.mem_of_get? entered))
    cases same
    obtain ⟨column, columnMember, columnRead⟩ := List.mem_filterMap.mp entryMember
    obtain ⟨name, _, columnRead⟩ := Option.bind_eq_some_iff.mp columnRead
    obtain ⟨source, _, columnRead⟩ := Option.bind_eq_some_iff.mp columnRead
    cases columnRead
    refine ⟨writable, ?_⟩
    intro annotation annotationMember
    obtain ⟨child, childMember, childRead⟩ := List.mem_filterMap.mp annotationMember
    obtain ⟨pair, pairRead, rfl⟩ := Option.map_eq_some_iff.mp childRead
    refine ⟨orderly.columnMembers block inside column columnMember child
      (List.mem_of_mem_filter childMember) (isBlank_of_mem_childrenWith (by decide) childMember), ?_⟩
    rw [annotationName?]
    simp only [pairRead, Option.map_some]
  · intro measure measureMember
    rw [parts.measures] at measureMember
    obtain ⟨child, childMember, childRead⟩ := List.mem_filterMap.mp measureMember
    obtain ⟨pair, pairRead, rfl⟩ := Option.map_eq_some_iff.mp childRead
    refine ⟨orderly.members block inside child (List.mem_of_mem_filter childMember)
      (isBlank_of_mem_childrenWith (by decide) childMember), ?_⟩
    simp only [name?, pairRead, Option.map_some]

/-- No measure that is kept has the name of the row count. -/
theorem name_ne_countMeasure {key name : Text} (free : CountIsFree definitions key name)
    {table : Table} (found : (Model.ofDefinitions definitions).tables.get? key = some table) :
    ∀ measure ∈ table.userMeasures, measure.name ≠ Convention.countMeasure name := by
  intro measure member same
  obtain ⟨block, blockMember, read⟩ := exists_mem_of_get?_tables found
  have parts := isReadFrom_of_readTable? read
  obtain ⟨inside, kept⟩ := List.mem_filter.mp member
  rw [parts.measures] at inside
  obtain ⟨child, childMember, childRead⟩ := List.mem_filterMap.mp inside
  obtain ⟨pair, pairRead, rfl⟩ := Option.map_eq_some_iff.mp childRead
  have named : name? "measure" child = some (Convention.countMeasure name) := by
    rw [name?, pairRead, Option.map_some]
    exact congrArg some same
  by_cases sameName : table.name = name
  · have notGenerated : (pair.1 == Convention.countMeasure table.name) = false := by
      simpa using kept
    rw [sameName] at notGenerated
    have different : pair.1 ≠ Convention.countMeasure name := by simpa using notGenerated
    exact different same
  · refine free block blockMember ?_ child childMember named
    rw [parts.name]
    simpa using sameName

end Prior

namespace Definition.TableOutline

open Prior (CountIsFree IsOrderly)

variable {outline : TableOutline} {tag : Member -> Text} {text path : Text}

/-- A file that is merged with an orderly set holds a settled table. -/
theorem exists_settled_mergeFile (written : IsTableText outline tag text)
    (trimmed : ∀ column ∈ outline.columns, column.HasTrimmedLines) {definitions : DefinitionSet}
    (orderly : IsOrderly definitions)
    (free : CountIsFree definitions (Text.trim outline.logicalName) outline.name)
    (isTable : Path.isInTablesFolder path = true) :
    ∃ states state, outline.IsSettled states state ∧
      Prior.mergeFile (.ofDefinitions definitions) path text =
        Document.render ⟨[outline.block state], true⟩ := by
  have fresh := isReread_freshState outline tag
  rw [mergeFile_of_ofText _ isTable written.ofText fresh.tableKey?]
  cases found : (Prior.Model.ofDefinitions definitions).tables.get? (Text.trim outline.logicalName) with
  | none =>
      exact ⟨_, _, isSettled_freshState written.readable trimmed written.tags, rfl⟩
  | some earlier =>
      have counts := Prior.name_ne_countMeasure free found
      refine ⟨_, outline.mergedState earlier tag, isSettled_mergedState written.readable trimmed
        written.tags (Prior.isOrderlyTable_of_get?_tables orderly found) counts, ?_⟩
      rw [Option.map_some, Option.getD_some, mergeTable_block]

/-- A file that is merged with what is read from a settled table becomes this
table. -/
theorem mergeFile_of_isSettled (written : IsTableText outline tag text)
    (distinct : outline.HasDistinctSources) {states : Column -> ColumnState} {state : TableState}
    (settled : outline.IsSettled states state) {earlier : Prior.Model}
    (known : earlier.tables.get? (Text.trim outline.logicalName) =
      Prior.readTable? (outline.block state))
    (isTable : Path.isInTablesFolder path = true) :
    Prior.mergeFile earlier path text = Document.render ⟨[outline.block state], true⟩ := by
  have fresh := isReread_freshState outline tag
  obtain ⟨table, read, _⟩ := Prior.exists_readTable? settled.isReread.tableKey?
  rw [mergeFile_of_ofText _ isTable written.ofText fresh.tableKey?, known, read, Option.map_some,
    Option.getD_some, mergeTable_block, block_mergedState_of_isSettled distinct settled read]

end Definition.TableOutline

end TabularModel
