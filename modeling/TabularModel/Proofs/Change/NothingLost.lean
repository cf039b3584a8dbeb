import TabularModel.Proofs.Change.Comparison
import TabularModel.Proofs.Prior.KeptRelationships
import TabularModel.Proofs.Prior.Measures

/-!
# Harmless changes lose nothing

The comparison sees the fresh set and never what is merged. Still, if it reports
nothing destructive, the merged set has all that was generated earlier: tables under
their keys, columns under their sources or in columns with their names, row counts, and
relationships under their endpoints or in new ones with the same source.
-/

set_option autoImplicit false

namespace TabularModel

open Prior (IsReadFrom IsTag HasDistinctRelationships HasDistinctTables columnSource? isAdded isMarked
  knownOf logicalName? map_source_readColumn? measureNames mergeRelationship name? readColumn?
  readTable? relationshipBlocks relationshipKey? relationshipKeys relationshipText? tableBlocks
  tableBlocksFor tableKey? withoutDescriptions)

namespace Change

/-! ## Keeping what was there -/

def columnSources (table : Block) : List Text :=
  (table.childrenWith "column").filterMap columnSource?

/-- The columns of each table come from different sources. -/
def HasDistinctColumns (definitions : DefinitionSet) : Prop :=
  ∀ table ∈ tableBlocks definitions, (columnSources table).Nodup

instance (definitions : DefinitionSet) : Decidable (HasDistinctColumns definitions) :=
  inferInstanceAs (Decidable (∀ table ∈ tableBlocks definitions, List.Nodup _))

/-- Two column blocks have the same name, up to letter case. -/
def AreNamesakes (left right : Block) : Prop :=
  ∃ name other, name? "column" left = some name ∧ name? "column" right = some other ∧
    Text.sameIgnoringCase name other = true

/-- Each column of an earlier table has a partner in the merged one, and different
columns have different partners: under the same source, or with the same name. -/
def KeepsColumns (prior merged : Block) : Prop :=
  ∃ partner : Text -> Text, Set.InjOn partner {source | source ∈ columnSources prior} ∧
    ∀ column ∈ prior.childrenWith "column", ∀ source, columnSource? column = some source ->
      ∃ other ∈ merged.childrenWith "column", columnSource? other = some (partner source) ∧
        (partner source = source ∨ AreNamesakes column other)

/-- The row count under the earlier name of the table is kept. -/
def KeepsCount (prior merged : Block) : Prop :=
  ∀ name, name? "table" prior = some name ->
    Convention.countMeasure name ∈ measureNames prior ->
      Convention.countMeasure name ∈ measureNames merged

/-- Each earlier relationship apart from those to the calendar has a partner among the
merged ones, and different relationships have different partners: with the same
endpoints, or for a generated one with the same source, fresh and not there earlier. -/
def KeepsRelationships (earlier fresh merged : List Block) : Prop :=
  ∃ partner : RelationshipKey -> RelationshipKey,
    Set.InjOn partner {key | key ∈ earlier.filterMap relationshipKey?} ∧
    ∀ prior ∈ earlier, ∀ key, relationshipKey? prior = some key -> key.isCalendar = false ->
      partner key ∈ merged.filterMap relationshipKey? ∧
      (partner key = key ∨ isMarked prior = true ∧ (partner key).source = key.source ∧
        partner key ∈ fresh.filterMap relationshipKey? ∧
        partner key ∉ earlier.filterMap relationshipKey?)

/-! ## Columns by their sources -/

section

variable {block : Block} {table : Prior.Table}

theorem name?_of_readColumn? {column : Prior.Column} (read : readColumn? block = some column) :
    name? "column" block = some column.name ∧ columnSource? block = some column.source := by
  obtain ⟨name, named, read⟩ := Option.bind_eq_some_iff.mp read
  obtain ⟨source, known, read⟩ := Option.bind_eq_some_iff.mp read
  cases read
  exact ⟨named, known⟩

theorem hasOwnSources_of_isReadFrom (parts : IsReadFrom block table) : HasOwnSources table := by
  intro entry member
  rw [parts.columns] at member
  obtain ⟨column, -, rfl⟩ := List.mem_map.mp (SortedMap.mem_of_mem_ofList member)
  rfl

/-- Among columns from different sources each is known under its own one. -/
theorem exists_get?_columns (parts : IsReadFrom block table)
    (distinct : (columnSources block).Nodup) {child : Block}
    (member : child ∈ block.childrenWith "column") {source : Text}
    (known : columnSource? child = some source) :
    ∃ column, table.columns.get? source = some column ∧ readColumn? child = some column := by
  obtain ⟨column, read, rfl⟩ :=
    Option.map_eq_some_iff.mp ((map_source_readColumn? child).trans known)
  refine ⟨column, ?_, read⟩
  have inside := List.mem_filterMap.mpr ⟨child, member, read⟩
  have sources : (((block.childrenWith "column").filterMap readColumn?).map (·.source)).Nodup := by
    rw [List.map_filterMap]
    exact (List.filterMap_congr fun child _ => map_source_readColumn? child) ▸ distinct
  rw [parts.columns]
  refine SortedMap.get?_ofList_of_mem (List.mem_map.mpr ⟨column, inside, rfl⟩) ?_
  intro entry entryMember same
  obtain ⟨other, otherInside, rfl⟩ := List.mem_map.mp entryMember
  exact List.inj_on_of_nodup_map sources otherInside inside same

theorem exists_of_get?_columns (parts : IsReadFrom block table) {source : Text}
    {column : Prior.Column} (found : table.columns.get? source = some column) :
    ∃ child ∈ block.childrenWith "column", readColumn? child = some column := by
  have inside := SortedMap.mem_of_get? found
  rw [parts.columns] at inside
  obtain ⟨other, member, same⟩ := List.mem_map.mp (SortedMap.mem_of_mem_ofList inside)
  cases same
  exact List.mem_filterMap.mp member

theorem mem_columns_keys_iff (parts : IsReadFrom block table) (distinct : (columnSources block).Nodup)
    (source : Text) : source ∈ table.columns.keys ↔ source ∈ columnSources block := by
  constructor
  · intro member
    obtain ⟨entry, inside, rfl⟩ := List.mem_map.mp member
    obtain ⟨child, childMember, read⟩ := exists_of_get?_columns parts (SortedMap.get?_of_mem inside)
    rw [← hasOwnSources_of_isReadFrom parts entry inside]
    exact List.mem_filterMap.mpr ⟨child, childMember, (name?_of_readColumn? read).2⟩
  · intro member
    obtain ⟨child, childMember, known⟩ := List.mem_filterMap.mp member
    obtain ⟨column, found, -⟩ := exists_get?_columns parts distinct childMember known
    exact List.mem_map.mpr ⟨_, SortedMap.mem_of_get? found, rfl⟩

/-- The generated measures of a table are those that bear the name of its row count. -/
theorem mem_generatedMeasures_iff_name (parts : IsReadFrom block table) (name : Text) :
    name ∈ generatedMeasures table ↔
      name ∈ measureNames block ∧ name = Convention.countMeasure table.name := by
  rw [mem_generatedMeasures_iff, parts.measures, measureNames]
  constructor
  · rintro ⟨measure, member, generated, rfl⟩
    obtain ⟨child, inside, read⟩ := List.mem_filterMap.mp member
    obtain ⟨found, named, rfl⟩ := Option.map_eq_some_iff.mp read
    refine ⟨List.mem_filterMap.mpr ⟨child, inside, ?_⟩, eq_of_beq generated⟩
    rw [name?, named]
    rfl
  · rintro ⟨member, rfl⟩
    obtain ⟨child, inside, named⟩ := List.mem_filterMap.mp member
    obtain ⟨measure, read, same, -, generated⟩ :=
      Definition.TableOutline.exists_readMeasure? table.name named
    refine ⟨measure, List.mem_filterMap.mpr ⟨child, inside, read⟩, ?_, same⟩
    rw [generated]
    exact beq_self_eq_true _

end

end Change

/-! ## Merged tables -/

namespace Definition

open Change (KeepsColumns KeepsCount AreNamesakes AreHarmless columnSources)

theorem Column.IsReread.name? {column : Column} {state : ColumnState} {block : Block}
    (reread : column.IsReread state block) : Prior.name? "column" block = some column.name :=
  column.name?_column reread.line

namespace TableOutline

variable {outline : TableOutline} {tag : Member -> Text}

theorem IsReread.countNames_subset {tableTag : Text} {states : Column -> ColumnState} {block : Block}
    (reread : outline.IsReread tableTag states block) : outline.countNames ⊆ measureNames block := by
  intro name member
  rw [countNames] at member
  split at member
  · next counted =>
      rw [List.mem_singleton.mp member]
      have line := reread.counted
      rw [countNodes, if_pos counted, List.map_singleton, List.cons_subset] at line
      obtain ⟨child, inside, same⟩ := List.mem_map.mp line.1
      have header : child.header? "measure" = some outline.countHeader := by
        rw [Block.header?, Block.text, same]
        exact outline.header?_countNode [] []
      have named : Prior.name? "measure" child = some (Convention.countMeasure outline.name) := by
        rw [← outline.name?_countNode [] [], Prior.name?, Prior.nameAndRest?, header, Prior.name?,
          Prior.nameAndRest?, outline.header?_countNode]
      refine List.mem_filterMap.mpr ⟨child, List.mem_filter.mpr ⟨inside, ?_⟩, named⟩
      rw [Block.hasHeader, header]
      rfl
  · cases member

/-- Whatever is known of a table, the merged one is read again with the lines of its
outline. -/
theorem exists_isReread_mergedBlock (readable : outline.IsReadable) (tags : ∀ member, IsTag (tag member))
    {known : Option Prior.Table} (writable : ∀ earlier ∈ known, earlier.IsWritable) :
    ∃ table tableTag states,
      Document.ofText (Document.render ⟨[outline.mergedBlock tag known], true⟩) = ⟨[table], true⟩ ∧
      outline.IsReread tableTag states table := by
  cases known with
  | none =>
      have nested : (outline.mergedBlock tag none).IsNested :=
        isNested_freshState readable fun member => (tags member).isSingleLine
      exact ⟨_, _, _, Document.ofText_render [_] (by simp) (by simpa using nested)
        (List.pairwise_singleton _ _), isReread_freshState outline tag⟩
  | some earlier =>
      obtain ⟨table, read, reread⟩ := exists_isReread_mergeTable readable tags (writable earlier rfl)
      rw [mergeTable_block] at read
      exact ⟨table, _, _, read, reread⟩

variable {prior merged : Block} {old new : Prior.Table} {tableTag : Text}
variable {states : Column -> ColumnState} {settings : Change.Settings}

/-- Each column of the written table stands in the merged one under its name and source. -/
theorem exists_column_of_isReread (reread : outline.IsReread tableTag states merged) {child : Block}
    (member : child ∈ (outline.block (outline.freshState tag)).childrenWith "column") :
    ∃ other ∈ merged.childrenWith "column", columnSource? other = columnSource? child ∧
      name? "column" other = name? "column" child := by
  have both := forall₂_of_common (isReread_freshState outline tag).columns reread.columns
  obtain ⟨position, bound, rfl⟩ := List.mem_iff_getElem.mp member
  have same := both.length_eq
  obtain ⟨column, -, first, second⟩ := both.get bound (same ▸ bound)
  refine ⟨_, List.getElem_mem (same ▸ bound), ?_, ?_⟩
  · exact second.columnSource?.trans first.columnSource?.symm
  · exact second.name?.trans first.name?.symm

theorem keepsColumns_of_isReread (parts : IsReadFrom prior old) (distinct : (columnSources prior).Nodup)
    (freshParts : IsReadFrom (outline.block (outline.freshState tag)) new)
    (harmless : AreHarmless (Change.columnChanges settings old new))
    (reread : outline.IsReread tableTag states merged) : KeepsColumns prior merged := by
  obtain ⟨partner, injective, each⟩ := Change.exists_columnPartner
    (Change.hasOwnSources_of_isReadFrom parts) (Change.hasOwnSources_of_isReadFrom freshParts) harmless
  simp only [Change.mem_columns_keys_iff parts distinct] at injective
  refine ⟨partner, injective, fun column member source known => ?_⟩
  obtain ⟨oldColumn, found, read⟩ := Change.exists_get?_columns parts distinct member known
  obtain ⟨newColumn, isFresh, partnership⟩ := each source oldColumn found
  obtain ⟨child, childMember, childRead⟩ := Change.exists_of_get?_columns freshParts isFresh
  obtain ⟨other, otherMember, sameSource, sameName⟩ := exists_column_of_isReread reread childMember
  obtain ⟨named, sourced⟩ := Change.name?_of_readColumn? childRead
  have own := Change.source_of_get? (Change.hasOwnSources_of_isReadFrom freshParts) isFresh
  refine ⟨other, otherMember, by rw [sameSource, sourced, own], partnership.imp_right fun alike => ?_⟩
  exact ⟨_, _, (Change.name?_of_readColumn? read).1, sameName.trans named, alike⟩

theorem keepsCount_of_isReread (parts : IsReadFrom prior old)
    (freshParts : IsReadFrom (outline.block (outline.freshState tag)) new)
    (harmless : AreHarmless (Change.measureChanges old new))
    (reread : outline.IsReread tableTag states merged) : KeepsCount prior merged := by
  intro name named member
  rw [parts.name] at named
  have generated := (Change.mem_generatedMeasures_iff_name parts _).mpr
    ⟨member, congrArg Convention.countMeasure (Option.some.inj named).symm⟩
  have isFresh := (Change.mem_generatedMeasures_iff_name freshParts _).mp
    (Change.generatedMeasures_subset harmless generated)
  rw [measureNames_freshState] at isFresh
  exact reread.countNames_subset isFresh.1

end TableOutline

end Definition

namespace Change

/-! ## Tables by their keys -/

theorem exists_tableKey? {definitions : DefinitionSet} {block : Block}
    (member : block ∈ tableBlocks definitions) : ∃ key, tableKey? block = some key := by
  obtain ⟨file, -, inside⟩ := List.mem_flatMap.mp member
  obtain ⟨rest, header⟩ := Option.isSome_iff_exists.mp (List.mem_filter.mp inside).2
  rw [tableKey?, name?, Prior.nameAndRest?, header]
  exact ⟨_, rfl⟩

/-- Under different keys a block is the only one for its key. -/
theorem tableBlocksFor_eq_singleton {definitions : DefinitionSet}
    (distinct : HasDistinctTables definitions) {block : Block}
    (member : block ∈ tableBlocks definitions) {key : Text} (known : tableKey? block = some key) :
    tableBlocksFor definitions key = [block] := by
  have inside : block ∈ tableBlocksFor definitions key :=
    List.mem_filter.mpr ⟨member, by simp [known]⟩
  obtain ⟨only, same⟩ := List.length_eq_one_iff.mp (Nat.le_antisymm
    (Prior.length_tableBlocksFor_le distinct key) (List.length_pos_of_mem inside))
  rw [same] at inside ⊢
  rw [List.mem_singleton.mp inside]

theorem isGenerated_of_readTable? {block : Block} {table : Prior.Table}
    (read : readTable? block = some table) :
    table.isGenerated = (logicalName? block).isSome := by
  obtain ⟨name, -, read⟩ := Option.bind_eq_some_iff.mp read
  obtain ⟨key, -, read⟩ := Option.bind_eq_some_iff.mp read
  cases read
  rfl

section

variable {options : Generation.Options} {supply : Generation.Supply} {selection : Catalog.Selection}
variable {output : Generation.Output} {earlier : DefinitionSet} {settings : Settings}

theorem exists_keptTable (generated : Generation.generate options supply selection = .ok output)
    (names : ∀ plan ∈ Generation.plans options selection, plan.HasSingleLines)
    (tags : ∀ slot, IsTag (supply slot)) (distinct : HasDistinctTables earlier)
    (distinctColumns : HasDistinctColumns earlier)
    (harmless : AreHarmless (compare settings (.ofDefinitions earlier) output.definitions))
    {prior : Block} (member : prior ∈ tableBlocks earlier)
    (logical : (logicalName? prior).isSome = true) :
    ∃ table ∈ tableBlocks (merge output.definitions (.ofDefinitions earlier)),
      tableKey? table = tableKey? prior ∧ KeepsColumns prior table ∧ KeepsCount prior table := by
  obtain ⟨key, known⟩ := exists_tableKey? member
  obtain ⟨old, found, read⟩ :=
    Prior.exists_get?_tables (tableBlocksFor_eq_singleton distinct member known)
  have isGenerated := (isGenerated_of_readTable? read).trans logical
  have compared := hasHarmlessParts_of_compare harmless
  obtain ⟨new, isFresh⟩ := compared.exists_get?_of_isGenerated found isGenerated
  have changes := compared.areHarmless_tableChanges found isFresh
  -- The fresh table stands in a file that holds it alone.
  obtain ⟨block, blockMember, freshRead⟩ := Prior.exists_mem_of_get?_tables isFresh
  obtain ⟨isTable, freshKey⟩ := List.mem_filter.mp blockMember
  obtain ⟨file, fileMember, blockInside⟩ := List.mem_flatMap.mp isTable
  obtain ⟨isFile, folder⟩ := List.mem_filter.mp fileMember
  obtain ⟨outline, tag, written, merged⟩ := Generation.exists_mergedBlock generated names tags folder
    (SortedMap.get?_of_mem isFile)
  obtain ⟨table, tableTag, states, readAgain, reread⟩ :=
    Definition.TableOutline.exists_isReread_mergedBlock written.readable written.tags
      fun _ known => Prior.isWritable_of_get?_tables known
  rw [Document.blocksWith, written.ofText] at blockInside
  have same := List.mem_singleton.mp (List.mem_of_mem_filter blockInside)
  rw [same] at freshRead freshKey
  have freshParts := Prior.isReadFrom_of_readTable? freshRead
  have parts := Prior.isReadFrom_of_readTable? read
  have sameKey : tableKey? table = some key := by
    rw [reread.tableKey?, ← (Definition.TableOutline.isReread_freshState outline tag).tableKey?]
    exact eq_of_beq freshKey
  refine ⟨table, ?_, sameKey.trans known.symm,
    Definition.TableOutline.keepsColumns_of_isReread parts (distinctColumns prior member) freshParts
      changes.1 reread,
    Definition.TableOutline.keepsCount_of_isReread parts freshParts changes.2 reread⟩
  refine List.mem_flatMap.mpr ⟨_, List.mem_filter.mpr
    ⟨SortedMap.mem_of_get? (merged (.ofDefinitions earlier)), folder⟩, ?_⟩
  rw [Document.blocksWith, readAgain]
  exact List.mem_filter.mpr ⟨List.mem_singleton_self table, Prior.hasHeader_of_tableKey? sameKey⟩

end

/-! ## Relationships by their endpoints -/

theorem keys_knownOf (definitions : DefinitionSet) :
    (knownOf definitions).map (·.key) =
      (Prior.Model.ofDefinitions definitions).relationships.map (·.key) := by
  rw [knownOf, List.map_map]
  rfl

theorem nodup_keys_relationships (definitions : DefinitionSet) :
    ((Prior.Model.ofDefinitions definitions).relationships.map (·.key)).Nodup := by
  rw [← keys_knownOf, Prior.knownOf_eq]
  exact Prior.nodup_keys_foldl_addKnown List.nodup_nil

theorem keys_relationships_subset (definitions : DefinitionSet) :
    (Prior.Model.ofDefinitions definitions).relationships.map (·.key) ⊆
      relationshipKeys definitions := by
  rw [← keys_knownOf]
  intro key member
  obtain ⟨known, inside, rfl⟩ := List.mem_map.mp member
  obtain ⟨block, blockMember, read⟩ := Prior.exists_block_of_mem_knownOf inside
  exact List.mem_filterMap.mpr ⟨block, blockMember, (Prior.block_of_known? read).2.1⟩

theorem keys_relationships_of_distinct {definitions : DefinitionSet}
    (distinct : HasDistinctRelationships definitions) :
    (Prior.Model.ofDefinitions definitions).relationships.map (·.key) =
      relationshipKeys definitions := by
  rw [← keys_knownOf, Prior.knownOf_of_distinct distinct, List.map_filterMap]
  exact List.filterMap_congr fun block _ => Prior.map_key_known? block

/-- Under different endpoints a block is known with its mark. -/
theorem exists_relationship_of_mem {definitions : DefinitionSet}
    (distinct : HasDistinctRelationships definitions) {block : Block}
    (member : block ∈ relationshipBlocks definitions) {key : RelationshipKey}
    (known : relationshipKey? block = some key) :
    ∃ old ∈ (Prior.Model.ofDefinitions definitions).relationships,
      old.key = key ∧ old.isGenerated = isMarked block := by
  obtain ⟨relationship, read, sameKey⟩ := Prior.exists_known? known
  have inside : relationship ∈ knownOf definitions := by
    rw [Prior.knownOf_of_distinct distinct]
    exact List.mem_filterMap.mpr ⟨block, member, read⟩
  obtain ⟨old, oldMember, rfl⟩ := List.mem_map.mp inside
  refine ⟨old, oldMember, sameKey, ?_⟩
  rw [isMarked, Prior.any_annotationsOf]
  exact (Prior.block_of_known? read).2.2.2

theorem relationshipKey?_mergeRelationship (definitions : DefinitionSet) (block : Block) :
    relationshipKey? (mergeRelationship (.ofDefinitions definitions) block) =
      relationshipKey? block := by
  rcases Prior.mergeRelationship_eq definitions block with same | ⟨_, _, _, _, _, same⟩ <;> rw [same]
  rfl

/-- The merged file has the fresh endpoints and those of the added relationships. -/
theorem filterMap_relationshipKey?_merged (earlier : DefinitionSet) (fresh added : List Block) :
    (fresh.map (mergeRelationship (.ofDefinitions earlier)) ++
        added.map withoutDescriptions).filterMap relationshipKey? =
      fresh.filterMap relationshipKey? ++ added.filterMap relationshipKey? := by
  rw [List.filterMap_append, List.filterMap_map, List.filterMap_map]
  congr 1
  · exact List.filterMap_congr fun block _ => relationshipKey?_mergeRelationship earlier block
  · exact List.filterMap_congr fun block _ => Prior.relationshipKey?_withoutDescriptions block

theorem keepsRelationships_of_areHarmless {settings : Settings} {earlier fresh : DefinitionSet}
    (distinct : HasDistinctRelationships earlier)
    (harmless : AreHarmless (compare settings (.ofDefinitions earlier) fresh)) :
    KeepsRelationships (relationshipBlocks earlier) (relationshipBlocks fresh)
      ((relationshipBlocks fresh).map (mergeRelationship (.ofDefinitions earlier)) ++
        ((relationshipBlocks earlier).filter (isAdded (relationshipKeys fresh))).map
          withoutDescriptions) := by
  have keys := keys_relationships_of_distinct distinct
  obtain ⟨partner, injective, each⟩ := exists_relationshipPartner
    (nodup_keys_relationships earlier) (nodup_keys_relationships fresh)
    (hasHarmlessParts_of_compare harmless).relationships
  rw [keys] at injective
  refine ⟨partner, injective, fun prior member key known notCalendar => ?_⟩
  obtain ⟨old, oldMember, rfl, marked⟩ := exists_relationship_of_mem distinct member known
  have becomes := each old oldMember notCalendar
  rw [filterMap_relationshipKey?_merged, List.mem_append]
  generalize partner old.key = key at becomes
  cases becomes with
  | stays kept =>
      refine ⟨?_, Or.inl rfl⟩
      by_cases isFresh : old.key ∈ relationshipKeys fresh
      · exact Or.inl isFresh
      · have unmarked : old.isGenerated = false := by
          refine kept.resolve_left fun found => isFresh ?_
          by_contra absent
          have none := (relationship?_eq_none_iff (.ofDefinitions fresh) old.key).mpr
            fun inside => absent (keys_relationships_subset fresh inside)
          rw [none] at found
          cases found
        refine Or.inr (List.mem_filterMap.mpr ⟨prior, List.mem_filter.mpr ⟨member, ?_⟩, known⟩)
        simp [isAdded, known, isFresh, notCalendar, ← marked, unmarked]
  | moves generated isFresh isNew source =>
      have inside := keys_relationships_subset fresh isFresh
      rw [keys] at isNew
      exact ⟨Or.inl inside, Or.inr ⟨marked ▸ generated, source, inside, isNew⟩⟩

/-! ## Generated sets -/

/-- A merged set has what an earlier set has of generated tables and of relationships. -/
structure LosesNothing (earlier fresh merged : DefinitionSet) : Prop where
  tables : ∀ prior ∈ tableBlocks earlier, (logicalName? prior).isSome = true ->
    ∃ table ∈ tableBlocks merged, tableKey? table = tableKey? prior ∧ KeepsColumns prior table ∧
      KeepsCount prior table
  relationships : ∃ blocks, merged.get? Path.relationships = relationshipText? blocks ∧
    KeepsRelationships (relationshipBlocks earlier) (relationshipBlocks fresh)
      (blocks.filter (Block.hasHeader "relationship")) ∧
    ((∀ block ∈ relationshipBlocks earlier, block.depth = 0) ->
      relationshipBlocks merged = blocks.filter (Block.hasHeader "relationship"))

end Change

end TabularModel
