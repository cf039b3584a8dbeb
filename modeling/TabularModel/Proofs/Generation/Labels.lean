import TabularModel.Proofs.Generation.Readback
import TabularModel.Proofs.Generation.Unedited
import TabularModel.Proofs.Prior.Labels

/-!
# The labels of a regenerated set

What is written for a selection are its elements, each of which draws a fresh
identifier from a slot of its own. Beside a set that nobody has edited an element
keeps the identifier that is found for it there, and takes the fresh one if there is
none. The merged set has one label for each element and no others.
-/

set_option autoImplicit false

namespace TabularModel

open Catalog (Selection)
open Prior (Element IsTag Label Model knownOf labels mergeFile taggedLabel? tableBlocks tableLabels)

/-! ## Blocks with a tag -/

namespace Prior

theorem taggedLabel?_eq {element : Text -> Element} {keyOf : Block -> Option Text} {block : Block}
    {key tag : Text} (known : keyOf block = some key) (tagged : lineageTag? block = some tag) :
    taggedLabel? element keyOf block = some (element key, tag) := by
  rw [taggedLabel?, keyedTag?_of_lineageTag? tagged, known]
  rfl

theorem filterMap_map_of_some {α β γ : Type} {blockOf : α -> β} {read : β -> Option γ}
    {value : α -> γ} (items : List α)
    (each : ∀ item ∈ items, read (blockOf item) = some (value item)) :
    (items.map blockOf).filterMap read = items.map value := by
  rw [List.filterMap_map, ← List.filterMap_eq_map]
  exact List.filterMap_congr each

theorem relationshipLabel?_block {relationship : Definition.Relationship}
    (ends : relationship.HasEnds) {name : Text} (trimmed : Text.IsTrimmed name) :
    relationshipLabel? (relationship.block name) = some (.relationship relationship.key, name) := by
  obtain ⟨found, read, key⟩ := exists_known? (relationship.relationshipKey?_block ends name)
  have named := (block_of_known? read).2.2.1
  rw [relationship.header?_block trimmed, Option.getD_some] at named
  rw [relationshipLabel?, read, Option.map_some, key, named]

end Prior

namespace Generation

/-! ## Elements -/

/-- The elements of a table, with the slots of their identifiers. -/
def WrittenTable.elements (table : WrittenTable) : List (Element × Slot) :=
  (.table table.outline.logicalName, table.slot .table) ::
    (table.outline.columns.map (fun column =>
        (.column table.outline.logicalName column.source, table.slot (.column column.source))) ++
      table.outline.countNames.map fun name =>
        (.measure table.outline.logicalName name, table.slot (.measure name)))

def parameterElements (options : Options) : List (Element × Slot) :=
  options.connection.parameters.map fun parameter =>
    (.expression parameter.1, .parameter parameter.1)

def relationshipElements (relationships : List Definition.Relationship) : List (Element × Slot) :=
  relationships.mapIdx fun position relationship =>
    (.relationship relationship.key, .relationship position)

/-- Everything that is written for a selection and bears an identifier. -/
def elements (options : Options) (selection : Selection) : List (Element × Slot) :=
  (writtenTables options selection).flatMap WrittenTable.elements ++
    (parameterElements options ++ relationshipElements (emitted options selection))

/-- An element under the identifier that it had, or under a fresh one. -/
def label (earlier : DefinitionSet) (supply : Supply) (found : Element × Slot) : Label :=
  (found.1, ((Model.ofDefinitions earlier).identifier? found.1).getD (supply found.2))

variable {options : Options} {supply : Supply} {selection : Selection}
variable {relationships : List Definition.Relationship} {fresh : Output} {earlier : DefinitionSet}

/-! ## Tables -/

theorem WrittenTable.IsStable.known {table : WrittenTable} (stable : table.IsStable)
    (earlier : DefinitionSet) :
    table.known earlier = (Model.ofDefinitions earlier).tables.get? table.outline.logicalName := by
  have trimmed : Text.trim table.outline.logicalName = table.outline.logicalName := stable.logicalName
  rw [WrittenTable.known, trimmed]

/-- The labels of a written table beside an earlier set. -/
theorem WrittenTable.IsStable.tableLabels_renewed {table : WrittenTable} (stable : table.IsStable)
    (settled : IsSettledIn supply earlier table (table.renewedColumn supply earlier)
      (table.renewed supply earlier)) :
    tableLabels (table.outline.block (table.renewed supply earlier)) =
      table.elements.map (label earlier supply) := by
  obtain ⟨-, key⟩ := settled.blocksWith_table stable
  have inState := settled.settled
  have tagged := inState.isReread.lineageTag? inState.tag
  have columns : ((table.outline.block (table.renewed supply earlier)).childrenWith
      "column").filterMap (taggedLabel? (.column table.outline.logicalName) Prior.columnSource?) =
      table.outline.columns.map fun column => label earlier supply
        (.column table.outline.logicalName column.source, table.slot (.column column.source)) := by
    rw [Definition.TableOutline.childrenWith_column_of_isSettled inState]
    refine Prior.filterMap_map_of_some _ fun column member => ?_
    have trimmed : Text.trim column.source = column.source := (stable.trimmed column member).source
    have source := column.columnSource?_block (table.renewedColumn supply earlier column)
    rw [trimmed] at source
    rw [Prior.taggedLabel?_eq source
      ((column.isReread_block _).lineageTag? (inState.settled column member).tag), label,
      Model.identifier?, ← stable.known, WrittenTable.renewedColumn,
      Definition.TableOutline.renewedColumn, trimmed]
    rfl
  have measures : ((table.outline.block (table.renewed supply earlier)).childrenWith
      "measure").filterMap (taggedLabel? (.measure table.outline.logicalName)
        (Prior.name? "measure")) =
      table.outline.countNames.map fun name => label earlier supply
        (.measure table.outline.logicalName name, table.slot (.measure name)) := by
    rw [Definition.TableOutline.childrenWith_measure_of_isSettled inState]
    unfold Definition.TableOutline.countNodes Definition.TableOutline.countNames
    by_cases counted : table.outline.isCounted = true
    · rw [if_pos counted, if_pos counted]
      refine (List.filterMap_cons_some (Prior.taggedLabel?_eq (table.outline.name?_countNode _ _)
        (Definition.TableOutline.lineageTag?_countNode inState.countTag))).trans ?_
      rw [List.map_singleton, label, Model.identifier?, ← stable.known]
      rfl
    · rw [if_neg counted, if_neg counted]
      rfl
  rw [tableLabels, Prior.taggedLabel?_eq key tagged, key, Option.elim_some, Prior.childLabels, columns,
    measures, WrittenTable.elements, List.map_cons, List.map_append, List.map_map, List.map_map, label,
    Model.identifier?, ← stable.known]
  rfl

/-- The table blocks of a merged set are those of the written tables. -/
theorem IsGenerated.perm_tableBlocks
    (generated : IsGenerated options supply selection relationships fresh)
    (names : HasStableTables options selection) (tags : ∀ slot, IsTag (supply slot))
    (unedited : Prior.IsUnedited earlier) :
    (tableBlocks (merge fresh.definitions (.ofDefinitions earlier))).Perm
      ((writtenTables options selection).map fun table =>
        table.outline.block (table.renewed supply earlier)) := by
  have files : ((merge fresh.definitions (.ofDefinitions earlier)).entries.filter fun file =>
      Path.isInTablesFolder file.1).Perm ((writtenTables options selection).map fun table =>
        (table.path, mergeFile (.ofDefinitions earlier) table.path (table.file supply).2)) := by
    refine (List.perm_ext_iff_of_nodup ?_ ?_).mpr fun file => ?_
    · exact (SortedMap.keys_nodup _).of_map.filter _
    · refine List.Nodup.of_map Prod.fst ?_
      rw [List.map_map]
      exact nodup_paths generated.checked
    · rw [List.mem_filter, List.mem_map]
      constructor
      · rintro ⟨member, isTable⟩
        obtain ⟨table, inside, rfl⟩ := generated.exists_table_of_mem_merge member isTable
        exact ⟨table, inside, rfl⟩
      · rintro ⟨table, inside, rfl⟩
        have isTable := isInTablesFolder_of_mem_writtenTables inside
        refine ⟨SortedMap.mem_of_get? ?_, isTable⟩
        rw [get?_merge_of_ne _ _ (relationships_ne_of_isInTablesFolder isTable),
          generated.get?_path inside isTable, Option.map_some]
  refine (files.flatMap_right _).trans (.of_eq ?_)
  rw [List.flatMap_map, List.map_eq_flatMap]
  refine List.flatMap_congr fun table member => ?_
  exact ((isSettledIn_renewed (hasSingleLines_of_mem_plans names) tags unedited member).blocksWith_table
    (isStable_of_mem_writtenTables names member)).1

theorem IsGenerated.perm_tableLabels
    (generated : IsGenerated options supply selection relationships fresh)
    (names : HasStableTables options selection) (tags : ∀ slot, IsTag (supply slot))
    (unedited : Prior.IsUnedited earlier) :
    ((tableBlocks (merge fresh.definitions (.ofDefinitions earlier))).flatMap tableLabels).Perm
      (((writtenTables options selection).flatMap WrittenTable.elements).map
        (label earlier supply)) := by
  refine ((generated.perm_tableBlocks names tags unedited).flatMap_right _).trans (.of_eq ?_)
  rw [List.flatMap_map, List.map_flatMap]
  refine List.flatMap_congr fun table member => ?_
  exact (isStable_of_mem_writtenTables names member).tableLabels_renewed
    (isSettledIn_renewed (hasSingleLines_of_mem_plans names) tags unedited member)

/-! ## Expressions and relationships -/

theorem IsGenerated.expressionLabels
    (generated : IsGenerated options supply selection relationships fresh)
    (names : HasStableNames options selection) (tags : ∀ slot, IsTag (supply slot)) :
    (Prior.expressionBlocks (merge fresh.definitions (.ofDefinitions earlier))).filterMap
        (taggedLabel? .expression (Prior.name? "expression")) =
      (parameterElements options).map (label earlier supply) := by
  have different : Path.relationships ≠ Path.expressions := by decide
  have readable := Definition.areReadable_parameters names.parameters
  have merged : ∀ name, IsTag
      (((Model.ofDefinitions earlier).expressionTags.get? name).getD (supply (.parameter name))) :=
    fun _ => Prior.isTag_getD (fun _ known => Prior.isTag_of_get?_expressionTags known) (tags _)
  have isFresh := generated.get?_of_mem_others (List.mem_append_right _ List.mem_cons_self)
  rw [Prior.expressionBlocks, Prior.fileBlocks, get?_merge_of_ne _ _ different, isFresh,
    Option.map_some, Option.elim_some, Definition.mergeFile_parametersText readable
      (fun name => tags (.parameter name)), Definition.ofText_render_parameterNodes readable merged,
    List.filter_eq_self.mpr, parameterElements, List.map_map]
  · refine Prior.filterMap_map_of_some _ fun parameter _ => ?_
    exact Prior.taggedLabel?_eq (Definition.name?_parameterNode parameter _)
      (Definition.lineageTag?_parameterNode parameter (merged _))
  · intro block member
    obtain ⟨parameter, _, rfl⟩ := List.mem_map.mp member
    exact Definition.hasHeader_parameterNode parameter _

/-- The relationship blocks of a merged set are the fresh ones under their earlier
names. -/
theorem IsGenerated.relationshipBlocks_merge
    (generated : IsGenerated options supply selection relationships fresh)
    (names : ∀ plan ∈ plans options selection, plan.HasSingleLines)
    (tags : ∀ slot, IsTag (supply slot)) (unedited : Prior.IsUnedited earlier) :
    Prior.relationshipBlocks (merge fresh.definitions (.ofDefinitions earlier)) =
      Prior.namedBlocks (knownOf earlier) (fun position => supply (.relationship position))
        relationships := by
  have each := Prior.isNested_of_mem_mergedBlocks unedited.known (generated.hasEnds names)
    fun position => tags (.relationship position)
  have blocks := Prior.fileBlocks_of_relationshipText?
    (generated.get?_relationships_merge names tags earlier) fun block member => (each block member).1
  rw [Prior.relationshipBlocks_eq, blocks, List.filter_eq_self.mpr fun block member =>
    (each block member).2, mergedBlocks_of_isUnedited unedited]

theorem IsGenerated.relationshipLabels
    (generated : IsGenerated options supply selection relationships fresh)
    (names : ∀ plan ∈ plans options selection, plan.HasSingleLines)
    (tags : ∀ slot, IsTag (supply slot)) (unedited : Prior.IsUnedited earlier) :
    (Prior.relationshipBlocks (merge fresh.definitions (.ofDefinitions earlier))).filterMap
        Prior.relationshipLabel? =
      (relationshipElements (emitted options selection)).map (label earlier supply) := by
  have words (position : Nat) : IsTag (supply (.relationship position)) := tags _
  have ends := generated.hasEnds names
  rw [generated.relationshipBlocks_merge names tags unedited, Prior.namedBlocks, generated.emitted_eq,
    relationshipElements, Prior.map_mapIdx_of_eq relationships fun _ _ _ => rfl]
  refine Prior.filterMap_mapIdx_of_eq relationships fun position relationship member => ?_
  rw [Prior.relationshipLabel?_block (ends relationship member)
    (Prior.isTrimmed_name unedited.known words position _).1, label, Model.identifier?,
    Prior.map_name_relationship?]
  rfl

/-- The labels of a merged set are those of the elements that are written. -/
theorem IsGenerated.perm_labels
    (generated : IsGenerated options supply selection relationships fresh)
    (names : HasStableNames options selection) (tags : ∀ slot, IsTag (supply slot))
    (unedited : Prior.IsUnedited earlier) :
    (labels (merge fresh.definitions (.ofDefinitions earlier))).Perm
      ((elements options selection).map (label earlier supply)) := by
  rw [labels, elements, List.map_append, List.map_append,
    generated.expressionLabels names tags,
    generated.relationshipLabels (hasSingleLines_of_mem_plans names.stableTables) tags unedited]
  exact (generated.perm_tableLabels names.stableTables tags unedited).append_right _

theorem IsGenerated.relationshipKeys_merge
    (generated : IsGenerated options supply selection relationships fresh)
    (names : ∀ plan ∈ plans options selection, plan.HasSingleLines)
    (tags : ∀ slot, IsTag (supply slot)) (unedited : Prior.IsUnedited earlier) :
    Prior.relationshipKeys (merge fresh.definitions (.ofDefinitions earlier)) =
      relationships.map Definition.Relationship.key := by
  rw [Prior.relationshipKeys, generated.relationshipBlocks_merge names tags unedited,
    Prior.namedBlocks]
  exact Prior.filterMap_mapIdx_of_some relationships fun _ relationship member =>
    relationship.relationshipKey?_block (generated.hasEnds names relationship member) _

/-- No two relationships of a merged set have the same endpoints. -/
theorem IsGenerated.hasDistinctRelationships_merge
    (generated : IsGenerated options supply selection relationships fresh)
    (names : HasStableTables options selection) (tags : ∀ slot, IsTag (supply slot))
    (unedited : Prior.IsUnedited earlier) :
    Prior.HasDistinctRelationships (merge fresh.definitions (.ofDefinitions earlier)) := by
  rw [Prior.HasDistinctRelationships, generated.relationshipKeys_merge
    (hasSingleLines_of_mem_plans names) tags unedited]
  exact (areApart_of_isGenerated names generated).distinct

/-! ## Elements that are told apart -/

theorem WrittenTable.tableKey?_of_mem_elements {table : WrittenTable} {found : Element × Slot}
    (member : found ∈ table.elements) :
    found.1.tableKey? = some table.outline.logicalName := by
  rcases List.mem_cons.mp member with rfl | member
  · rfl
  · rcases List.mem_append.mp member with column | measure
    · obtain ⟨column, _, rfl⟩ := List.mem_map.mp column
      rfl
    · obtain ⟨name, _, rfl⟩ := List.mem_map.mp measure
      rfl

theorem WrittenTable.IsStable.nodup_elements {table : WrittenTable} (stable : table.IsStable) :
    (table.elements.map (·.1)).Nodup := by
  have columns : (table.outline.columns.map fun column =>
      Element.column table.outline.logicalName column.source).Nodup := by
    have sources := stable.nodup_sources
    rw [List.Nodup, List.pairwise_map] at sources ⊢
    exact sources.imp fun different same => different (Element.column.inj same).2
  have measures : (table.outline.countNames.map
      (Element.measure table.outline.logicalName)).Nodup := by
    rw [Definition.TableOutline.countNames]
    split
    · exact List.nodup_singleton _
    · exact List.nodup_nil
  rw [WrittenTable.elements, List.map_cons, List.map_append, List.map_map, List.map_map,
    List.nodup_cons, List.nodup_append]
  refine ⟨?_, columns, measures, ?_⟩
  · intro member
    rcases List.mem_append.mp member with column | measure
    · obtain ⟨_, _, same⟩ := List.mem_map.mp column
      cases same
    · obtain ⟨_, _, same⟩ := List.mem_map.mp measure
      cases same
  · intro element member other otherMember same
    obtain ⟨_, _, rfl⟩ := List.mem_map.mp member
    obtain ⟨_, _, rfl⟩ := List.mem_map.mp otherMember
    cases same

/-- What a merged set says of a table, or of a relationship, a merge with it takes over. -/
theorem IsGenerated.identifier?_of_mem_labels
    (generated : IsGenerated options supply selection relationships fresh)
    (names : HasStableTables options selection) (tags : ∀ slot, IsTag (supply slot))
    (unedited : Prior.IsUnedited earlier) {found : Label}
    (member : found ∈ labels (merge fresh.definitions (.ofDefinitions earlier)))
    (other : ∀ name, found.1 ≠ .expression name) :
    (Model.ofDefinitions (merge fresh.definitions (.ofDefinitions earlier))).identifier? found.1 =
      some found.2 := by
  have singles := hasSingleLines_of_mem_plans names
  have settles : ∀ table ∈ writtenTables options selection, IsSettledIn supply earlier table
      (table.renewedColumn supply earlier) (table.renewed supply earlier) :=
    fun _ inside => isSettledIn_renewed singles tags unedited inside
  rcases Prior.mem_or_mem_of_mem_labels member other with ofTable | ofRelationship
  · obtain ⟨block, blockMember, inside⟩ := List.mem_flatMap.mp ofTable
    obtain ⟨table, tableMember, rfl⟩ :=
      generated.exists_renewed_of_mem_tableBlocks singles tags unedited blockMember
    have stable := isStable_of_mem_writtenTables names tableMember
    obtain ⟨-, key⟩ := (settles table tableMember).blocksWith_table stable
    obtain ⟨known, read, -⟩ := Prior.exists_readTable? key
    have isKnown := generated.get?_tables_merge names
      (fun table inside => ⟨_, _, settles table inside⟩) tableMember (settles table tableMember)
    refine Prior.identifier?_of_mem_tableLabels key (isKnown.trans read)
      (Prior.isReadFrom_of_readTable? read) ?_ inside
    rw [Prior.AreDistinct, stable.tableLabels_renewed (settles table tableMember), List.map_map]
    exact stable.nodup_elements
  · exact Prior.identifier?_of_mem_relationshipLabels
      (generated.hasDistinctRelationships_merge names tags unedited) ofRelationship

theorem nodup_tableElements (names : HasStableTables options selection)
    (checked : check options selection = .ok ()) :
    (((writtenTables options selection).flatMap WrittenTable.elements).map (·.1)).Nodup := by
  rw [List.map_flatMap, List.nodup_flatMap]
  refine ⟨fun table member => (isStable_of_mem_writtenTables names member).nodup_elements, ?_⟩
  have distinct := nodup_logicalNames names checked
  rw [List.Nodup, List.pairwise_map] at distinct
  refine distinct.imp fun different => ?_
  intro element member otherMember
  obtain ⟨found, inside, rfl⟩ := List.mem_map.mp member
  obtain ⟨other, otherInside, same⟩ := List.mem_map.mp otherMember
  have key := WrittenTable.tableKey?_of_mem_elements inside
  rw [← same, WrittenTable.tableKey?_of_mem_elements otherInside] at key
  exact different (Option.some.inj key).symm

theorem tableKey?_of_mem_tableElements {found : Element × Slot}
    (member : found ∈ (writtenTables options selection).flatMap WrittenTable.elements) :
    found.1.tableKey?.isSome = true := by
  obtain ⟨table, _, inside⟩ := List.mem_flatMap.mp member
  rw [WrittenTable.tableKey?_of_mem_elements inside]
  rfl

/-- No element is written twice. -/
theorem IsGenerated.nodup_elements
    (generated : IsGenerated options supply selection relationships fresh)
    (names : HasStableNames options selection) :
    ((elements options selection).map (·.1)).Nodup := by
  have parameters : ((parameterElements options).map (·.1)).Nodup := by
    have distinct := (Definition.areReadable_parameters names.parameters).distinct
    rw [parameterElements, List.map_map]
    rw [List.Nodup, List.pairwise_map] at distinct ⊢
    exact distinct.imp fun different same => different (Element.expression.inj same)
  have edges : ((relationshipElements (emitted options selection)).map (·.1)).Nodup := by
    have distinct := (areApart_of_isGenerated names.stableTables generated).distinct
    have keys : (relationshipElements relationships).map (·.1) =
        (relationships.map Definition.Relationship.key).map Element.relationship :=
      List.ext_getElem (by simp [relationshipElements]) (by simp [relationshipElements])
    rw [generated.emitted_eq, keys]
    exact distinct.map fun _ _ same => Element.relationship.inj same
  rw [elements, List.map_append, List.map_append, List.nodup_append, List.nodup_append]
  refine ⟨nodup_tableElements names.stableTables generated.checked, ⟨parameters, edges, ?_⟩, ?_⟩
  · rintro _ member _ otherMember rfl
    obtain ⟨found, inside, same⟩ := List.mem_map.mp member
    obtain ⟨parameter, _, rfl⟩ := List.mem_map.mp inside
    obtain ⟨edge, edgeInside, sameEdge⟩ := List.mem_map.mp otherMember
    obtain ⟨position, _, rfl⟩ := List.mem_mapIdx.mp edgeInside
    rw [← same] at sameEdge
    cases sameEdge
  · rintro _ member _ otherMember rfl
    obtain ⟨found, inside, rfl⟩ := List.mem_map.mp member
    have keyed := tableKey?_of_mem_tableElements inside
    rcases List.mem_append.mp otherMember with isParameter | isEdge
    · obtain ⟨other, otherInside, same⟩ := List.mem_map.mp isParameter
      obtain ⟨parameter, _, rfl⟩ := List.mem_map.mp otherInside
      rw [← same] at keyed
      cases keyed
    · obtain ⟨other, otherInside, same⟩ := List.mem_map.mp isEdge
      obtain ⟨position, _, rfl⟩ := List.mem_mapIdx.mp otherInside
      rw [← same] at keyed
      cases keyed

/-- Words that are drawn for slots in a run of their own. -/
def wordsOf (run : Text) : Supply := fun slot =>
  run ++ ':' :: slot.key.map fun c => if isBlank c then '_' else c

theorem isTag_wordsOf {run : Text} (visible : run.any isBlank = false) (slot : Slot) :
    IsTag (wordsOf run slot) := by
  refine ⟨by simp [wordsOf], ?_⟩
  have fixed : isBlank ':' = false ∧ isBlank '_' = false := by decide
  rw [wordsOf, List.any_append, visible, List.any_cons, fixed.1, List.any_map, Bool.false_or,
    Bool.false_or, List.any_eq_false]
  intro c _ blank
  simp only [Function.comp] at blank
  split at blank
  · exact Bool.noConfusion (fixed.2.symm.trans blank)
  · next visible => exact visible blank

end Generation

end TabularModel
