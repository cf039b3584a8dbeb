import TabularModel.Proofs.Change.Losses
import TabularModel.Proofs.Change.NothingLost
import TabularModel.Proofs.Generation.Renaming

/-!
# Models under other display names

A model whose tables and columns are called otherwise keeps the identifiers of all of
them, since they are known by their logical names and by their sources. What is lost is
known by display names: the row counts of renamed fact tables, and relationships whose
source is called otherwise.
-/

set_option autoImplicit false

namespace TabularModel

open Catalog (Edge Selection)
open Generation (HasStableTables IsGenerated Joins Options Output Supply WrittenTable context edgeKeys
  isTag_wordsOf label wordsOf writtenTables)
open Prior (Element IsReadFrom IsTag Label Model labels)

/-! ## Losses under other names -/

/-- A destructive change that comes with other display names: the row count of a fact
table is called otherwise, or the source of a relationship is. -/
inductive Change.IsRenaming (options : Options) (before after : Selection) : Change -> Prop where
  | count {table other : Catalog.Table} (member : table ∈ before.tables)
      (otherMember : other ∈ after.tables) (logicalName : table.logicalName = other.logicalName)
      (isFact : table.isFact = true) (renamed : table.modelName ≠ other.modelName) :
      IsRenaming options before after
        (.measure table.modelName (Convention.countMeasure table.modelName) .generatedRemoved)
  | relationship {edge : Edge} (member : edge ∈ before.edges) {key ends moved : RelationshipKey}
      (joins : Joins (context options before) before.tables edge ends)
      (joined : Joins (context options after) after.tables edge moved)
      (source : ends.source = key.source) (renamed : moved.source ≠ key.source) :
      IsRenaming options before after (.relationship key .removed)

namespace Generation

variable {options : Options} {supply other : Supply} {selection : Selection}
variable {relationships : List Definition.Relationship} {fresh : Output} {earlier : DefinitionSet}

/-! ## Labels -/

theorem isKept_of_isLogical {element : Element} (logical : element.isLogical = true) (name : Text) :
    element ≠ .expression name := by
  rintro rfl
  cases logical

/-- A table or a column is labelled where it is written, by what it had or by a fresh
identifier. -/
theorem IsGenerated.mem_labels_iff
    (generated : IsGenerated options supply selection relationships fresh)
    (names : HasStableTables options selection) (tags : ∀ slot, IsTag (supply slot))
    (unedited : Prior.IsUnedited earlier) {element : Element} (logical : element.isLogical = true)
    {identifier : Text} :
    (element, identifier) ∈ labels (merge fresh.definitions (.ofDefinitions earlier)) ↔
      ∃ slot, (element, slot) ∈ (writtenTables options selection).flatMap WrittenTable.elements ∧
        ((Model.ofDefinitions earlier).identifier? element).getD (supply slot) = identifier := by
  have ofTables : (element, identifier) ∈
      labels (merge fresh.definitions (.ofDefinitions earlier)) ↔
      (element, identifier) ∈ ((writtenTables options selection).flatMap
        WrittenTable.elements).map (label earlier supply) := by
    rw [← (generated.perm_tableLabels names tags unedited).mem_iff]
    refine ⟨fun member => ?_, List.mem_append_left _⟩
    refine (Prior.mem_or_mem_of_mem_labels member (isKept_of_isLogical logical)).resolve_right ?_
    intro ofRelationship
    obtain ⟨block, _, read⟩ := List.mem_filterMap.mp ofRelationship
    obtain ⟨relationship, _, isLabel⟩ := Option.map_eq_some_iff.mp read
    rw [← (Prod.mk.inj isLabel).1] at logical
    cases logical
  rw [ofTables, List.mem_map]
  constructor
  · rintro ⟨⟨own, slot⟩, inside, isLabel⟩
    obtain ⟨rfl, found⟩ := Prod.mk.inj isLabel
    exact ⟨slot, inside, found⟩
  · rintro ⟨slot, inside, rfl⟩
    exact ⟨_, inside, rfl⟩

/-- Whatever has an identifier in the earlier set is labelled by it. -/
theorem IsGenerated.eq_of_mem_labels
    (generated : IsGenerated options supply selection relationships fresh)
    (names : HasStableTables options selection) (tags : ∀ slot, IsTag (supply slot))
    (unedited : Prior.IsUnedited earlier) {found : Label}
    (member : found ∈ labels (merge fresh.definitions (.ofDefinitions earlier)))
    (isKept : ∀ name, found.1 ≠ .expression name) {identifier : Text}
    (known : (Model.ofDefinitions earlier).identifier? found.1 = some identifier) :
    found.2 = identifier := by
  have labelled : ∃ element, label earlier supply element = found := by
    rcases Prior.mem_or_mem_of_mem_labels member isKept with ofTable | ofRelationship
    · obtain ⟨element, _, same⟩ := List.mem_map.mp
        ((generated.perm_tableLabels names tags unedited).mem_iff.mp ofTable)
      exact ⟨element, same⟩
    · rw [generated.relationshipLabels (hasSingleLines_of_mem_plans names) tags unedited]
        at ofRelationship
      obtain ⟨element, _, same⟩ := List.mem_map.mp ofRelationship
      exact ⟨element, same⟩
  obtain ⟨element, rfl⟩ := labelled
  change (Option.getD _ _) = _
  rw [show (Model.ofDefinitions earlier).identifier? element.1 = some identifier from known,
    Option.getD_some]

/-! ## Relationships -/

theorem IsGenerated.edgeKeys_subset
    (generated : IsGenerated options supply selection relationships fresh) :
    edgeKeys options selection ⊆ relationships.map Definition.Relationship.key := by
  obtain ⟨toCalendar, _, rfl⟩ := generated.calendar
  rw [List.map_append]
  exact List.subset_append_left _ _

/-- Every relationship is that of an edge, or it leads to the calendar. -/
theorem IsGenerated.mem_edgeKeys_or
    (generated : IsGenerated options supply selection relationships fresh) {key : RelationshipKey}
    (member : key ∈ relationships.map Definition.Relationship.key) :
    key ∈ edgeKeys options selection ∨ selection.calendar.isSome = true ∧
      key.target = Name.columnReference Convention.calendarTable Convention.calendarColumn := by
  obtain ⟨toCalendar, found, rfl⟩ := generated.calendar
  rw [List.map_append, List.mem_append] at member
  refine member.imp_right fun last => ?_
  rcases cases_of_calendarRelationships found with rfl | ⟨configured, column, _, rfl⟩
  · cases last
  · rw [List.map_singleton, List.mem_singleton] at last
    exact ⟨configured, congrArg RelationshipKey.target last⟩

theorem target_ne_of_mem_edgeKeys (checked : check options selection = .ok ())
    (configured : selection.calendar.isSome = true) {key : RelationshipKey}
    (member : key ∈ edgeKeys options selection) :
    key.target ≠ Name.columnReference Convention.calendarTable Convention.calendarColumn := by
  intro same
  obtain ⟨relationship, inside, rfl⟩ := List.mem_map.mp member
  have isEnd := (isEndIn_of_mem_ofEdges inside).2
  rw [show relationship.target = _ from same] at isEnd
  exact not_isEndIn_calendar checked configured isEnd

/-- What an edge joins is labelled. -/
theorem IsGenerated.exists_label_of_joins
    (generated : IsGenerated options supply selection relationships fresh)
    (names : HasStableTables options selection) (tags : ∀ slot, IsTag (supply slot))
    (unedited : Prior.IsUnedited earlier) {edge : Edge} (member : edge ∈ selection.edges)
    {ends : RelationshipKey}
    (joins : Joins (context options selection) selection.tables edge ends) :
    ∃ name, (.relationship ends, name) ∈
      labels (merge fresh.definitions (.ofDefinitions earlier)) := by
  have inside := generated.edgeKeys_subset
    ((mem_edgeKeys_iff generated.checked).mpr ⟨edge, member, joins⟩)
  obtain ⟨relationship, isEmitted, rfl⟩ := List.mem_map.mp inside
  obtain ⟨position, bound, rfl⟩ := List.mem_iff_getElem.mp isEmitted
  have isLabel : label earlier supply (.relationship relationships[position].key,
      .relationship position) ∈ (Prior.relationshipBlocks
        (merge fresh.definitions (.ofDefinitions earlier))).filterMap Prior.relationshipLabel? := by
    rw [generated.relationshipLabels (hasSingleLines_of_mem_plans names) tags unedited,
      generated.emitted_eq]
    exact List.mem_map_of_mem (List.mem_mapIdx.mpr ⟨position, bound, rfl⟩)
  exact ⟨_, List.mem_append_right _ (List.mem_append_right _ isLabel)⟩

/-! ## Tables -/

/-- What is known of a table in a merged set is read from the block of a written one. -/
theorem IsGenerated.exists_of_get?_tables
    (generated : IsGenerated options supply selection relationships fresh)
    (names : HasStableTables options selection) (tags : ∀ slot, IsTag (supply slot))
    (unedited : Prior.IsUnedited earlier) {key : Text} {known : Prior.Table}
    (found : (Model.ofDefinitions (merge fresh.definitions (.ofDefinitions earlier))).tables.get?
      key = some known) :
    ∃ table ∈ writtenTables options selection, key = table.outline.logicalName ∧
      IsReadFrom (table.outline.block (table.renewed supply earlier)) known := by
  have singles := hasSingleLines_of_mem_plans names
  obtain ⟨block, member, isKey, parts⟩ := Prior.exists_block_of_get?_tables found
  obtain ⟨table, tableMember, rfl⟩ :=
    generated.exists_renewed_of_mem_tableBlocks singles tags unedited member
  obtain ⟨-, ownKey⟩ := (isSettledIn_renewed singles tags unedited tableMember).blocksWith_table
    (isStable_of_mem_writtenTables names tableMember)
  exact ⟨table, tableMember, Option.some.inj (isKey.symm.trans ownKey), parts⟩

/-- The columns of a table are known under their sources. -/
theorem WrittenTable.IsStable.mem_sources {table : WrittenTable} (stable : table.IsStable)
    (settled : IsSettledIn supply earlier table (table.renewedColumn supply earlier)
      (table.renewed supply earlier)) {known : Prior.Table}
    (parts : IsReadFrom (table.outline.block (table.renewed supply earlier)) known) {source : Text}
    {column : Prior.Column} (found : known.columns.get? source = some column) :
    source ∈ table.outline.columns.map (·.source) := by
  obtain ⟨child, member, read⟩ := Change.exists_of_get?_columns parts found
  rw [Definition.TableOutline.childrenWith_column_of_isSettled settled.settled] at member
  obtain ⟨own, inside, rfl⟩ := List.mem_map.mp member
  have trimmed : Text.trim own.source = own.source := (stable.trimmed own inside).source
  have isSource := (Change.name?_of_readColumn? read).2
  rw [own.columnSource?_block, trimmed] at isSource
  have same := Change.hasOwnSources_of_isReadFrom parts _ (SortedMap.mem_of_get? found)
  exact List.mem_map.mpr ⟨own, inside, (Option.some.inj isSource).trans same⟩

theorem WrittenTable.get?_recovered_ne_none (table : WrittenTable) (supply : Supply) {source : Text}
    (member : source ∈ table.outline.columns.map (·.source)) :
    (table.recovered supply).columns.get? source ≠ none := by
  obtain ⟨column, inside, rfl⟩ := List.mem_map.mp member
  intro absent
  exact (SortedMap.get?_ofList_eq_none_iff _ _).mp absent _
    (List.mem_map.mpr ⟨column, inside, rfl⟩) rfl

theorem WrittenTable.mem_generatedMeasures_recovered {table : WrittenTable}
    (counted : table.outline.isCounted = true) (supply : Supply) :
    Convention.countMeasure table.outline.name ∈
      Change.generatedMeasures (table.recovered supply) := by
  rw [Change.mem_generatedMeasures_iff, WrittenTable.recovered, Definition.TableOutline.recovered,
    Definition.TableOutline.countNodes, if_pos counted]
  exact ⟨_, List.mem_singleton_self _, rfl, rfl⟩

/-- Only a counted table has a generated measure, the count of its rows. -/
theorem WrittenTable.isCounted_of_mem_generatedMeasures {table : WrittenTable} {known : Prior.Table}
    (parts : IsReadFrom (table.outline.block (table.renewed supply earlier)) known) {name : Text}
    (member : name ∈ Change.generatedMeasures known) :
    table.outline.isCounted = true ∧ known.name = table.outline.name ∧
      name = Convention.countMeasure table.outline.name := by
  obtain ⟨inside, isCount⟩ := (Change.mem_generatedMeasures_iff_name parts _).mp member
  have names : Prior.measureNames (table.outline.block (table.renewed supply earlier)) =
      table.outline.countNames :=
    table.outline.filterMap_name?_measures (table.outline.hasHeader_measure_map_block _) rfl
  rw [names, Definition.TableOutline.countNames] at inside
  split at inside
  · next counted =>
      have named := parts.name
      rw [table.outline.name?_table rfl] at named
      exact ⟨counted, (Option.some.inj named).symm, List.mem_singleton.mp inside⟩
  · cases inside

/-! ## What is lost -/

/-! Two selections that differ in display names, and a set of the second one beside a
merged set of the first one. -/

section

variable {before after : Selection} {renamed : List Definition.Relationship} {alone : Output}
variable (generated : IsGenerated options supply before relationships fresh)
variable (regenerated : IsGenerated options other after renamed alone)
variable (same : before.unnamed = after.unnamed) (names : HasStableTables options before)
variable (otherNames : HasStableTables options after) (tags : ∀ slot, IsTag (supply slot))
variable (otherTags : ∀ slot, IsTag (other slot)) (unedited : Prior.IsUnedited earlier)

include generated regenerated names otherNames tags otherTags unedited

/-- What is labelled in both sets has one identifier. -/
theorem eq_of_mem_labels_merge {element : Element} (isKept : ∀ name, element ≠ .expression name)
    {identifier kept : Text}
    (member : (element, identifier) ∈ labels (merge fresh.definitions (.ofDefinitions earlier)))
    (again : (element, kept) ∈ labels (merge alone.definitions
      (.ofDefinitions (merge fresh.definitions (.ofDefinitions earlier))))) : kept = identifier :=
  regenerated.eq_of_mem_labels otherNames otherTags
    (generated.isUnedited_merge (hasSingleLines_of_mem_plans names) tags unedited) again isKept
    (generated.identifier?_of_mem_labels names tags unedited member isKept)

include same

/-- Tables and columns are labelled in both sets alike. -/
theorem mem_labels_merge_iff {element : Element} (logical : element.isLogical = true)
    {identifier : Text} :
    (element, identifier) ∈ labels (merge alone.definitions
        (.ofDefinitions (merge fresh.definitions (.ofDefinitions earlier)))) ↔
      (element, identifier) ∈ labels (merge fresh.definitions (.ofDefinitions earlier)) := by
  have unchanged := generated.isUnedited_merge (hasSingleLines_of_mem_plans names) tags unedited
  constructor
  · intro member
    obtain ⟨slot, inside, -⟩ :=
      (regenerated.mem_labels_iff otherNames otherTags unchanged logical).mp member
    have was := (generated.mem_labels_iff names tags unedited logical).mpr
      ⟨slot, mem_tableElements_of_unnamed same.symm logical inside, rfl⟩
    rw [eq_of_mem_labels_merge generated regenerated names otherNames tags otherTags unedited
      (isKept_of_isLogical logical) was member]
    exact was
  · intro member
    obtain ⟨slot, inside, -⟩ := (generated.mem_labels_iff names tags unedited logical).mp member
    have again := (regenerated.mem_labels_iff otherNames otherTags unchanged logical).mpr
      ⟨slot, mem_tableElements_of_unnamed same logical inside, rfl⟩
    rw [← eq_of_mem_labels_merge generated regenerated names otherNames tags otherTags unedited
      (isKept_of_isLogical logical) member again]
    exact again

/-- Relationships are removed only where a source is called otherwise. -/
theorem isRenaming_of_removed {settings : Change.Settings} {key : RelationshipKey}
    (removed : .relationship key .removed ∈ Change.relationshipChanges settings
      (.ofDefinitions (merge fresh.definitions (.ofDefinitions earlier)))
      (.ofDefinitions alone.definitions)) :
    Change.IsRenaming options before after (.relationship key .removed) := by
  have calendar : before.calendar = after.calendar :=
    congrArg (fun selection => selection.calendar) same
  have keys : (Model.ofDefinitions (merge fresh.definitions
      (.ofDefinitions earlier))).relationships.map (·.key) =
      relationships.map Definition.Relationship.key := by
    rw [Change.keys_relationships_of_distinct
      (generated.hasDistinctRelationships_merge names tags unedited),
      generated.relationshipKeys_merge (hasSingleLines_of_mem_plans names) tags unedited]
  have freshKeys : (Model.ofDefinitions alone.definitions).relationships.map (·.key) =
      renamed.map Definition.Relationship.key := by
    rw [regenerated.relationships_ofDefinitions (areApart_of_isGenerated otherNames regenerated)
      otherTags]
    exact List.ext_getElem (by simp) (by simp [Definition.Relationship.recovered])
  by_contra none
  refine Change.not_removed_of_card_le (Change.nodup_keys_relationships _)
    ((edgeKeys options before).toFinset.filter (·.source = key.source))
    ((edgeKeys options after).toFinset.filter (·.source = key.source)) ?_ ?_ ?_ ?_ removed
  · intro found member source notCalendar
    rw [Finset.mem_filter, List.mem_toFinset]
    refine ⟨(generated.mem_edgeKeys_or (keys ▸ member)).resolve_right ?_, source⟩
    rintro ⟨-, target⟩
    rw [RelationshipKey.isCalendar, RelationshipKey.targetTable?, target,
      Name.splitColumnReference?_columnReference] at notCalendar
    cases notCalendar
  · intro found member
    obtain ⟨inside, source⟩ := Finset.mem_filter.mp member
    rw [freshKeys]
    exact ⟨regenerated.edgeKeys_subset (List.mem_toFinset.mp inside), source⟩
  · intro found member isEarlier
    obtain ⟨inside, source⟩ := Finset.mem_filter.mp member
    rw [Finset.mem_filter, List.mem_toFinset]
    refine ⟨(generated.mem_edgeKeys_or (keys ▸ isEarlier)).resolve_right ?_, source⟩
    rintro ⟨configured, target⟩
    exact target_ne_of_mem_edgeKeys regenerated.checked (calendar ▸ configured)
      (List.mem_toFinset.mp inside) target
  · refine card_edgeKeys_le same generated.checked regenerated.checked ?_
    intro edge member ends moved joins joined source
    by_contra elsewhere
    exact none (.relationship member joins joined source elsewhere)

/-- A loss under other display names is that of a row count or of a relationship. -/
theorem isRenaming_of_isLoss {change : Change}
    (loss : Change.IsLoss
      (.ofDefinitions (merge fresh.definitions (.ofDefinitions earlier)))
      (.ofDefinitions alone.definitions) change) :
    Change.IsRenaming options before after change := by
  have written {key : Text} {old : Prior.Table}
      (found : (Model.ofDefinitions (merge fresh.definitions
        (.ofDefinitions earlier))).tables.get? key = some old) :
      ∃ table ∈ writtenTables options before, ∃ moved ∈ writtenTables options after,
        table.IsRenamed moved ∧
          IsReadFrom (table.outline.block (table.renewed supply earlier)) old ∧
          (Model.ofDefinitions alone.definitions).tables.get? key = some (moved.recovered other) := by
    obtain ⟨table, member, rfl, parts⟩ := generated.exists_of_get?_tables names tags unedited found
    obtain ⟨moved, movedMember, isRenamed⟩ := exists_isRenamed same member
    refine ⟨table, member, moved, movedMember, isRenamed, parts, ?_⟩
    rw [isRenamed.logicalName]
    exact regenerated.get?_tables otherNames otherTags movedMember
  cases loss with
  | column found isFresh gone =>
      obtain ⟨table, member, moved, movedMember, isRenamed, parts, known⟩ := written found
      obtain ⟨was, absent⟩ :=
        (Change.mem_withoutPartner_iff (Change.hasOwnSources_of_isReadFrom parts) _).mp gone
      have source := (isStable_of_mem_writtenTables names member).mem_sources
        (isSettledIn_renewed (hasSingleLines_of_mem_plans names) tags unedited member) parts was
      rw [isRenamed.sources] at source
      cases isFresh.symm.trans known
      exact absurd absent (moved.get?_recovered_ne_none other source)
  | measure found isFresh was gone =>
      obtain ⟨table, member, moved, movedMember, isRenamed, parts, known⟩ := written found
      obtain ⟨counted, name, rfl⟩ := WrittenTable.isCounted_of_mem_generatedMeasures parts was
      cases isFresh.symm.trans known
      obtain ⟨own, ownMember, isFact, logicalName, modelName⟩ := exists_fact_of_isCounted member counted
      have movedCounted := isRenamed.isCounted ▸ counted
      obtain ⟨next, nextMember, -, nextLogicalName, nextName⟩ :=
        exists_fact_of_isCounted movedMember movedCounted
      rw [name, ← modelName]
      refine .count ownMember nextMember ?_ isFact ?_
      · rw [logicalName, nextLogicalName, isRenamed.logicalName]
      · intro kept
        refine gone ?_
        rw [← modelName, kept, nextName]
        exact WrittenTable.mem_generatedMeasures_recovered movedCounted other
  | table found gone =>
      obtain ⟨_, _, _, _, _, _, known⟩ := written found
      rw [known] at gone
      cases gone
  | relationship removed =>
      exact isRenaming_of_removed generated regenerated same names otherNames tags otherTags unedited
        removed

end

end Generation

/-! ## Regeneration -/

namespace Regeneration

/-- What a regeneration keeps of the set before it under other display names: tables and
columns are labelled as they were, whatever is labelled in both sets has one identifier,
and so have the relationships of the edges whose ends are called as they were. -/
structure KeepsIdentity (options : Options) (before after : Selection) (earlier : DefinitionSet)
    (result : Regeneration) : Prop where
  written : ∀ table ∈ writtenTables options after, ∀ found ∈ table.elements,
    found.1.isLogical = true -> ∃ identifier, (found.1, identifier) ∈ labels result.definitions
  logical : ∀ element, element.isLogical = true -> ∀ identifier,
    (element, identifier) ∈ labels result.definitions ↔ (element, identifier) ∈ labels earlier
  shared : ∀ element, (∀ name, element ≠ .expression name) -> ∀ identifier kept,
    (element, identifier) ∈ labels earlier -> (element, kept) ∈ labels result.definitions ->
      kept = identifier
  edges : ∀ edge ∈ before.edges, ∀ ends,
    Joins (context options before) before.tables edge ends ->
      Joins (context options after) after.tables edge ends ->
        ∃ name, (.relationship ends, name) ∈ labels earlier ∧
          (.relationship ends, name) ∈ labels result.definitions
  losses : ∀ change ∈ result.changes, change.isDestructive = true ->
    Change.IsRenaming options before after change

variable {options : Options} {settings : Change.Settings} {supply : Supply} {selection : Selection}
variable {definitions : DefinitionSet} {result : Regeneration} {fresh : Output}

/-- Nothing destructive is reported but what the comparison finds. -/
theorem mem_compare_of_isDestructive
    (regenerated : regenerate options settings supply selection (some definitions) = .ok result)
    (generated : Generation.generate options supply selection = .ok fresh) {change : Change}
    (member : change ∈ result.changes) (destructive : change.isDestructive = true) :
    change ∈ Change.compare settings (.ofDefinitions definitions) fresh.definitions := by
  obtain ⟨checked, -⟩ := exists_of_regenerate regenerated
  rw [regenerate, checked, generated] at regenerated
  cases regenerated
  refine (List.mem_append.mp member).resolve_right fun diagnostic => ?_
  obtain ⟨finding, _, rfl⟩ := List.mem_map.mp diagnostic
  cases destructive

end Regeneration

/-- Under other display names all tables and columns keep their lineage tags, and the
relationships keep their names whose ends are called as before. Nothing is lost but row
counts of renamed tables and relationships whose source is called otherwise. -/
theorem regenerate_keepsIdentity {options : Options} {settings : Change.Settings}
    {supply other : Supply} {before after : Selection} {earlier : Option DefinitionSet}
    {first alone : Regeneration}
    (regenerated : regenerate options settings supply before earlier = .ok first)
    (accepted : regenerate options settings other after none = .ok alone)
    (same : before.unnamed = after.unnamed)
    (unedited : ∀ definitions ∈ earlier, Prior.IsUnedited definitions)
    (names : HasStableTables options before) (otherNames : HasStableTables options after)
    (tags : ∀ slot, IsTag (supply slot)) (otherTags : ∀ slot, IsTag (other slot)) :
    ∃ result, regenerate options settings other after (some first.definitions) = .ok result ∧
      result.KeepsIdentity options before after first.definitions := by
  obtain ⟨-, fresh, generated, definitions⟩ := Regeneration.exists_of_regenerate regenerated
  obtain ⟨relationships, isGenerated⟩ := Generation.exists_isGenerated generated
  obtain ⟨checked, moved, movedGenerated, -⟩ := Regeneration.exists_of_regenerate accepted
  obtain ⟨renamed, isMoved⟩ := Generation.exists_isGenerated movedGenerated
  obtain ⟨result, again, merged⟩ :=
    Regeneration.exists_regenerate checked movedGenerated (some first.definitions)
  rw [Regeneration.earlierModel_eq, Option.getD_some] at merged
  rw [Regeneration.earlierModel_eq] at definitions
  have isUnedited : Prior.IsUnedited (earlier.getD .empty) := by
    cases earlier with
    | none => exact Prior.isUnedited_empty
    | some earlier => exact unedited earlier rfl
  have unchanged := isGenerated.isUnedited_merge (Generation.hasSingleLines_of_mem_plans names) tags
    isUnedited
  have losses : ∀ change ∈ result.changes, change.isDestructive = true ->
      Change.IsRenaming options before after change := by
    intro change member destructive
    have compared := Regeneration.mem_compare_of_isDestructive again movedGenerated member destructive
    rw [definitions] at compared
    exact Generation.isRenaming_of_isLoss isGenerated isMoved same names otherNames tags otherTags
      isUnedited (Change.isLoss_of_mem_compare compared destructive)
  refine ⟨result, again, ?_⟩
  rw [definitions] at merged ⊢
  refine ⟨?_, ?_, ?_, ?_, losses⟩
  · intro table member found inside logical
    rw [merged]
    exact ⟨_, (isMoved.mem_labels_iff otherNames otherTags unchanged logical).mpr
      ⟨found.2, List.mem_flatMap.mpr ⟨table, member, inside⟩, rfl⟩⟩
  · intro element logical identifier
    rw [merged]
    exact Generation.mem_labels_merge_iff isGenerated isMoved same names otherNames tags otherTags
      isUnedited logical
  · intro element isKept identifier kept member inside
    rw [merged] at inside
    exact Generation.eq_of_mem_labels_merge isGenerated isMoved names otherNames tags otherTags
      isUnedited isKept member inside
  · intro edge member ends joins joined
    obtain ⟨name, was⟩ := isGenerated.exists_label_of_joins names tags isUnedited member joins
    have edges : before.edges = after.edges := congrArg (fun selection => selection.edges) same
    obtain ⟨kept, again⟩ :=
      isMoved.exists_label_of_joins otherNames otherTags unchanged (edges ▸ member) joined
    rw [merged]
    refine ⟨name, was, ?_⟩
    rw [← Generation.eq_of_mem_labels_merge isGenerated isMoved names otherNames tags otherTags
      isUnedited (fun _ => Element.noConfusion) was again]
    exact again

/-- A fact table and the table that its edge leads to get other names, and so does the
lookup between them. -/
theorem regenerate_keepsIdentity_renamed :
    let options : Options := { Options.standard with checksQueries := false }
    let selection (deal customer buyer : Option Text) : Selection :=
      { modelName := "Sales"
        tables := [{ Catalog.Table.plain "opportunity" "opportunityid" with
            displayName := deal
            role := .fact
            attributes := [⟨"customerid", buyer, .lookup, ["account"], none⟩] },
          { Catalog.Table.plain "account" "accountid" with displayName := customer }]
        edges := [.plain "opportunity" "customerid" "account"]
        calendar := none }
    let before := selection none none none
    let after := selection (some "Deal") (some "Customer") (some "Buyer")
    ∃ first result, regenerate options .standard (wordsOf "1") before none = .ok first ∧
      regenerate options .standard (wordsOf "2") after (some first.definitions) = .ok result ∧
      result.KeepsIdentity options before after first.definitions := by
  intro options selection before after
  have computed : (regenerate options .standard (wordsOf "1") before none).toOption.isSome = true ∧
      (regenerate options .standard (wordsOf "2") after none).toOption.isSome = true := by
    decide +kernel
  obtain ⟨first, isFirst⟩ := Option.isSome_iff_exists.mp computed.1
  obtain ⟨alone, isAlone⟩ := Option.isSome_iff_exists.mp computed.2
  have regenerated := Generation.eq_ok_of_toOption isFirst
  obtain ⟨result, again, keeps⟩ := regenerate_keepsIdentity regenerated
    (Generation.eq_ok_of_toOption isAlone) rfl nofun
    ⟨by decide +kernel, by decide +kernel, nofun⟩ ⟨by decide +kernel, by decide +kernel, nofun⟩
    (isTag_wordsOf (by decide)) (isTag_wordsOf (by decide))
  exact ⟨first, result, regenerated, again, keeps⟩

/-- A fact table that is renamed loses its row count and the name of its relationship. A
column loses its tag beside another one whose source differs in blanks around it, be it a
key or a corrected name, and so does a table beside another one. -/
theorem regenerate_losesIdentity :
    let options : Options := { Options.standard with checksQueries := false }
    let deals (name : Text) : Selection :=
      { modelName := "Sales"
        tables := [{ Catalog.Table.plain "opportunity" "opportunityid" with
            displayName := some name
            role := .fact
            attributes := [⟨"customerid", none, .lookup, ["account"], none⟩] },
          Catalog.Table.plain "account" "accountid"]
        edges := [.plain "opportunity" "customerid" "account"]
        calendar := none }
    let account (key score name : Text) : Selection :=
      { modelName := "Sales"
        tables := [{ Catalog.Table.plain "account" key with
          attributes := [⟨score, some name, .integer, [], none⟩] }]
        edges := []
        calendar := none }
    let twins (name : Text) : Selection :=
      { modelName := "Sales"
        tables := [Catalog.Table.plain "account" "accountid",
          { Catalog.Table.plain " account" "accountid" with displayName := some name }]
        edges := []
        calendar := none }
    let renamings : List (Options × (Text -> Selection) × Element) :=
      [ (options, deals, .relationship ⟨"Old.customerid", "account.accountid"⟩),
        (options, account " accountid" "accountid", .column "account" "accountid"),
        ({ options with corrections := .ofList [("score", " accountid")] },
          account "accountid" "score", .column "account" "accountid"),
        (options, twins, .table "account") ]
    let loses (options : Options) (selection : Text -> Selection) (element : Element) : Prop :=
      (selection "Old").unnamed = (selection "New").unnamed ∧ ∃ first result,
        regenerate options .standard (wordsOf "1") (selection "Old") none = .ok first ∧
        regenerate options .standard (wordsOf "2") (selection "New") (some first.definitions) =
          .ok result ∧
        ∃ identifier, (element, identifier) ∈ labels first.definitions ∧
          identifier ∉ (labels result.definitions).map (·.2)
    (∀ given ∈ renamings, loses given.1 given.2.1 given.2.2) ∧
    ∃ first result, regenerate options .standard (wordsOf "1") (deals "Old") none = .ok first ∧
      regenerate options .standard (wordsOf "2") (deals "New") (some first.definitions) =
        .ok result ∧ result.isDestructive = true := by
  intro options deals account twins renamings loses
  -- Each renaming is evaluated for itself, which needs less space than all at once.
  have computed (given : Options × (Text -> Selection) × Element) (member : given ∈ renamings) :
      (regenerate given.1 .standard (wordsOf "1") (given.2.1 "Old") none).toOption.any
        (fun first => (regenerate given.1 .standard (wordsOf "2") (given.2.1 "New")
          (some first.definitions)).toOption.any fun result =>
            (labels first.definitions).any fun label => label.1 == given.2.2 &&
              !((labels result.definitions).map (·.2)).contains label.2) = true := by
    simp only [renamings, List.mem_cons, List.not_mem_nil, or_false] at member
    rcases member with rfl | rfl | rfl | rfl <;> decide +kernel
  have lost : (regenerate options .standard (wordsOf "1") (deals "Old") none).toOption.any
      (fun first => (regenerate options .standard (wordsOf "2") (deals "New")
        (some first.definitions)).toOption.any Regeneration.isDestructive) = true := by
    decide +kernel
  refine ⟨fun given member => ⟨?_, ?_⟩, ?_⟩
  · simp only [renamings, List.mem_cons, List.not_mem_nil, or_false] at member
    rcases member with rfl | rfl | rfl | rfl <;> rfl
  · obtain ⟨first, isFirst, found⟩ := (Option.any_eq_true _ _).mp (computed given member)
    obtain ⟨result, isResult, found⟩ := (Option.any_eq_true _ _).mp found
    obtain ⟨⟨element, identifier⟩, labelled, gone⟩ := List.any_eq_true.mp found
    obtain ⟨isElement, absent⟩ := Bool.and_eq_true_iff.mp gone
    exact ⟨first, result, Generation.eq_ok_of_toOption isFirst, Generation.eq_ok_of_toOption isResult,
      identifier, eq_of_beq isElement ▸ labelled, by simpa using absent⟩
  · obtain ⟨first, isFirst, found⟩ := (Option.any_eq_true _ _).mp lost
    obtain ⟨result, isResult, destructive⟩ := (Option.any_eq_true _ _).mp found
    exact ⟨first, result, Generation.eq_ok_of_toOption isFirst, Generation.eq_ok_of_toOption isResult,
      destructive⟩

end TabularModel
