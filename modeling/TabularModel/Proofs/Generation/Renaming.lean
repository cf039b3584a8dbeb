import Mathlib.Combinatorics.Enumerative.DoubleCounting
import TabularModel.Proofs.Generation.Edges
import TabularModel.Proofs.Generation.Labels
import TabularModel.Proofs.Plan.Renaming

/-!
# Selections that differ in display names

Two selections that differ in display names alone are written as tables that correspond:
under the same logical names, from the same sources and with the same slots for fresh
identifiers. Their edges join corresponding columns, whatever these are called.
-/

set_option autoImplicit false

namespace TabularModel

open Catalog (Edge Selection)
open Prior (Element IsTag Label Model labels)

/-- Elements whose keys hold logical names and sources, and nothing that is displayed. -/
def Prior.Element.isLogical : Element -> Bool
  | .table _ => true
  | .column _ _ => true
  | .measure _ _ => false
  | .expression _ => false
  | .relationship _ => false

namespace Generation

variable {options : Options} {before after : Selection}

/-! ## Corresponding tables -/

theorem forall₂_tables_of_unnamed (same : before.unnamed = after.unnamed) :
    List.Forall₂ (fun table other => table.unnamed = other.unnamed) before.tables after.tables := by
  have tables : before.tables.map Catalog.Table.unnamed = after.tables.map Catalog.Table.unnamed :=
    congrArg (fun selection => selection.tables) same
  rw [← List.forall₂_eq_eq_eq, List.forall₂_map_left_iff, List.forall₂_map_right_iff] at tables
  exact tables

theorem context_eq_of_unnamed (options : Options) (same : before.unnamed = after.unnamed) :
    context options before = context options after := by
  have edges : before.edges = after.edges := congrArg (fun selection => selection.edges) same
  have calendar : before.calendar = after.calendar :=
    congrArg (fun selection => selection.calendar) same
  rw [context, context, edges, calendar]

/-- Two written tables that only display names tell apart. -/
structure WrittenTable.IsRenamed (table other : WrittenTable) : Prop where
  logicalName : table.outline.logicalName = other.outline.logicalName
  slot : table.slot = other.slot
  sources : table.outline.columns.map (·.source) = other.outline.columns.map (·.source)
  isCounted : table.outline.isCounted = other.outline.isCounted

theorem WrittenTable.IsRenamed.refl (table : WrittenTable) : table.IsRenamed table :=
  ⟨rfl, rfl, rfl, rfl⟩

theorem isRenamed_plannedTable (options : Options) (context : Plan.Context)
    {table other : Catalog.Table} (same : table.unnamed = other.unnamed) :
    (plannedTable options (.build context table)).IsRenamed
      (plannedTable options (.build context other)) := by
  have planned := Plan.Table.isPlanned_build context table
  have otherPlanned := Plan.Table.isPlanned_build context other
  have fields := Catalog.Table.fields_of_unnamed same
  have logicalName : (Plan.Table.build context table).logicalName =
      (Plan.Table.build context other).logicalName := by
    rw [planned.logicalName, otherPlanned.logicalName, fields.logicalName]
  have isFact : (Plan.Table.build context table).isFact =
      (Plan.Table.build context other).isFact := by
    rw [planned.isFact, otherPlanned.isFact, Catalog.Table.isFact, Catalog.Table.isFact, fields.role]
  refine ⟨logicalName, congrArg Slot.member logicalName, ?_, isFact⟩
  have sources := (Plan.Table.areAlike_build context same).sources
  rw [plannedTable, plannedTable, Plan.Table.outline, Plan.Table.outline, List.map_map, List.map_map]
  exact sources

/-- The tables that are written for the two selections correspond, one after the other. -/
theorem forall₂_writtenTables (options : Options) (same : before.unnamed = after.unnamed) :
    List.Forall₂ WrittenTable.IsRenamed (writtenTables options before)
      (writtenTables options after) := by
  have calendar : before.calendar = after.calendar :=
    congrArg (fun selection => selection.calendar) same
  rw [writtenTables, writtenTables, plans, plans, List.map_map, List.map_map, calendar,
    context_eq_of_unnamed options same]
  refine List.rel_append ?_ (List.forall₂_same.mpr fun table _ => .refl table)
  rw [List.forall₂_map_left_iff, List.forall₂_map_right_iff]
  exact (forall₂_tables_of_unnamed same).imp fun _ _ names => isRenamed_plannedTable _ _ names

theorem exists_isRenamed (same : before.unnamed = after.unnamed) {table : WrittenTable}
    (member : table ∈ writtenTables options before) :
    ∃ other ∈ writtenTables options after, table.IsRenamed other := by
  obtain ⟨position, bound, rfl⟩ := List.mem_iff_getElem.mp member
  have tables := forall₂_writtenTables options same
  exact ⟨_, List.getElem_mem (tables.length_eq ▸ bound), tables.get bound (tables.length_eq ▸ bound)⟩

/-- A table with a row count is that of a chosen fact table. -/
theorem exists_fact_of_isCounted {selection : Selection} {table : WrittenTable}
    (member : table ∈ writtenTables options selection) (counted : table.outline.isCounted = true) :
    ∃ own ∈ selection.tables, own.isFact = true ∧ own.logicalName = table.outline.logicalName ∧
      own.modelName = table.outline.name := by
  rcases List.mem_append.mp member with planned | calendar
  · obtain ⟨plan, inside, rfl⟩ := List.mem_map.mp planned
    obtain ⟨own, ownMember, rfl, name, logicalName⟩ := exists_table_of_mem_plans inside
    refine ⟨own, ownMember, ?_, logicalName.symm, name.symm⟩
    rw [← (Plan.Table.isPlanned_build (context options selection) own).isFact]
    exact counted
  · rw [Option.mem_toList, Option.map_eq_some_iff] at calendar
    obtain ⟨calendar, _, rfl⟩ := calendar
    cases counted

/-! ## Corresponding elements -/

theorem WrittenTable.IsRenamed.mem_elements {table other : WrittenTable}
    (renamed : table.IsRenamed other) {found : Element × Slot} (logical : found.1.isLogical = true)
    (member : found ∈ table.elements) : found ∈ other.elements := by
  rcases List.mem_cons.mp member with rfl | member
  · rw [renamed.logicalName, renamed.slot]
    exact List.mem_cons_self
  · rcases List.mem_append.mp member with ofColumn | ofMeasure
    · obtain ⟨column, inside, rfl⟩ := List.mem_map.mp ofColumn
      have source : column.source ∈ other.outline.columns.map (·.source) :=
        renamed.sources ▸ List.mem_map_of_mem inside
      obtain ⟨namesake, otherInside, sameSource⟩ := List.mem_map.mp source
      refine List.mem_cons_of_mem _ (List.mem_append_left _ (List.mem_map.mpr
        ⟨namesake, otherInside, ?_⟩))
      rw [sameSource, renamed.logicalName, renamed.slot]
    · obtain ⟨name, _, rfl⟩ := List.mem_map.mp ofMeasure
      cases logical

/-- Elements with logical keys are written for both selections. -/
theorem mem_tableElements_of_unnamed (same : before.unnamed = after.unnamed)
    {found : Element × Slot} (logical : found.1.isLogical = true)
    (member : found ∈ (writtenTables options before).flatMap WrittenTable.elements) :
    found ∈ (writtenTables options after).flatMap WrittenTable.elements := by
  obtain ⟨table, tableMember, inside⟩ := List.mem_flatMap.mp member
  obtain ⟨other, otherMember, renamed⟩ := exists_isRenamed same tableMember
  exact List.mem_flatMap.mpr ⟨other, otherMember, renamed.mem_elements logical inside⟩

/-! ## Edges -/

/-- The ends of what becomes of the edges. -/
def edgeKeys (options : Options) (selection : Selection) : List RelationshipKey :=
  ((Plan.ofEdges (plans options selection) selection.edges).filterMap Except.toOption).map
    Definition.Relationship.key

/-- What any edge joins is joined by a relationship, and nothing else is. -/
theorem mem_edgeKeys_iff {selection : Selection} (checked : check options selection = .ok ())
    {key : RelationshipKey} :
    key ∈ edgeKeys options selection ↔
      ∃ edge ∈ selection.edges, Joins (context options selection) selection.tables edge key := by
  have distinct := (areDistinct_of_check checked).distinctNames
  rw [edgeKeys, List.mem_map]
  constructor
  · rintro ⟨relationship, member, rfl⟩
    obtain ⟨edge, inside, found⟩ := (Plan.arePlanned_relationshipsFrom (plans options selection)
      selection.edges []).ofEdge relationship member
    exact ⟨edge, inside, ((relationshipOf_eq_ok_iff distinct).mp found).joins⟩
  · rintro ⟨edge, inside, joins⟩
    obtain ⟨relationship, found, rfl⟩ := exists_relationshipOf_of_joins distinct joins
    rw [← plans] at found
    obtain ⟨position, bound, rfl⟩ := List.mem_iff_getElem.mp inside
    have outcome := Plan.getElem?_relationshipsFrom (plans options selection) [] selection.edges position
    rw [List.nil_append, List.getElem?_eq_getElem bound, Option.map_some] at outcome
    by_cases known : relationship.key ∈ (((Plan.relationshipsFrom (plans options selection) []
        selection.edges).take position).filterMap Except.toOption).map Definition.Relationship.key
    · obtain ⟨other, otherInside, same⟩ := List.mem_map.mp known
      exact ⟨other, ((List.take_sublist _ _).filterMap _).subset otherInside, same⟩
    · rw [Plan.outcomeAfter_eq_ok_iff.mpr ⟨found, known⟩] at outcome
      exact ⟨relationship, List.mem_filterMap.mpr ⟨_, List.mem_of_getElem? outcome, rfl⟩, rfl⟩

section

variable {context : Plan.Context} {tables others : List Catalog.Table} {edge : Edge}

theorem exists_hasIdColumn_iff {table : Catalog.Table} :
    (∃ parent, HasIdColumn context edge table parent) ↔
      ((Plan.Table.build context table).idColumns.get? (Text.lower edge.sourceAttribute)).isSome =
        true := by
  constructor
  · rintro ⟨parent, met, named⟩
    rw [← Text.sameIgnoringCase_iff.mp named]
    exact (Plan.Table.follows_build context table).notes.ofLookup parent met
  · intro noted
    obtain ⟨name, known⟩ := Option.isSome_iff_exists.mp noted
    obtain ⟨parent, met, named, -⟩ := Plan.Table.get?_idColumns_build_iff.mp known
    exact ⟨parent, met, named⟩

theorem exists_isChosen_of_unnamed
    (same : List.Forall₂ (fun table other => table.unnamed = other.unnamed) tables others)
    {logicalName : Text} {table : Catalog.Table} (chosen : IsChosen tables logicalName table) :
    ∃ other, IsChosen others logicalName other ∧ table.unnamed = other.unnamed := by
  obtain ⟨position, bound, rfl⟩ := List.mem_iff_getElem.mp chosen.1
  have otherBound := same.length_eq ▸ bound
  have names := same.get bound otherBound
  refine ⟨_, ⟨List.getElem_mem otherBound, ?_⟩, names⟩
  have logicalName := (Catalog.Table.fields_of_unnamed names).logicalName
  simp only [List.get_eq_getElem] at logicalName
  rw [← logicalName]
  exact chosen.2

/-- An edge that joins columns still does so under other display names. -/
theorem exists_joins_of_unnamed
    (same : List.Forall₂ (fun table other => table.unnamed = other.unnamed) tables others)
    {ends : RelationshipKey} (joins : Joins context tables edge ends) :
    ∃ moved, Joins context others edge moved := by
  obtain ⟨source, target, sourceChosen, targetChosen, lookup⟩ := exists_joins_iff.mp ⟨ends, joins⟩
  obtain ⟨otherSource, otherSourceChosen, names⟩ := exists_isChosen_of_unnamed same sourceChosen
  obtain ⟨otherTarget, otherTargetChosen, -⟩ := exists_isChosen_of_unnamed same targetChosen
  refine exists_joins_iff.mpr ⟨otherSource, otherTarget, otherSourceChosen, otherTargetChosen, ?_⟩
  rw [exists_hasIdColumn_iff] at lookup ⊢
  rw [← (Plan.Table.areAlike_build context names).idColumns]
  exact lookup

/-- An edge leads to the key of its target. -/
theorem target_of_joins {ends : RelationshipKey} (joins : Joins context tables edge ends) :
    ∃ target, IsChosen tables edge.targetTable target ∧
      ends.target = Name.columnReference target.modelName target.primaryKey := by
  obtain ⟨-, targetChosen, -, -, -, single⟩ := joins
  rw [Plan.Table.filter_isKey_build, List.singleton_inj] at single
  exact ⟨_, targetChosen, by rw [← single]; rfl⟩

end

theorem eq_of_isChosen {selection : Selection} (checked : check options selection = .ok ())
    {left right : Text} (same : Text.lower left = Text.lower right) {table other : Catalog.Table}
    (chosen : IsChosen selection.tables left table)
    (otherChosen : IsChosen selection.tables right other) : table = other := by
  refine List.inj_on_of_nodup_map (areDistinct_of_check checked).distinctNames chosen.1
    otherChosen.1 ?_
  rw [Text.sameIgnoringCase_iff.mp chosen.2, same, Text.sameIgnoringCase_iff.mp otherChosen.2]

/-- Edges that lead to one column lead to one column under other names. -/
theorem target_eq_of_joins (checked : check options before = .ok ())
    (otherChecked : check options after = .ok ()) {context otherContext : Plan.Context}
    {edge other : Edge} {ends otherEnds moved otherMoved : RelationshipKey}
    (joins : Joins context before.tables edge ends)
    (otherJoins : Joins context before.tables other otherEnds)
    (joined : Joins otherContext after.tables edge moved)
    (otherJoined : Joins otherContext after.tables other otherMoved)
    (same : moved.target = otherMoved.target) : ends.target = otherEnds.target := by
  obtain ⟨table, chosen, target⟩ := target_of_joins joins
  obtain ⟨otherTable, otherChosen, otherTarget⟩ := target_of_joins otherJoins
  obtain ⟨movedTable, movedChosen, movedTarget⟩ := target_of_joins joined
  obtain ⟨otherMovedTable, otherMovedChosen, otherMovedTarget⟩ := target_of_joins otherJoined
  have names : movedTable.modelName = otherMovedTable.modelName :=
    (Name.columnReference_injective2 (movedTarget ▸ otherMovedTarget ▸ same)).1
  have equal : movedTable = otherMovedTable :=
    List.inj_on_of_nodup_map (areDistinct_of_check otherChecked).distinctPaths movedChosen.1
      otherMovedChosen.1 (congrArg (fun name => Text.lower (Path.table name)) names)
  have named : Text.lower edge.targetTable = Text.lower other.targetTable := by
    rw [← Text.sameIgnoringCase_iff.mp movedChosen.2, equal,
      Text.sameIgnoringCase_iff.mp otherMovedChosen.2]
  rw [target, otherTarget, eq_of_isChosen checked named chosen otherChosen]

/-- Where each edge from a source still leads from it, no fewer keys have that source. -/
theorem card_edgeKeys_le (same : before.unnamed = after.unnamed)
    (checked : check options before = .ok ()) (otherChecked : check options after = .ok ())
    {source : Text}
    (stays : ∀ edge ∈ before.edges, ∀ ends moved,
      Joins (context options before) before.tables edge ends ->
        Joins (context options after) after.tables edge moved ->
          ends.source = source -> moved.source = source) :
    ((edgeKeys options before).toFinset.filter (·.source = source)).card ≤
      ((edgeKeys options after).toFinset.filter (·.source = source)).card := by
  have edges : before.edges = after.edges := congrArg (fun selection => selection.edges) same
  refine Finset.card_le_card_of_forall_subsingleton (fun key moved => ∃ edge ∈ before.edges,
    Joins (context options before) before.tables edge key ∧
      Joins (context options after) after.tables edge moved) ?_ ?_
  · intro key member
    obtain ⟨known, isSource⟩ := Finset.mem_filter.mp member
    obtain ⟨edge, inside, joins⟩ := (mem_edgeKeys_iff checked).mp (List.mem_toFinset.mp known)
    obtain ⟨moved, joined⟩ := exists_joins_of_unnamed (forall₂_tables_of_unnamed same) joins
    rw [context_eq_of_unnamed options same] at joined
    refine ⟨moved, Finset.mem_filter.mpr ⟨List.mem_toFinset.mpr ?_,
      stays edge inside key moved joins joined isSource⟩, edge, inside, joins, joined⟩
    exact (mem_edgeKeys_iff otherChecked).mpr ⟨edge, edges ▸ inside, joined⟩
  · rintro moved - left ⟨leftMember, edge, -, joins, joined⟩ right
      ⟨rightMember, other, -, otherJoins, otherJoined⟩
    have sources := (Finset.mem_filter.mp leftMember).2.trans (Finset.mem_filter.mp rightMember).2.symm
    have targets := target_eq_of_joins checked otherChecked joins otherJoins joined otherJoined rfl
    obtain ⟨leftSource, leftTarget⟩ := left
    cases sources
    cases targets
    rfl

end Generation

end TabularModel
