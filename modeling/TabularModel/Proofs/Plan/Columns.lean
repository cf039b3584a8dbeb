import TabularModel.Plan.Table
import TabularModel.Proofs.SortedMap

/-!
# The columns of a plan

A plan offers columns one after the other: the key of the table, and for each
group of attributes the column of the attribute or those of the lookup. A column
whose source is planned already is left out, and one whose name is taken is
renamed. So every planned column is an offered one up to its name, and no two of
them come from one source.
-/

set_option autoImplicit false

namespace TabularModel

namespace Lookup

open Catalog (Attribute)

theorem leader_mem_of_mem_groups {attributes : List Attribute} {group : Group}
    (member : group ∈ groups attributes) : group.leader ∈ attributes := by
  obtain ⟨⟨attr, position⟩, inside, found⟩ := List.mem_filterMap.mp member
  have known : attr ∈ attributes := List.fst_mem_of_mem_zipIdx inside
  simp only at found
  split at found
  · cases found
  · split at found
    · cases found
      exact known
    · cases found
      exact known

end Lookup

namespace Plan

open Catalog (Attribute LookupColumn)

namespace Table

/-- The columns that are offered to the plan of a table. -/
inductive Offered (context : Context) (table : Catalog.Table) : Column -> Prop where
  | ofKey : Offered context table ⟨keyColumn table.primaryKey, .source⟩
  | ofAttribute (attr : Attribute) (member : attr ∈ table.attributes) :
      Offered context table (attributeColumn context table attr)
  | ofLookup (parent : Attribute) (member : parent ∈ table.attributes) (column : LookupColumn)
      (hidden : Bool) :
      Offered context table
        ⟨{ Definition.Column.plain
              (lookupColumnName (table.nameOf parent) parent.logicalName column)
              (context.corrections.apply (column.source parent.logicalName)) .string with
            isHidden := hidden }, .source⟩

/-- A column under its own name or with its source behind the name. -/
inductive Renamed (offered : Column) : Column -> Prop where
  | same : Renamed offered offered
  | sourced : Renamed offered
      { offered with
        written := { offered.written with
          name := offered.written.name ++ " (" ++ offered.written.source ++ ")" } }

theorem renamed_freeName (plan : Table) (column : Definition.Column) (projection : Projection) :
    Renamed ⟨column, projection⟩ ⟨{ column with name := plan.freeName column }, projection⟩ := by
  rw [freeName]
  split
  · exact .sourced
  · exact .same

/-- The columns of the plan are among the offered ones and come from different
sources, and the key columns of lookups are among them. -/
structure IsPlanned (context : Context) (table : Catalog.Table) (plan : Table) : Prop where
  name : plan.name = table.modelName
  logicalName : plan.logicalName = table.logicalName
  isFact : plan.isFact = table.isFact
  offered : ∀ column ∈ plan.columns,
    ∃ own, Offered context table own ∧ Renamed own column
  sources : plan.columns.Pairwise fun left right =>
    Text.sameIgnoringCase left.written.source right.written.source = false
  idColumns : ∀ lookup name, plan.idColumns.get? lookup = some name ->
    ∃ column ∈ plan.columns, column.written.name = name

variable {context : Context} {table : Catalog.Table}

/-- Offering one column keeps the plan. -/
theorem IsPlanned.push {plan : Table} (planned : IsPlanned context table plan)
    {column : Definition.Column} {projection : Projection}
    (offered : Offered context table ⟨column, projection⟩) :
    IsPlanned context table (plan.push column projection) := by
  rw [Table.push]
  split
  · exact ⟨planned.name, planned.logicalName, planned.isFact, planned.offered, planned.sources,
      planned.idColumns⟩
  · next free =>
      refine ⟨planned.name, planned.logicalName, planned.isFact, ?_, ?_, ?_⟩
      · intro found member
        rcases List.mem_append.mp member with member | member
        · exact planned.offered found member
        · rw [List.mem_singleton.mp member]
          exact ⟨_, offered, plan.renamed_freeName column projection⟩
      · refine List.pairwise_append.mpr ⟨planned.sources, List.pairwise_singleton _ _, ?_⟩
        intro found member other same
        rw [List.mem_singleton.mp same]
        rw [hasSource, Bool.not_eq_true, List.any_eq_false] at free
        simpa using free found member
      · intro lookup name known
        obtain ⟨found, member, same⟩ := planned.idColumns lookup name known
        exact ⟨found, List.mem_append_left _ member, same⟩

theorem exists_name_push {plan : Table} {column : Definition.Column}
    (free : plan.hasSource column.source = false) (projection : Projection) :
    ∃ found ∈ (plan.push column projection).columns, found.written.name = plan.freeName column := by
  rw [Table.push, free, if_neg Bool.false_ne_true]
  exact ⟨_, List.mem_append_right _ (List.mem_singleton_self _), rfl⟩

theorem IsPlanned.pushLookupColumn {plan : Table} (planned : IsPlanned context table plan)
    {parent : Attribute} (member : parent ∈ table.attributes)
    (visibility : LookupColumn -> Lookup.Visibility) (column : LookupColumn) :
    IsPlanned context table
      (plan.pushLookupColumn context (table.nameOf parent) parent visibility column) := by
  have pushed := planned.push (.ofLookup parent member column (visibility column).hidden)
  rw [Table.pushLookupColumn]
  split
  · next isNewKey =>
      refine ⟨pushed.name, pushed.logicalName, pushed.isFact, pushed.offered, pushed.sources, ?_⟩
      intro lookup name known
      rw [SortedMap.get?_insert] at known
      split at known
      · cases known
        rw [Bool.and_eq_true, Bool.not_eq_true'] at isNewKey
        exact exists_name_push isNewKey.2 .source
      · exact pushed.idColumns lookup name known
  · exact pushed

theorem IsPlanned.pushLookup {plan : Table} (planned : IsPlanned context table plan)
    {parent : Attribute} (member : parent ∈ table.attributes) :
    IsPlanned context table (plan.pushLookup context table parent) := by
  have fold (visibility : LookupColumn -> Lookup.Visibility) (columns : List LookupColumn)
      (plan : Table) (planned : IsPlanned context table plan) : IsPlanned context table
        (columns.foldl (Table.pushLookupColumn context (table.nameOf parent) parent visibility) plan) := by
    induction columns generalizing plan with
    | nil => exact planned
    | cons column columns ih => exact ih _ (planned.pushLookupColumn member visibility column)
  rw [Table.pushLookup]
  refine fold _ _ _ ?_
  split
  · exact planned
  · exact ⟨planned.name, planned.logicalName, planned.isFact, planned.offered, planned.sources,
      planned.idColumns⟩

theorem IsPlanned.pushGroup {plan : Table} (planned : IsPlanned context table plan)
    {group : Lookup.Group} (member : group.leader ∈ table.attributes) :
    IsPlanned context table (pushGroup context table plan group) := by
  unfold Table.pushGroup
  split
  · exact planned
  · cases group with
    | standalone attr => exact planned.push (.ofAttribute attr member)
    | lookup parent _ => exact planned.pushLookup member

/-- The primary group changes its place and no other group is lost or repeated. -/
theorem perm_primaryFirst (primary : Option Text) (groups : List Lookup.Group) :
    (primaryFirst primary groups).Perm groups := by
  unfold primaryFirst
  split
  · exact .refl _
  · next name =>
      simp only
      split
      · next group found =>
          obtain ⟨isPrimary, before, after, rfl, others⟩ := List.find?_eq_some_iff_append.mp found
          have others : ∀ other ∈ before,
              ¬ Text.sameIgnoringCase other.leader.logicalName name = true := by simpa using others
          rw [List.eraseP_append_right _ others, List.eraseP_cons, isPrimary]
          exact List.perm_middle.symm
      · exact .refl _

/-- Which group comes first depends on the names of the leaders alone. -/
theorem primaryFirst_map (primary : Option Text) (groups : List Lookup.Group)
    (change : Lookup.Group -> Lookup.Group)
    (kept : ∀ group, (change group).leader.logicalName = group.leader.logicalName) :
    primaryFirst primary (groups.map change) = (primaryFirst primary groups).map change := by
  cases primary with
  | none => rfl
  | some name =>
      have same : ((fun group : Lookup.Group => Text.sameIgnoringCase group.leader.logicalName name) ∘
          change) = fun group => Text.sameIgnoringCase group.leader.logicalName name := by
        funext group
        rw [Function.comp, kept]
      rw [primaryFirst, primaryFirst, List.find?_map, same]
      cases groups.find? fun group => Text.sameIgnoringCase group.leader.logicalName name with
      | none => rfl
      | some group =>
          simp only [Option.map_some, List.map_cons]
          rw [List.eraseP_map, same]

theorem isPlanned_start : IsPlanned context table (start table) :=
  ⟨rfl, rfl, rfl, by simp [start], by simp [start], by simp [start, SortedMap.get?_empty]⟩

/-- The whole plan of a table. -/
theorem isPlanned_build (context : Context) (table : Catalog.Table) :
    IsPlanned context table (build context table) := by
  have fold (groups : List Lookup.Group) (plan : Table)
      (inside : ∀ group ∈ groups, group.leader ∈ table.attributes)
      (planned : IsPlanned context table plan) :
      IsPlanned context table (groups.foldl (pushGroup context table) plan) := by
    induction groups generalizing plan with
    | nil => exact planned
    | cons group groups ih =>
        exact ih _ (fun other member => inside other (List.mem_cons_of_mem group member))
          (planned.pushGroup (inside group List.mem_cons_self))
  have planned := fold (primaryFirst table.primaryName (Lookup.groups table.attributes)) _
    (fun group member => Lookup.leader_mem_of_mem_groups ((perm_primaryFirst _ _).mem_iff.mp member))
    (isPlanned_start.push .ofKey)
  exact ⟨planned.name, planned.logicalName, planned.isFact, planned.offered, planned.sources,
    planned.idColumns⟩

end Table

end Plan

end TabularModel
