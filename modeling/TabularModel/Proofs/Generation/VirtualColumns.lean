import TabularModel.Generation.Definitions
import TabularModel.Proofs.Lookup.Grouping

/-!
# Columns of lookups do not influence generation

A lookup is shown through columns of its own, whether or not the catalog lists them.
What a group adds to a plan is decided by the attribute that leads it, and leaders stay
the same when listed columns of lookups are left out or moved. So neither the plan of
the table nor anything that is generated changes.
-/

set_option autoImplicit false

namespace TabularModel

open Catalog (Attribute Selection)

namespace Lookup

theorem Group.leader_bare (group : Group) : group.bare.leader = group.leader := by
  cases group <;> rfl

end Lookup

namespace Plan

namespace Table

theorem pushGroup_bare (context : Context) (table : Catalog.Table) (plan : Table)
    (group : Lookup.Group) :
    pushGroup context table plan group.bare = pushGroup context table plan group := by
  cases group <;> rfl

/-- The plan of a table as it follows from the leaders of its groups. -/
theorem build_eq_of_leaders (context : Context) (table : Catalog.Table) :
    build context table =
      { (primaryFirst table.primaryName
            ((Lookup.leaders table.attributes).map Lookup.Group.ofLeader)).foldl
          (pushGroup context table) ((start table).push (keyColumn table.primaryKey) .source) with
        filter :=
          table.filterText?.map (Filter.RowFilter.ofDocument context.settings baseAlias) } := by
  have kept (group : Lookup.Group) : group.bare.leader.logicalName = group.leader.logicalName := by
    rw [Lookup.Group.leader_bare]
  rw [build, ← Lookup.map_bare_groups, primaryFirst_map _ _ _ kept, List.foldl_map]
  simp only [pushGroup_bare]

/-- Tables that differ in their attributes alone have the same plan if the same
attributes lead groups. -/
theorem build_eq_of_leaders_eq (context : Context) (table : Catalog.Table)
    {attributes others : List Attribute}
    (same : Lookup.leaders others = Lookup.leaders attributes) :
    build context { table with attributes := others } =
      build context { table with attributes := attributes } := by
  rw [build_eq_of_leaders, build_eq_of_leaders]
  simp only [same]
  rfl

end Table

end Plan

namespace Generation

variable {before after : List Catalog.Table} {table other : Catalog.Table}

theorem map_firstDuplicate? (before after : List Catalog.Table)
    (logicalName : other.logicalName = table.logicalName)
    (modelName : other.modelName = table.modelName) (names paths : List Text) :
    (firstDuplicate? names paths (before ++ other :: after)).map Catalog.Table.modelName =
      (firstDuplicate? names paths (before ++ table :: after)).map Catalog.Table.modelName := by
  induction before generalizing names paths with
  | nil =>
      simp only [List.nil_append, firstDuplicate?, logicalName, modelName]
      split
      · rw [Option.map_some, Option.map_some, modelName]
      · rfl
  | cons first before ih =>
      simp only [List.cons_append, firstDuplicate?]
      split
      · rfl
      · exact ih _ _

/-- A check depends on the table that it reports through the name of that table alone. -/
theorem check_eq (options : Options) (selection : Selection) :
    check options selection =
      match selection.calendar.bind Catalog.Calendar.fault? with
      | some fault => .error (.calendar fault)
      | none =>
          match (firstDuplicate? [] (reservedPaths selection.calendar) selection.tables).map
              Catalog.Table.modelName with
          | some name => .error (.duplicateTable name)
          | none =>
              if Catalog.isValidOffset (offsetHours options selection.calendar) then .ok ()
              else .error (.offset (offsetHours options selection.calendar)) := by
  rw [check]
  cases selection.calendar.bind Catalog.Calendar.fault? with
  | some fault => rfl
  | none => cases firstDuplicate? [] (reservedPaths selection.calendar) selection.tables <;> rfl

/-- Generation sees a table through its plan and its names. -/
theorem generate_eq_of_build_eq (options : Options) (supply : Supply) (selection : Selection)
    (logicalName : other.logicalName = table.logicalName)
    (modelName : other.modelName = table.modelName)
    (same : ∀ context, Plan.Table.build context other = Plan.Table.build context table) :
    generate options supply { selection with tables := before ++ other :: after } =
      generate options supply { selection with tables := before ++ table :: after } := by
  have planned : plans options { selection with tables := before ++ other :: after } =
      plans options { selection with tables := before ++ table :: after } := by
    rw [plans, plans, List.map_append, List.map_append, List.map_cons, List.map_cons, same]
    rfl
  have checked : check options { selection with tables := before ++ other :: after } =
      check options { selection with tables := before ++ table :: after } := by
    rw [check_eq, check_eq, map_firstDuplicate? before after logicalName modelName]
  rw [generate, generate, checked]
  simp only [files, planned]

/-- Listed columns of lookups do not influence generation. Every attribute has one place,
and what leads groups and all that is planned and generated stays the same when columns of
lookups are left out or moved. -/
theorem generate_ignoresListedColumns {attributes : List Attribute}
    (distinct : Lookup.HasDistinctNames attributes) :
    Lookup.IsGrouping attributes (Lookup.groups attributes) ∧
      ∀ others, Lookup.MovesColumns attributes others ->
        (Lookup.groups others).map Lookup.Group.leader =
            (Lookup.groups attributes).map Lookup.Group.leader ∧
          (∀ (context : Plan.Context) (table : Catalog.Table),
            Plan.Table.build context { table with attributes := others } =
              Plan.Table.build context { table with attributes := attributes }) ∧
          ∀ (options : Options) (supply : Supply) (selection : Selection)
            (before after : List Catalog.Table) (table : Catalog.Table),
            generate options supply
                { selection with
                  tables := before ++ { table with attributes := others } :: after } =
              generate options supply
                { selection with
                  tables := before ++ { table with attributes := attributes } :: after } := by
  refine ⟨Lookup.isGrouping_groups distinct, fun others moves => ?_⟩
  have leading := Lookup.leaders_eq_of_movesColumns distinct moves
  have planned (context : Plan.Context) (table : Catalog.Table) :=
    Plan.Table.build_eq_of_leaders_eq context table leading
  refine ⟨?_, planned, ?_⟩
  · rw [Lookup.map_leader_groups, Lookup.map_leader_groups, leading]
  · intro options supply selection before after table
    exact generate_eq_of_build_eq options supply selection rfl rfl fun context =>
      planned context table

/-- The phonetic name of the owner, which also continues another name, is left out, and the
name of the parent stands before all others. -/
theorem generate_ignoresListedColumns_moved :
    let owner : Attribute := ⟨"OwnerId", some "Owner", .owner, [], none⟩
    let ownerName : Attribute := ⟨"owneridname", none, .string, [], none⟩
    let phonetic : Attribute := ⟨"ownerIdYomiName", none, .string, [], none⟩
    let spelling : Attribute := ⟨"owneridyomi", none, .lookup, [], none⟩
    let parent : Attribute := ⟨"parentid", some "Parent", .lookup, ["account"], none⟩
    let parentName : Attribute := ⟨"ParentIdName", none, .string, [], none⟩
    let parentKind : Attribute := ⟨"parentidtype", none, .entityName, [], none⟩
    let attributes := [phonetic, parent, spelling, ownerName, parentKind, owner, parentName]
    let others := [parentName, parent, spelling, parentKind, owner, ownerName]
    Lookup.groups attributes =
        [.lookup parent [(.name, parentName)], .lookup spelling [], .standalone parentKind,
          .lookup owner [(.name, ownerName), (.phonetic, phonetic)]] ∧
      ∀ (context : Plan.Context) (table : Catalog.Table),
        Plan.Table.build context { table with attributes := others } =
          Plan.Table.build context { table with attributes := attributes } := by
  intro owner ownerName phonetic spelling parent parentName parentKind attributes others
  have grouped : Lookup.groups attributes =
      [.lookup parent [(.name, parentName)], .lookup spelling [], .standalone parentKind,
        .lookup owner [(.name, ownerName), (.phonetic, phonetic)]] := by decide +kernel
  have distinct : Lookup.HasDistinctNames attributes := by decide +kernel
  have moves : Lookup.MovesColumns attributes others := by
    refine ⟨by decide +kernel, ?_⟩
    rw [grouped]
    decide +kernel
  exact ⟨grouped, ((generate_ignoresListedColumns distinct).2 others moves).2.1⟩

end Generation

end TabularModel
