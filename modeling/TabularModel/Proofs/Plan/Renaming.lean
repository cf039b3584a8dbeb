import TabularModel.Catalog.Selection
import TabularModel.Proofs.Plan.Offers

/-!
# Plans without regard to display names

Display names decide how columns are called and nothing else. Plans of tables that
differ in display names alone come from the same columns of the row source, one after
the other, and have key columns for the same lookups.
-/

set_option autoImplicit false

namespace TabularModel

/-! ## Display names -/

namespace Catalog

/-- An attribute without its display name. -/
def Attribute.unnamed (attr : Attribute) : Attribute :=
  { attr with displayName := none }

/-- A table without display names: its own one, those of its attributes, and those that
override them. -/
def Table.unnamed (table : Table) : Table :=
  { table with
    displayName := none
    attributes := table.attributes.map Attribute.unnamed
    overrides := .empty }

def Selection.unnamed (selection : Selection) : Selection :=
  { selection with tables := selection.tables.map Table.unnamed }

/-- What attributes share that differ in display names alone. -/
theorem Attribute.fields_of_unnamed {attr other : Attribute} (same : attr.unnamed = other.unnamed) :
    attr.logicalName = other.logicalName ∧ attr.type = other.type := by
  rw [unnamed, unnamed, Attribute.mk.injEq] at same
  exact ⟨same.1, same.2.2.1⟩

/-- What tables share that differ in display names alone. -/
structure Table.HaveSameFields (table other : Table) : Prop where
  logicalName : table.logicalName = other.logicalName
  primaryKey : table.primaryKey = other.primaryKey
  primaryName : table.primaryName = other.primaryName
  role : table.role = other.role
  attributes : table.attributes.map Attribute.unnamed = other.attributes.map Attribute.unnamed
  lookups : table.lookups = other.lookups

theorem Table.fields_of_unnamed {table other : Table} (same : table.unnamed = other.unnamed) :
    table.HaveSameFields other := by
  rw [unnamed, unnamed, Table.mk.injEq] at same
  obtain ⟨logicalName, -, primaryKey, primaryName, role, attributes, -, lookups, -⟩ := same
  exact ⟨logicalName, primaryKey, primaryName, role, attributes, lookups⟩

end Catalog

open Catalog (Attribute LookupColumn)

/-! ## Groups of attributes -/

namespace Lookup

/-- What a group stands for, apart from display names. -/
def Group.unnamed : Group -> Group
  | .standalone attr => .standalone attr.unnamed
  | .lookup parent _ => .lookup parent.unnamed []

theorem Group.leader_unnamed (group : Group) : group.unnamed.leader = group.leader.unnamed := by
  cases group <;> rfl

theorem lastNamed?_map_unnamed (attributes : List Attribute) (name : Text) :
    lastNamed? (attributes.map Attribute.unnamed) name =
      (lastNamed? attributes name).map (Prod.map Attribute.unnamed id) := by
  rw [lastNamed?, lastNamed?, List.zipIdx_map, List.findRev?_eq_find?_reverse,
    List.findRev?_eq_find?_reverse, ← List.map_reverse, List.find?_map]
  rfl

theorem parent?_map_unnamed (attributes : List Attribute) (attr : Attribute) :
    parent? (attributes.map Attribute.unnamed) attr.unnamed = parent? attributes attr := by
  have type : attr.unnamed.type = attr.type := rfl
  have logicalName : attr.unnamed.logicalName = attr.logicalName := rfl
  unfold parent?
  rw [type, logicalName]
  split
  · rfl
  · congr 1
    funext column
    split
    · rfl
    · rfl
    · rw [lastNamed?_map_unnamed]
      cases lastNamed? attributes _ with
      | none => rfl
      | some found => rfl

/-- Attributes are grouped without regard to display names. -/
theorem map_unnamed_groups (attributes : List Attribute) :
    (groups (attributes.map Attribute.unnamed)).map Group.unnamed =
      (groups attributes).map Group.unnamed := by
  rw [groups, groups, List.zipIdx_map, List.filterMap_map, List.map_filterMap, List.map_filterMap]
  refine List.filterMap_congr fun found _ => ?_
  obtain ⟨attr, position⟩ := found
  simp only [Function.comp, Prod.map, id, parent?_map_unnamed]
  split
  · rfl
  · cases lookup : attr.type.isLookup with
    | false =>
        rw [if_neg (show ¬ attr.unnamed.type.isLookup = true from ne_true_of_eq_false lookup),
          if_neg Bool.false_ne_true]
        rfl
    | true =>
        rw [if_pos (show attr.unnamed.type.isLookup = true from lookup), if_pos rfl]
        rfl

end Lookup

/-! ## Plans -/

namespace Plan

namespace Table

/-- Two plans have columns from the same sources in the same order, and key columns for
the same lookups. -/
structure AreAlike (left right : Table) : Prop where
  sources : left.columns.map (·.written.source) = right.columns.map (·.written.source)
  idColumns : ∀ lookup, (left.idColumns.get? lookup).isSome = (right.idColumns.get? lookup).isSome

variable {left right : Table} {context : Context} {table other : Catalog.Table}

theorem AreAlike.hasSource (alike : AreAlike left right) (source : Text) :
    left.hasSource source = right.hasSource source := by
  have ofSources (plan : Table) : plan.hasSource source =
      (plan.columns.map (·.written.source)).any (Text.sameIgnoringCase · source) := by
    rw [Table.hasSource, List.any_map]
    rfl
  rw [ofSources, ofSources, alike.sources]

theorem AreAlike.push (alike : AreAlike left right) (column written : Definition.Column)
    (same : column.source = written.source) (projection rightProjection : Projection) :
    AreAlike (left.push column projection) (right.push written rightProjection) := by
  refine ⟨?_, fun lookup => ?_⟩
  · rw [Table.push, Table.push, alike.hasSource, same]
    split
    · exact alike.sources
    · rw [List.map_append, List.map_append, alike.sources]
      rfl
  · rw [idColumns_push, idColumns_push]
    exact alike.idColumns lookup

theorem AreAlike.pushLookupColumn (alike : AreAlike left right) {parent namesake : Attribute}
    (same : parent.unnamed = namesake.unnamed) (display rightDisplay : Text)
    (visibility : LookupColumn -> Lookup.Visibility) (column : LookupColumn) :
    AreAlike (left.pushLookupColumn context display parent visibility column)
      (right.pushLookupColumn context rightDisplay namesake visibility column) := by
  have lookup := (Attribute.fields_of_unnamed same).1
  unfold Table.pushLookupColumn
  simp only [lookup, alike.hasSource]
  have pushed := alike.push
    { Definition.Column.plain (lookupColumnName display namesake.logicalName column)
      (context.corrections.apply (column.source namesake.logicalName)) .string with
        isHidden := (visibility column).hidden }
    { Definition.Column.plain (lookupColumnName rightDisplay namesake.logicalName column)
      (context.corrections.apply (column.source namesake.logicalName)) .string with
        isHidden := (visibility column).hidden } rfl .source .source
  split
  · refine ⟨pushed.sources, fun key => ?_⟩
    rw [SortedMap.get?_insert, SortedMap.get?_insert]
    split
    · rfl
    · exact pushed.idColumns key
  · exact pushed

theorem AreAlike.foldl_pushLookupColumn (alike : AreAlike left right) {parent namesake : Attribute}
    (same : parent.unnamed = namesake.unnamed) (display rightDisplay : Text)
    (visibility : LookupColumn -> Lookup.Visibility) (columns : List LookupColumn) :
    AreAlike (columns.foldl (Table.pushLookupColumn context display parent visibility) left)
      (columns.foldl (Table.pushLookupColumn context rightDisplay namesake visibility) right) := by
  induction columns generalizing left right with
  | nil => exact alike
  | cons column columns ih =>
      exact ih (alike.pushLookupColumn same display rightDisplay visibility column)

theorem visibility_eq (context : Context) (names : table.unnamed = other.unnamed)
    {parent namesake : Attribute} (same : parent.unnamed = namesake.unnamed) :
    visibility context table parent = visibility context other namesake := by
  have fields := Catalog.Table.fields_of_unnamed names
  obtain ⟨lookup, type⟩ := Attribute.fields_of_unnamed same
  funext column
  have known : Lookup.hasColumn parent column = Lookup.hasColumn namesake column := by
    cases column <;> simp only [Lookup.hasColumn, lookup, type]
  rw [visibility, visibility, Lookup.resolve, Lookup.resolve, fields.logicalName, fields.lookups, lookup,
    known]

theorem AreAlike.pushLookup (alike : AreAlike left right) (names : table.unnamed = other.unnamed)
    {parent namesake : Attribute} (same : parent.unnamed = namesake.unnamed) :
    AreAlike (left.pushLookup context table parent) (right.pushLookup context other namesake) := by
  have visible : Lookup.resolve table.logicalName parent (table.lookups.get? parent.logicalName)
      context.edges = visibility context other namesake := visibility_eq context names same
  rw [Table.pushLookup, visible]
  refine AreAlike.foldl_pushLookupColumn ?_ same _ _ _ _
  rw [visibility]
  split
  · exact alike
  · exact ⟨alike.sources, alike.idColumns⟩

theorem source_attributeColumn (context : Context) (names : table.unnamed = other.unnamed)
    {attr namesake : Attribute} (same : attr.unnamed = namesake.unnamed) :
    (attributeColumn context table attr).written.source =
      (attributeColumn context other namesake).written.source := by
  have logicalName := (Catalog.Table.fields_of_unnamed names).logicalName
  obtain ⟨own, type⟩ := Attribute.fields_of_unnamed same
  unfold attributeColumn isCalendarField
  simp only [logicalName, own, type]
  split
  · rfl
  · split
    · split <;> rfl
    · rfl

theorem AreAlike.pushGroup (alike : AreAlike left right) (names : table.unnamed = other.unnamed)
    {group namesake : Lookup.Group} (same : group.unnamed = namesake.unnamed) :
    AreAlike (pushGroup context table left group) (pushGroup context other right namesake) := by
  have key := (Catalog.Table.fields_of_unnamed names).primaryKey
  have leader : group.leader.unnamed = namesake.leader.unnamed := by
    rw [← Lookup.Group.leader_unnamed, ← Lookup.Group.leader_unnamed, same]
  have logicalName := (Attribute.fields_of_unnamed leader).1
  unfold Table.pushGroup
  rw [key, logicalName]
  split
  · exact alike
  · cases group with
    | standalone attr =>
        cases namesake with
        | standalone attr => exact alike.push _ _ (source_attributeColumn context names leader) _ _
        | lookup parent virtualColumns => cases same
    | lookup parent virtualColumns =>
        cases namesake with
        | standalone attr => cases same
        | lookup parent virtualColumns => exact alike.pushLookup names leader

theorem AreAlike.foldl_pushGroup (alike : AreAlike left right) (context : Context)
    (names : table.unnamed = other.unnamed) {groups namesakes : List Lookup.Group}
    (same : groups.map Lookup.Group.unnamed = namesakes.map Lookup.Group.unnamed) :
    AreAlike (groups.foldl (Table.pushGroup context table) left)
      (namesakes.foldl (Table.pushGroup context other) right) := by
  induction groups generalizing namesakes left right with
  | nil =>
      rw [List.map_eq_nil_iff.mp same.symm]
      exact alike
  | cons group groups ih =>
      obtain ⟨namesake, others, rfl, first, rest⟩ := List.map_eq_cons_iff.mp same.symm
      rw [List.foldl_cons, List.foldl_cons]
      exact ih (alike.pushGroup names first.symm) rest.symm

/-- Tables that differ in display names alone have plans that are alike. -/
theorem areAlike_build (context : Context) (names : table.unnamed = other.unnamed) :
    AreAlike (build context table) (build context other) := by
  have fields := Catalog.Table.fields_of_unnamed names
  have groups : (primaryFirst table.primaryName (Lookup.groups table.attributes)).map
      Lookup.Group.unnamed =
      (primaryFirst other.primaryName (Lookup.groups other.attributes)).map Lookup.Group.unnamed := by
    have kept (group : Lookup.Group) :
        group.unnamed.leader.logicalName = group.leader.logicalName := by
      rw [Lookup.Group.leader_unnamed]
      rfl
    rw [← primaryFirst_map _ _ _ kept, ← primaryFirst_map _ _ _ kept,
      ← Lookup.map_unnamed_groups table.attributes, ← Lookup.map_unnamed_groups other.attributes,
      fields.attributes, fields.primaryName]
  have start : AreAlike (start table) (start other) := ⟨rfl, fun _ => rfl⟩
  have keyed := start.push (keyColumn table.primaryKey) (keyColumn other.primaryKey)
    fields.primaryKey .source .source
  have planned := keyed.foldl_pushGroup context names groups
  exact ⟨planned.sources, planned.idColumns⟩

end Table

end Plan

end TabularModel
