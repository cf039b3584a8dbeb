import TabularModel.Plan.Relationship
import TabularModel.Proofs.Plan.Columns
import TabularModel.Proofs.Prior.Relationships

/-!
# The relationships of plans

Both ends of a planned relationship are columns of plans. Of edges with the same
ends the first is planned, so that no two relationships have one key.
-/

set_option autoImplicit false

namespace TabularModel

namespace Plan

open Catalog (Edge)

/-- An end of a relationship, with the name of the table it belongs to. -/
def IsEndIn (plans : List Table) (reference : Text) : Prop :=
  ∃ plan ∈ plans, ∃ column ∈ plan.columns,
    reference = Name.columnReference plan.name column.written.name

/-- The key columns of lookups are columns of their plans. -/
def HasOwnIdColumns (plan : Table) : Prop :=
  ∀ lookup name, plan.idColumns.get? lookup = some name ->
    ∃ column ∈ plan.columns, column.written.name = name

variable {plans : List Table}

theorem exists_column_of_keyColumn? {plan : Table} {name : Text}
    (found : plan.keyColumn? = some name) : ∃ column ∈ plan.columns, column.written.name = name := by
  obtain ⟨column, inside, same⟩ := Option.map_eq_some_iff.mp found
  exact ⟨column, List.mem_of_find?_eq_some inside, same⟩

theorem exists_column_of_columnFrom? {plan : Table} {source name : Text}
    (found : plan.columnFrom? source = some name) :
    ∃ column ∈ plan.columns, column.written.name = name := by
  obtain ⟨column, inside, same⟩ := Option.map_eq_some_iff.mp found
  exact ⟨column, List.mem_of_find?_eq_some inside, same⟩

theorem mem_of_tableNamed? {logicalName : Text} {plan : Table}
    (found : tableNamed? plans logicalName = some plan) : plan ∈ plans :=
  List.mem_of_find?_eq_some found

/-- The ends of a relationship that an edge becomes. -/
theorem isEndIn_of_relationshipOf (own : ∀ plan ∈ plans, HasOwnIdColumns plan) {edge : Edge}
    {relationship : Definition.Relationship} (planned : relationshipOf plans edge = .ok relationship) :
    IsEndIn plans relationship.source ∧ IsEndIn plans relationship.target := by
  rw [relationshipOf] at planned
  split at planned
  · cases planned
  · next source sourceFound =>
      split at planned
      · cases planned
      · next target targetFound =>
          simp only at planned
          split at planned
          · split at planned <;> cases planned
          · next name idFound =>
              split at planned
              · cases planned
              · next key keyFound =>
                  cases planned
                  have sourceMember := mem_of_tableNamed? sourceFound
                  have targetMember := mem_of_tableNamed? targetFound
                  obtain ⟨column, inside, rfl⟩ := own source sourceMember _ _ idFound
                  obtain ⟨keyColumn, keyInside, rfl⟩ := exists_column_of_keyColumn? keyFound
                  exact ⟨⟨source, sourceMember, column, inside, rfl⟩,
                    ⟨target, targetMember, keyColumn, keyInside, rfl⟩⟩

theorem haveSameEnds_iff (left right : Definition.Relationship) :
    haveSameEnds left right = true ↔ left.key = right.key := by
  simp [haveSameEnds, Definition.Relationship.key]

/-- Relationships that come from edges, and differ in their keys from each other
and from earlier ones. -/
structure ArePlanned (plans : List Table) (earlier : List Definition.Relationship)
    (edges : List Edge) (relationships : List Definition.Relationship) : Prop where
  ofEdge : ∀ relationship ∈ relationships,
    ∃ edge ∈ edges, relationshipOf plans edge = .ok relationship
  new : ∀ relationship ∈ relationships,
    relationship.key ∉ earlier.map Definition.Relationship.key
  distinct : (relationships.map Definition.Relationship.key).Nodup

variable {earlier relationships : List Definition.Relationship} {edges : List Edge}

theorem ArePlanned.skip (planned : ArePlanned plans earlier edges relationships) (edge : Edge) :
    ArePlanned plans earlier (edge :: edges) relationships := by
  refine ⟨fun relationship member => ?_, planned.new, planned.distinct⟩
  obtain ⟨other, inside, found⟩ := planned.ofEdge relationship member
  exact ⟨other, List.mem_cons_of_mem edge inside, found⟩

theorem ArePlanned.cons {edge : Edge} {relationship : Definition.Relationship}
    (planned : ArePlanned plans (earlier ++ [relationship]) edges relationships)
    (found : relationshipOf plans edge = .ok relationship)
    (unknown : relationship.key ∉ earlier.map Definition.Relationship.key) :
    ArePlanned plans earlier (edge :: edges) (relationship :: relationships) := by
  have keys : (earlier ++ [relationship]).map Definition.Relationship.key =
      earlier.map Definition.Relationship.key ++ [relationship.key] := List.map_append
  refine ⟨?_, ?_, ?_⟩
  · intro other member
    rcases List.mem_cons.mp member with rfl | member
    · exact ⟨edge, List.mem_cons_self, found⟩
    · exact (planned.skip edge).ofEdge other member
  · intro other member
    rcases List.mem_cons.mp member with rfl | member
    · exact unknown
    · exact fun old => planned.new other member (keys ▸ List.mem_append_left _ old)
  · rw [List.map_cons, List.nodup_cons]
    refine ⟨fun repeated => ?_, planned.distinct⟩
    obtain ⟨other, inside, same⟩ := List.mem_map.mp repeated
    refine planned.new other inside ?_
    rw [keys, same]
    exact List.mem_append_right _ List.mem_cons_self

theorem arePlanned_relationshipsFrom (plans : List Table) (edges : List Edge)
    (earlier : List Definition.Relationship) :
    ArePlanned plans earlier edges
      ((relationshipsFrom plans earlier edges).filterMap Except.toOption) := by
  induction edges generalizing earlier with
  | nil => exact ⟨by simp [relationshipsFrom], by simp [relationshipsFrom], by simp [relationshipsFrom]⟩
  | cons edge edges ih =>
      rw [relationshipsFrom]
      cases found : relationshipOf plans edge with
      | error skipped => exact (ih earlier).skip edge
      | ok relationship =>
          simp only
          split
          · exact (ih earlier).skip edge
          · next new =>
              refine (ih (earlier ++ [relationship])).cons found ?_
              intro old
              obtain ⟨other, inside, same⟩ := List.mem_map.mp old
              exact new (List.any_eq_true.mpr ⟨other, inside, (haveSameEnds_iff _ _).mpr same.symm⟩)

end Plan

end TabularModel
