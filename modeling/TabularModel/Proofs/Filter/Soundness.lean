import TabularModel.Proofs.Filter.Conditions
import TabularModel.Proofs.Filter.Links

/-!
# Converted filters are sound

A junction is written only for several parts, and each part that is a junction
itself gets parentheses. Groups put them around the groups in them, and the
conjunction of siblings around the siblings that need them.
-/

set_option autoImplicit false

namespace TabularModel

namespace Filter

open Sql (Predicate)

theorem isSound_join {connective : Connective} {parts : List Predicate} {predicate : Predicate}
    (simple : ∀ part ∈ parts, IsSimple part) (joined : Group.join connective parts = some predicate) :
    predicate.IsSound := by
  match parts, joined with
  | [only], rfl => exact (simple only (List.mem_singleton_self only)).sound
  | first :: second :: others, rfl =>
      have several : 2 ≤ (first :: second :: others).length := by simp
      exact .junction connective several (fun part member => (simple part member).sound)
        fun part member => (simple part member).simple

theorem isSimple_parenthesised {predicate : Predicate} (sound : predicate.IsSound) :
    IsSimple predicate.parenthesised := by
  rw [Predicate.parenthesised]
  split
  · exact ⟨.grouped sound, rfl⟩
  · next simple => exact ⟨sound, Bool.eq_false_iff.mpr simple⟩

theorem isSound_all? {parts : List Predicate} {predicate : Predicate}
    (sound : ∀ part ∈ parts, part.IsSound) (joined : Predicate.all? parts = some predicate) :
    predicate.IsSound := by
  have simple : ∀ part ∈ parts.map Predicate.parenthesised, IsSimple part := by
    intro part member
    obtain ⟨own, inside, rfl⟩ := List.mem_map.mp member
    exact isSimple_parenthesised (sound own inside)
  match parts, joined with
  | [only], rfl => exact sound only (List.mem_singleton_self only)
  | first :: second :: others, rfl =>
      have several : 2 ≤ ((first :: second :: others).map Predicate.parenthesised).length := by simp
      exact .junction .and several (fun part member => (simple part member).sound)
        fun part member => (simple part member).simple

theorem isSimple_linkPredicate {negated : Bool} {join : Sql.Join} {parts : List Predicate}
    (sound : ∀ part ∈ parts, part.IsSound) : IsSimple (linkPredicate negated join parts) := by
  rw [linkPredicate]
  split
  · exact ⟨.linked negated join, rfl⟩
  · next condition found => exact ⟨.linkedWhere negated join (isSound_all? sound found), rfl⟩

variable (settings : Settings)

mutual

theorem Item.isSimple_convert (tableAlias : Text) (next : Nat) (item : Item)
    (predicate : Predicate)
    (kept : (item.convert settings tableAlias next).value = some predicate) :
    IsSimple predicate := by
  cases item with
  | condition condition =>
      rw [Item.convert] at kept
      exact Condition.isSimple_convert kept
  | group group =>
      rw [Item.convert] at kept
      obtain ⟨inner, found, rfl⟩ := Option.map_eq_some_iff.mp kept
      exact ⟨.grouped (Group.isSound_convert tableAlias next group inner found), rfl⟩
  | link link =>
      rw [Item.convert] at kept
      exact Link.isSimple_convert tableAlias next link predicate kept

theorem Item.isSimple_convertEach (tableAlias : Text) (next : Nat) (items : List Item) :
    ∀ part ∈ (Item.convertEach settings tableAlias next items).value, IsSimple part := by
  cases items with
  | nil =>
      rw [Item.convertEach]
      simp
  | cons item items =>
      intro part member
      rw [Item.value_convertEach_cons, List.mem_append, Option.mem_toList] at member
      rcases member with first | others
      · exact Item.isSimple_convert tableAlias next item part first
      · exact Item.isSimple_convertEach tableAlias _ items part others

theorem Group.isSound_convert (tableAlias : Text) (next : Nat) (group : Group)
    (predicate : Predicate)
    (kept : (group.convert settings tableAlias next).value = some predicate) :
    predicate.IsSound := by
  cases group with
  | mk connective items =>
      rw [Group.convert] at kept
      exact isSound_join (Item.isSimple_convertEach tableAlias next items) kept

theorem Group.isSound_convertEach (tableAlias : Text) (next : Nat) (groups : List Group) :
    ∀ part ∈ (Group.convertEach settings tableAlias next groups).value, part.IsSound := by
  cases groups with
  | nil =>
      rw [Group.convertEach]
      simp
  | cons group groups =>
      intro part member
      rw [Group.value_convertEach_cons, List.mem_append, Option.mem_toList] at member
      rcases member with first | others
      · exact Group.isSound_convert tableAlias next group part first
      · exact Group.isSound_convertEach tableAlias _ groups part others

theorem Link.isSimple_convert (outerAlias : Text) (next : Nat) (link : Link)
    (predicate : Predicate)
    (kept : (link.convert settings outerAlias next).value = some predicate) :
    IsSimple predicate := by
  cases link with
  | mk table column outerColumn tableAlias kind filters links =>
      rw [Link.value_convert] at kept
      split at kept
      · cases kept
        refine isSimple_linkPredicate fun part member => ?_
        rcases List.mem_append.mp member with inner | nested
        · exact Group.isSound_convertEach _ _ filters part inner
        · exact (Link.isSimple_convertEach _ _ links part nested).sound
      · cases kept

theorem Link.isSimple_convertEach (outerAlias : Text) (next : Nat) (links : List Link) :
    ∀ part ∈ (Link.convertEach settings outerAlias next links).value, IsSimple part := by
  cases links with
  | nil =>
      rw [Link.convertEach]
      simp
  | cons link links =>
      intro part member
      rw [Link.value_convertEach_cons, List.mem_append, Option.mem_toList] at member
      rcases member with first | others
      · exact Link.isSimple_convert outerAlias next link part first
      · exact Link.isSimple_convertEach outerAlias _ links part others

end

/-- The predicate of a whole filter is sound. -/
theorem Query.isSound_convert {tableAlias : Text} {query : Query} {predicate : Predicate}
    (kept : (query.convert settings tableAlias).predicate = some predicate) :
    predicate.IsSound := by
  rw [Query.predicate_convert] at kept
  refine isSound_all? (fun part member => ?_) kept
  rcases List.mem_append.mp member with filter | link
  · exact Group.isSound_convertEach settings _ _ query.filters part filter
  · exact (Link.isSimple_convertEach settings _ _ query.links part link).sound

end Filter

end TabularModel
