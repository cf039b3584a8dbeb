import Mathlib.Logic.Relation
import TabularModel.Change.Reachability
import TabularModel.Proofs.SortedMap

/-!
# Search for tables out of reach

The search lets tables wait until they are taken. What it leaves over are the unseen
tables that no path through unseen ones reaches from a waiting table. Begun with one
table, it leaves over those to which no path leads from this table.
-/

set_option autoImplicit false

namespace TabularModel

namespace Reachability

open Relation (ReflTransGen TransGen)

variable {edges : List (Text × Text)}

theorem mem_nextTo {table other : Text} {tables : List Text} :
    other ∈ nextTo edges table tables ↔ other ∈ tables ∧ (table, other) ∈ edges := by
  rw [nextTo, List.mem_filter, List.contains_iff_mem]

theorem mem_notNextTo {table other : Text} {tables : List Text} :
    other ∈ notNextTo edges table tables ↔ other ∈ tables ∧ (table, other) ∉ edges := by
  rw [notNextTo, List.mem_filter, Bool.not_eq_true', ← Bool.not_eq_true, List.contains_iff_mem]

/-- An edge to one of the given tables. -/
def LeadsInto (edges : List (Text × Text)) (tables : List Text) (table other : Text) : Prop :=
  (table, other) ∈ edges ∧ other ∈ tables

theorem LeadsInto.mono {few many : List Text} (subset : few ⊆ many) {table other : Text}
    (leads : LeadsInto edges few table other) : LeadsInto edges many table other :=
  ⟨leads.1, subset leads.2⟩

/-- A path to a table that stays unseen either avoids what is next to the table that is
taken, or leads on from there. -/
theorem exists_path_notNextTo {table start goal : Text} {unseen : List Text}
    (unmet : goal ∈ notNextTo edges table unseen)
    (path : TransGen (LeadsInto edges unseen) start goal) :
    TransGen (LeadsInto edges (notNextTo edges table unseen)) start goal ∨
      ∃ next ∈ nextTo edges table unseen,
        TransGen (LeadsInto edges (notNextTo edges table unseen)) next goal := by
  induction path using TransGen.head_induction_on with
  | single leads => exact Or.inl (.single ⟨leads.1, unmet⟩)
  | @head start middle leads _ ih =>
      rcases ih with avoids | meets
      · by_cases next : (table, middle) ∈ edges
        · exact Or.inr ⟨middle, mem_nextTo.mpr ⟨leads.2, next⟩, avoids⟩
        · exact Or.inl (.head ⟨leads.1, mem_notNextTo.mpr ⟨leads.2, next⟩⟩ avoids)
      · exact Or.inr meets

/-- What one step of the search keeps: a table is reached from what waits if and only if it
is next to the table that is taken, or is reached from what waits afterwards. -/
theorem reached_step_iff (table : Text) (waiting : List Text) {unseen : List Text} {goal : Text}
    (inside : goal ∈ unseen) :
    (∃ start ∈ table :: waiting, TransGen (LeadsInto edges unseen) start goal) ↔
      goal ∉ notNextTo edges table unseen ∨
        ∃ start ∈ waiting ++ nextTo edges table unseen,
          TransGen (LeadsInto edges (notNextTo edges table unseen)) start goal := by
  have fewer : notNextTo edges table unseen ⊆ unseen := List.filter_subset_self _
  constructor
  · rintro ⟨start, waits, path⟩
    by_cases unmet : goal ∈ notNextTo edges table unseen
    · refine Or.inr ?_
      rcases exists_path_notNextTo unmet path with avoids | ⟨next, isNext, meets⟩
      · rcases List.mem_cons.mp waits with rfl | later
        · -- A path from the table that is taken begins next to it.
          obtain ⟨first, leads, _⟩ := TransGen.head'_iff.mp avoids
          exact absurd leads.1 (mem_notNextTo.mp leads.2).2
        · exact ⟨start, List.mem_append_left _ later, avoids⟩
      · exact ⟨next, List.mem_append_right _ isNext, meets⟩
    · exact Or.inl unmet
  · rintro (met | ⟨start, waits, path⟩)
    · have next : (table, goal) ∈ edges := by
        by_contra absent
        exact met (mem_notNextTo.mpr ⟨inside, absent⟩)
      exact ⟨table, List.mem_cons_self, .single ⟨next, inside⟩⟩
    · have whole : TransGen (LeadsInto edges unseen) start goal :=
        TransGen.mono (fun _ _ => LeadsInto.mono fewer) _ _ path
      rcases List.mem_append.mp waits with later | isNext
      · exact ⟨start, List.mem_cons_of_mem table later, whole⟩
      · have leads := mem_nextTo.mp isNext
        exact ⟨table, List.mem_cons_self, .head ⟨leads.2, leads.1⟩ whole⟩

/-- The search leaves over what no path from a waiting table reaches. -/
theorem mem_leftOver_iff (waiting unseen : List Text) (goal : Text) :
    goal ∈ leftOver edges waiting unseen ↔ goal ∈ unseen ∧
      ¬∃ start ∈ waiting, TransGen (LeadsInto edges unseen) start goal := by
  induction waiting, unseen using leftOver.induct edges with
  | case1 unseen =>
      rw [leftOver]
      simp
  | case2 table waiting unseen ih =>
      rw [leftOver, ih]
      by_cases inside : goal ∈ unseen
      · rw [reached_step_iff table waiting inside, not_or, not_not, and_iff_right inside]
      · have outside : goal ∉ notNextTo edges table unseen := fun member =>
          inside (mem_notNextTo.mp member).1
        exact iff_of_false (fun both => outside both.1) fun both => inside both.1

theorem leftOver_sublist (waiting unseen : List Text) :
    (leftOver edges waiting unseen).Sublist unseen := by
  induction waiting, unseen using leftOver.induct edges with
  | case1 unseen => rw [leftOver]
  | case2 table waiting unseen ih =>
      rw [leftOver]
      exact ih.trans List.filter_sublist

theorem mem_names {tables : List Text} {table : Text} : table ∈ names tables ↔ table ∈ tables := by
  rw [names, SortedMap.mem_keys, Option.isSome_iff_ne_none, Ne, SortedMap.get?_ofList_eq_none_iff]
  simp

theorem nodup_names (tables : List Text) : (names tables).Nodup :=
  SortedMap.keys_nodup _

/-! ## Paths from one table -/

/-- An edge between two of the given tables. -/
def Leads (edges : List (Text × Text)) (tables : List Text) (table other : Text) : Prop :=
  table ∈ tables ∧ LeadsInto edges tables table other

/-- Paths that never come back to their start are enough. -/
theorem reflTransGen_iff {tables : List Text} {start goal : Text} (inside : start ∈ tables)
    {others : List Text} (areOthers : ∀ table, table ∈ others ↔ table ∈ tables ∧ table ≠ start) :
    ReflTransGen (Leads edges tables) start goal ↔
      goal = start ∨ TransGen (LeadsInto edges others) start goal := by
  constructor
  · intro path
    induction path with
    | refl => exact Or.inl rfl
    | @tail middle goal _ leads ih =>
        by_cases back : goal = start
        · exact Or.inl back
        · have step : LeadsInto edges others middle goal :=
            ⟨leads.2.1, (areOthers goal).mpr ⟨leads.2.2, back⟩⟩
          rcases ih with rfl | earlier
          · exact Or.inr (.single step)
          · exact Or.inr (earlier.tail step)
  · rintro (rfl | path)
    · exact .refl
    · have both : ReflTransGen (Leads edges tables) start goal ∧ goal ∈ tables := by
        induction path with
        | single leads =>
            have target := ((areOthers _).mp leads.2).1
            exact ⟨.single ⟨inside, leads.1, target⟩, target⟩
        | tail _ leads ih =>
            have target := ((areOthers _).mp leads.2).1
            exact ⟨ih.1.tail ⟨ih.2, leads.1, target⟩, target⟩
      exact both.1

/-- The tables out of reach are those to which no path leads. -/
theorem mem_unreachable_iff {tables : List Text} {start : Text} (inside : start ∈ tables)
    (goal : Text) :
    goal ∈ unreachable tables edges start ↔
      goal ∈ tables ∧ ¬ReflTransGen (Leads edges tables) start goal := by
  have areOthers (table : Text) :
      table ∈ (names tables).filter (· != start) ↔ table ∈ tables ∧ table ≠ start := by
    rw [List.mem_filter, mem_names, bne_iff_ne]
  rw [unreachable, if_pos (List.contains_iff_mem.mpr inside), mem_leftOver_iff, areOthers,
    reflTransGen_iff inside areOthers, not_or, and_assoc]
  simp

theorem nodup_unreachable (tables : List Text) (edges : List (Text × Text)) (start : Text) :
    (unreachable tables edges start).Nodup := by
  rw [unreachable]
  split
  · exact ((nodup_names tables).filter _).sublist (leftOver_sublist _ _)
  · exact List.nodup_nil

end Reachability

end TabularModel
