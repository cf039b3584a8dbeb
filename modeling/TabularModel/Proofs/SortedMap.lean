import Mathlib.Data.List.Induction
import Mathlib.Data.List.Nodup
import TabularModel.SortedMap

/-!
# Looking up in sorted maps

What is found after an insertion, after a change of all values and in a map
that is built from a list. Changing the values of a map that is built from a
list is building it from changed values.
-/

set_option autoImplicit false

namespace TabularModel

namespace SortedMap

variable {α β : Type}

theorem find?_place (key other : Text) (value : α) (entries : List (Text × α)) :
    (place key value entries).find? (·.1 == other) =
      if key = other then some (key, value) else entries.find? (·.1 == other) := by
  induction entries with
  | nil => by_cases same : key = other <;> simp [place, same]
  | cons first rest ih =>
      obtain ⟨head, kept⟩ := first
      rw [place]
      by_cases smaller : Text.before key head = true
      · rw [if_pos smaller, List.find?_cons]
        by_cases same : key = other
        · simp [same]
        · rw [if_neg same, beq_false_of_ne same]
      · rw [if_neg smaller]
        by_cases equal : key = head
        · subst equal
          rw [if_pos rfl, List.find?_cons, List.find?_cons]
          by_cases same : key = other
          · simp [same]
          · rw [if_neg same, beq_false_of_ne same]
        · rw [if_neg equal, List.find?_cons, List.find?_cons, ih]
          by_cases found : head = other
          · have different : ¬ key = other := fun same => equal (same.trans found.symm)
            simp [found, different]
          · rw [beq_false_of_ne found]

/-- Insertion changes what is found under one key. -/
theorem get?_insert (map : SortedMap α) (key other : Text) (value : α) :
    (map.insert key value).get? other = if key = other then some value else map.get? other := by
  rw [get?, insert, find?_place]
  by_cases same : key = other
  · rw [if_pos same, if_pos same, Option.map_some]
  · rw [if_neg same, if_neg same, get?]

theorem get?_empty (key : Text) : (empty : SortedMap α).get? key = none := rfl

theorem get?_mapValues (change : Text -> α -> β) (map : SortedMap α) (key : Text) :
    (map.mapValues change).get? key = (map.get? key).map (change key) := by
  rw [get?, get?, mapValues, List.find?_map, Option.map_map, Option.map_map]
  have sameTest : ((fun entry : Text × β => entry.1 == key) ∘
      fun entry : Text × α => (entry.1, change entry.1 entry.2)) =
      fun entry : Text × α => entry.1 == key := rfl
  rw [sameTest]
  cases found : map.entries.find? fun entry => entry.1 == key with
  | none => rfl
  | some entry =>
      have same : entry.1 = key := by simpa using List.find?_some found
      simp [same]

/-- Of several insertions for one key the last counts. -/
theorem get?_foldl_insert (entries : List (Text × α)) (map : SortedMap α) (key : Text) :
    (entries.foldl (fun known entry => known.insert entry.1 entry.2) map).get? key =
      ((entries.reverse.find? (·.1 == key)).map (·.2)).or (map.get? key) := by
  induction entries generalizing map with
  | nil => simp
  | cons entry entries ih =>
      rw [List.foldl_cons, ih, get?_insert, List.reverse_cons, List.find?_append]
      cases later : entries.reverse.find? (·.1 == key) with
      | some found => simp
      | none => by_cases same : entry.1 = key <;> simp [same]

theorem get?_ofList (entries : List (Text × α)) (key : Text) :
    (ofList entries).get? key = (entries.reverse.find? (·.1 == key)).map (·.2) := by
  rw [ofList, get?_foldl_insert, get?_empty, Option.or_none]

/-- The value that all entries of a key agree on is found. -/
theorem get?_ofList_of_mem {entries : List (Text × α)} {key : Text} {value : α}
    (member : (key, value) ∈ entries)
    (unique : ∀ entry ∈ entries, entry.1 = key -> entry.2 = value) :
    (ofList entries).get? key = some value := by
  rw [get?_ofList]
  cases found : entries.reverse.find? (·.1 == key) with
  | none =>
      have absent := List.find?_eq_none.mp found (key, value) (List.mem_reverse.mpr member)
      simp at absent
  | some entry =>
      have same : entry.1 = key := by simpa using List.find?_some found
      have inside := List.mem_reverse.mp (List.mem_of_find?_eq_some found)
      rw [Option.map_some, unique entry inside same]

theorem get?_ofList_eq_none_iff (entries : List (Text × α)) (key : Text) :
    (ofList entries).get? key = none ↔ ∀ entry ∈ entries, entry.1 ≠ key := by
  simp [get?_ofList, List.find?_eq_none]

theorem mem_of_get? {map : SortedMap α} {key : Text} {value : α}
    (found : map.get? key = some value) : (key, value) ∈ map.entries := by
  obtain ⟨entry, inside, second⟩ := Option.map_eq_some_iff.mp found
  have same : entry.1 = key := by simpa using List.find?_some inside
  rw [← same, ← second]
  exact List.mem_of_find?_eq_some inside

theorem keys_nodup (map : SortedMap α) : (map.entries.map (·.1)).Nodup := by
  refine List.Pairwise.map _ ?_ map.sorted
  intro left right smaller same
  rw [same, Text.before_irrefl] at smaller
  exact Bool.noConfusion smaller

/-- An entry is what is found under its key. -/
theorem get?_of_mem {map : SortedMap α} {entry : Text × α} (member : entry ∈ map.entries) :
    map.get? entry.1 = some entry.2 := by
  cases found : map.entries.find? (·.1 == entry.1) with
  | none =>
      have absent := List.find?_eq_none.mp found entry member
      simp at absent
  | some other =>
      have same : other.1 = entry.1 := by simpa using List.find?_some found
      have equal : other = entry := List.inj_on_of_nodup_map map.keys_nodup
        (List.mem_of_find?_eq_some found) member same
      rw [get?, found, Option.map_some, equal]

theorem find?_reverse_entries (map : SortedMap α) (key : Text) :
    (map.entries.reverse.find? (·.1 == key)).map (·.2) = map.get? key := by
  cases found : map.entries.reverse.find? (·.1 == key) with
  | none =>
      cases known : map.get? key with
      | none => rfl
      | some value =>
          have absent := List.find?_eq_none.mp found _ (List.mem_reverse.mpr (mem_of_get? known))
          simp at absent
  | some entry =>
      have same : entry.1 = key := by simpa using List.find?_some found
      rw [← same, get?_of_mem (List.mem_reverse.mp (List.mem_of_find?_eq_some found))]
      rfl

theorem get?_filter (keep : Text -> α -> Bool) (map : SortedMap α) (key : Text) :
    (map.filter keep).get? key = (map.get? key).filter (keep key) := by
  cases kept : (map.filter keep).get? key with
  | some value =>
      obtain ⟨inside, passed⟩ := List.mem_filter.mp (mem_of_get? kept)
      have found : map.get? key = some value := get?_of_mem inside
      rw [found, Option.filter_some, if_pos passed]
  | none =>
      cases found : map.get? key with
      | none => rfl
      | some value =>
          by_cases passed : keep key value = true
          · have inside : (key, value) ∈ (map.filter keep).entries :=
              List.mem_filter.mpr ⟨mem_of_get? found, passed⟩
            rw [get?_of_mem inside] at kept
            cases kept
          · rw [Option.filter_some, if_neg passed]

theorem get?_erase (map : SortedMap α) (key other : Text) :
    (map.erase key).get? other = if key = other then none else map.get? other := by
  rw [erase, get?_filter]
  by_cases same : key = other
  · simp [same]
  · have different : (other != key) = true := by simpa using fun equal => same equal.symm
    rw [if_neg same]
    cases map.get? other <;> simp [different]

theorem contains_eq (map : SortedMap α) (key : Text) :
    map.contains key = (map.get? key).isSome := by
  rw [contains, get?, Option.isSome_map, List.isSome_find?]

theorem mem_entries_foldl_insert {entries : List (Text × α)} {map : SortedMap α}
    {entry : Text × α}
    (member : entry ∈
      (entries.foldl (fun known entry => known.insert entry.1 entry.2) map).entries) :
    entry ∈ entries ∨ entry ∈ map.entries := by
  induction entries generalizing map with
  | nil => exact Or.inr member
  | cons first entries ih =>
      rw [List.foldl_cons] at member
      rcases ih member with later | known
      · exact Or.inl (List.mem_cons_of_mem first later)
      · rcases mem_place known with same | older
        · exact Or.inl (same ▸ List.mem_cons_self)
        · exact Or.inr older

theorem mem_of_mem_ofList {entries : List (Text × α)} {entry : Text × α}
    (member : entry ∈ (ofList entries).entries) : entry ∈ entries := by
  rcases mem_entries_foldl_insert member with inside | none
  · exact inside
  · simp [empty] at none

theorem mem_keys {map : SortedMap α} {key : Text} :
    key ∈ map.keys ↔ (map.get? key).isSome = true := by
  rw [keys, List.mem_map, Option.isSome_iff_exists]
  constructor
  · rintro ⟨entry, member, rfl⟩
    exact ⟨_, get?_of_mem member⟩
  · rintro ⟨value, found⟩
    exact ⟨_, mem_of_get? found, rfl⟩

/-! ## Entries under different keys -/

theorem perm_place {key : Text} (value : α) {entries : List (Text × α)}
    (new : ∀ entry ∈ entries, entry.1 ≠ key) :
    (place key value entries).Perm ((key, value) :: entries) := by
  induction entries with
  | nil => exact .refl _
  | cons first rest ih =>
      obtain ⟨other, kept⟩ := first
      have different : ¬ key = other := fun same => new _ List.mem_cons_self same.symm
      rw [place, if_neg different]
      split
      · exact .refl _
      · have later := ih fun entry member => new entry (List.mem_cons_of_mem _ member)
        exact (later.cons (other, kept)).trans (.swap _ _ _)

/-- A map that is built from entries under different keys holds these entries. -/
theorem perm_entries_ofList {entries : List (Text × α)} (distinct : (entries.map (·.1)).Nodup) :
    (ofList entries).entries.Perm entries := by
  induction entries using List.reverseRecOn with
  | nil => exact .refl _
  | append_singleton entries entry ih =>
      rw [List.map_append, List.nodup_append] at distinct
      have new : ∀ other ∈ (ofList entries).entries, other.1 ≠ entry.1 := by
        intro other member
        exact distinct.2.2 _ (List.mem_map.mpr ⟨other, mem_of_mem_ofList member, rfl⟩) _
          (List.mem_singleton_self _)
      have whole : ofList (entries ++ [entry]) = (ofList entries).insert entry.1 entry.2 := by
        rw [ofList, List.foldl_append]
        rfl
      rw [whole]
      exact (perm_place entry.2 new).trans
        (((ih distinct.1).cons entry).trans (List.perm_append_singleton _ _).symm)

/-! ## Changing every value -/

theorem map_place (change : Text -> α -> β) (key : Text) (value : α) (entries : List (Text × α)) :
    (place key value entries).map (fun entry => (entry.1, change entry.1 entry.2)) =
      place key (change key value)
        (entries.map fun entry => (entry.1, change entry.1 entry.2)) := by
  induction entries with
  | nil => rfl
  | cons first rest ih =>
      rw [List.map_cons, place, place]
      split
      · rfl
      · split
        · rfl
        · rw [List.map_cons, ih]

theorem ext_entries {left right : SortedMap α} (same : left.entries = right.entries) :
    left = right := by
  cases left
  cases right
  cases same
  rfl

theorem mapValues_insert (change : Text -> α -> β) (map : SortedMap α) (key : Text) (value : α) :
    (map.insert key value).mapValues change = (map.mapValues change).insert key (change key value) :=
  ext_entries (map_place change key value map.entries)

theorem mapValues_ofList (change : Text -> α -> β) (entries : List (Text × α)) :
    (ofList entries).mapValues change =
      ofList (entries.map fun entry => (entry.1, change entry.1 entry.2)) := by
  have step (map : SortedMap α) :
      (entries.foldl (fun known entry => known.insert entry.1 entry.2) map).mapValues change =
        (entries.map fun entry => (entry.1, change entry.1 entry.2)).foldl
          (fun known entry => known.insert entry.1 entry.2) (map.mapValues change) := by
    induction entries generalizing map with
    | nil => rfl
    | cons entry entries ih => rw [List.foldl_cons, ih, mapValues_insert, List.map_cons,
        List.foldl_cons]
  exact step empty

/-! ## Values in the order of their keys -/

theorem mem_values_iff {map : SortedMap α} {value : α} :
    value ∈ map.values ↔ ∃ key, map.get? key = some value := by
  rw [values, List.mem_map]
  constructor
  · rintro ⟨entry, member, rfl⟩
    exact ⟨entry.1, get?_of_mem member⟩
  · rintro ⟨key, found⟩
    exact ⟨(key, value), mem_of_get? found, rfl⟩

/-- The value that is found first has the least key of those that pass the test. -/
theorem exists_least_of_find?_values {map : SortedMap α} {test : α -> Bool} {value : α}
    (found : map.values.find? test = some value) :
    ∃ key, map.get? key = some value ∧ test value = true ∧
      ∀ otherKey other, map.get? otherKey = some other -> test other = true ->
        otherKey = key ∨ Text.before key otherKey = true := by
  obtain ⟨passes, front, back, shape, fails⟩ := List.find?_eq_some_iff_append.mp found
  obtain ⟨left, right, entries, sameFront, sameBack⟩ := List.map_eq_append_iff.mp shape
  obtain ⟨entry, later, rfl, rfl, -⟩ := List.map_eq_cons_iff.mp sameBack
  have inside : entry ∈ map.entries := entries ▸ List.mem_append_right _ List.mem_cons_self
  refine ⟨entry.1, get?_of_mem inside, passes, fun otherKey other known otherPasses => ?_⟩
  have member := mem_of_get? known
  rw [entries] at member
  rcases List.mem_append.mp member with earlier | notEarlier
  · have fails := fails other (sameFront ▸ List.mem_map_of_mem (f := (·.2)) earlier)
    rw [otherPasses] at fails
    cases fails
  · rcases List.mem_cons.mp notEarlier with rfl | behind
    · exact Or.inl rfl
    · have sorted := map.sorted
      rw [entries, List.pairwise_append] at sorted
      exact Or.inr ((List.pairwise_cons.mp sorted.2.1).1 _ behind)

end SortedMap

end TabularModel
