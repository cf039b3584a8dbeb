import TabularModel.Text.Basic

/-!
# Sorted maps

Finite maps from texts, held as a list of entries in the order of their keys.
The order makes the list unique for a map, so that two maps with the same
entries are equal, and listing a map needs no further choice.
-/

set_option autoImplicit false

namespace TabularModel

/-- A map holds at most one value for a key. -/
structure SortedMap (α : Type) where
  entries : List (Text × α)
  sorted : entries.Pairwise fun left right => Text.before left.1 right.1 = true

namespace SortedMap

variable {α β : Type}

def empty : SortedMap α := ⟨[], List.Pairwise.nil⟩

instance : Inhabited (SortedMap α) := ⟨empty⟩

instance [Repr α] : Repr (SortedMap α) := ⟨fun map precedence => reprPrec map.entries precedence⟩

instance [DecidableEq α] : DecidableEq (SortedMap α) := fun left right =>
  if same : left.entries = right.entries then
    isTrue (by cases left; cases right; simp_all)
  else isFalse (fun equal => same (equal ▸ rfl))

/-- Places an entry among sorted ones, instead of one with the same key. -/
def place (key : Text) (value : α) : List (Text × α) -> List (Text × α)
  | [] => [(key, value)]
  | (other, kept) :: rest =>
      if Text.before key other then (key, value) :: (other, kept) :: rest
      else if key = other then (key, value) :: rest
      else (other, kept) :: place key value rest

theorem mem_place {key : Text} {value : α} {entries : List (Text × α)} {entry : Text × α}
    (member : entry ∈ place key value entries) : entry = (key, value) ∨ entry ∈ entries := by
  induction entries with
  | nil => simpa [place] using member
  | cons first rest ih =>
      obtain ⟨other, kept⟩ := first
      rw [place] at member
      split at member
      · simpa using member
      · split at member
        · rcases List.mem_cons.mp member with same | later
          · exact Or.inl same
          · exact Or.inr (List.mem_cons_of_mem _ later)
        · rcases List.mem_cons.mp member with same | later
          · exact Or.inr (same ▸ List.mem_cons_self)
          · rcases ih later with same | older
            · exact Or.inl same
            · exact Or.inr (List.mem_cons_of_mem _ older)

theorem place_sorted (key : Text) (value : α) (entries : List (Text × α))
    (sorted : entries.Pairwise fun left right => Text.before left.1 right.1 = true) :
    (place key value entries).Pairwise fun left right => Text.before left.1 right.1 = true := by
  induction entries with
  | nil => simp [place]
  | cons first rest ih =>
      obtain ⟨other, kept⟩ := first
      obtain ⟨later, restSorted⟩ := List.pairwise_cons.mp sorted
      rw [place]
      split
      · next smaller =>
          refine List.Pairwise.cons ?_ sorted
          intro entry member
          rcases List.mem_cons.mp member with same | member
          · exact same ▸ smaller
          · exact Text.before_trans smaller (later entry member)
      · split
        · next same =>
            refine List.Pairwise.cons ?_ restSorted
            intro entry member
            exact same ▸ later entry member
        · next notSmaller different =>
            refine List.Pairwise.cons ?_ (ih restSorted)
            intro entry member
            rcases mem_place member with same | member
            · rcases Text.before_or_eq_or_before key other with smaller | equal | greater
              · exact absurd smaller notSmaller
              · exact absurd equal different
              · exact same ▸ greater
            · exact later entry member

def insert (map : SortedMap α) (key : Text) (value : α) : SortedMap α :=
  ⟨place key value map.entries, place_sorted key value map.entries map.sorted⟩

def get? (map : SortedMap α) (key : Text) : Option α :=
  (map.entries.find? (·.1 == key)).map (·.2)

def contains (map : SortedMap α) (key : Text) : Bool :=
  map.entries.any (·.1 == key)

def filter (keep : Text -> α -> Bool) (map : SortedMap α) : SortedMap α :=
  ⟨map.entries.filter fun entry => keep entry.1 entry.2, map.sorted.filter _⟩

def erase (map : SortedMap α) (key : Text) : SortedMap α :=
  map.filter fun other _ => other != key

/-- Changes every value, keeping the keys. -/
def mapValues (change : Text -> α -> β) (map : SortedMap α) : SortedMap β :=
  ⟨map.entries.map fun entry => (entry.1, change entry.1 entry.2), by
    rw [List.pairwise_map]
    exact map.sorted⟩

/-- Of several values for one key the last counts. -/
def ofList (entries : List (Text × α)) : SortedMap α :=
  entries.foldl (fun map entry => map.insert entry.1 entry.2) empty

def keys (map : SortedMap α) : List Text :=
  map.entries.map (·.1)

def values (map : SortedMap α) : List α :=
  map.entries.map (·.2)

def size (map : SortedMap α) : Nat :=
  map.entries.length

def isEmpty (map : SortedMap α) : Bool :=
  map.entries.isEmpty

end SortedMap

end TabularModel
