import Mathlib.Data.List.Nodup
import Mathlib.Data.List.Perm.Subperm
import TabularModel.Lookup.Grouping
import TabularModel.Proofs.Definition.Lines
import TabularModel.Proofs.Plan.Offers

/-!
# Every attribute in one place

Where no two attributes share a name, each of them either leads a group or is a column
of one lookup. Which of the two it is depends on its name and its type, and on the
lookups that are listed, but neither on where it stands nor on other columns of
lookups. So the leaders stay the same when columns of lookups are left out or moved.
-/

set_option autoImplicit false

namespace TabularModel

namespace Text

theorem dropEnd?_eq_some_iff {ending text front : Text} :
    dropEnd? ending text = some front ↔ text = front ++ ending := by
  constructor
  · intro found
    rw [dropEnd?, Option.map_eq_some_iff] at found
    obtain ⟨rest, found, rfl⟩ := found
    have whole := congrArg List.reverse (eq_append_of_dropStart? found)
    rwa [List.reverse_reverse, List.reverse_append, List.reverse_reverse] at whole
  · rintro rfl
    rw [dropEnd?, List.reverse_append, dropStart?_append, Option.map_some, List.reverse_reverse]

theorem lower_append (left right : Text) : lower (left ++ right) = lower left ++ lower right :=
  List.map_append

end Text

namespace Lookup

open Catalog (Attribute LookupColumn)

/-- No two attributes have the same name up to letter case. -/
def HasDistinctNames (attributes : List Attribute) : Prop :=
  (attributes.map fun attr => Text.lower attr.logicalName).Nodup

instance (attributes : List Attribute) : Decidable (HasDistinctNames attributes) :=
  inferInstanceAs (Decidable (List.Nodup _))

/-- An attribute is by its name and type the given column of a lookup. -/
structure IsColumnOf (parent : Attribute) (column : LookupColumn) (attr : Attribute) : Prop where
  isNoLookup : attr.type.isLookup = false
  named : parent.logicalName ≠ []
  fits : mayHave parent column = true
  continues : Text.sameIgnoringCase attr.logicalName (column.source parent.logicalName) = true

/-! ## The lookup of a column -/

theorem isLookup_of_mayHave {parent : Attribute} {column : LookupColumn}
    (fits : mayHave parent column = true) : parent.type.isLookup = true := by
  cases column with
  | id => cases fits
  | name => exact fits
  | kind | phonetic =>
      rw [mayHave] at fits
      revert fits
      cases parent.type <;>
        simp [Catalog.AttributeType.isPolymorphic, Catalog.AttributeType.isLookup]

theorem mem_suffixOrder_of_mayHave {parent : Attribute} {column : LookupColumn}
    (fits : mayHave parent column = true) : column ∈ suffixOrder := by
  cases column with
  | id => cases fits
  | name | kind | phonetic => decide

theorem lower_suffix (column : LookupColumn) : Text.lower column.suffix = column.suffix := by
  cases column <;> rfl

/-- A column of a lookup has the lookup's name before the suffix. -/
theorem IsColumnOf.stem {parent attr : Attribute} {column : LookupColumn}
    (belongs : IsColumnOf parent column attr) :
    Text.dropEnd? column.suffix (Text.lower attr.logicalName) =
      some (Text.lower parent.logicalName) := by
  rw [Text.dropEnd?_eq_some_iff, Text.sameIgnoringCase_iff.mp belongs.continues,
    LookupColumn.source, Text.lower_append, lower_suffix]

theorem lower_ne_nil {name : Text} (given : name ≠ []) : Text.lower name ≠ [] := by
  rwa [Text.lower, Ne, List.map_eq_nil_iff]

variable {attributes : List Attribute}

theorem HasDistinctNames.nodup (distinct : HasDistinctNames attributes) : attributes.Nodup :=
  List.Nodup.of_map _ distinct

theorem HasDistinctNames.position_eq (distinct : HasDistinctNames attributes) {left right : Nat}
    {attr other : Attribute} (atLeft : attributes[left]? = some attr)
    (atRight : attributes[right]? = some other)
    (same : Text.lower attr.logicalName = Text.lower other.logicalName) : left = right := by
  obtain ⟨bound, -⟩ := List.getElem?_eq_some_iff.mp atLeft
  have names : (attributes.map fun attr => Text.lower attr.logicalName)[left]? =
      (attributes.map fun attr => Text.lower attr.logicalName)[right]? := by
    rw [List.getElem?_map, List.getElem?_map, atLeft, atRight, Option.map_some, Option.map_some,
      same]
  exact (List.getElem?_inj (by simpa using bound) distinct).mp names

theorem lastNamed?_eq_some {name : Text} {attr : Attribute} {position : Nat}
    (found : lastNamed? attributes name = some (attr, position)) :
    attributes[position]? = some attr ∧ Text.lower attr.logicalName = name := by
  rw [lastNamed?, List.findRev?_eq_find?_reverse] at found
  have inside := List.mem_reverse.mp (List.mem_of_find?_eq_some found)
  have named := List.find?_some found
  exact ⟨List.mem_zipIdx_iff_getElem?.mp inside, beq_iff_eq.mp named⟩

/-- Under distinct names there is no other attribute with the name. -/
theorem lastNamed?_eq_some_of_getElem? (distinct : HasDistinctNames attributes) {attr : Attribute}
    {position : Nat} (found : attributes[position]? = some attr) :
    lastNamed? attributes (Text.lower attr.logicalName) = some (attr, position) := by
  cases last : lastNamed? attributes (Text.lower attr.logicalName) with
  | none =>
      rw [lastNamed?, List.findRev?_eq_find?_reverse, List.find?_eq_none] at last
      have inside : (attr, position) ∈ attributes.zipIdx := List.mem_zipIdx_iff_getElem?.mpr found
      exact absurd (beq_self_eq_true _) (last _ (List.mem_reverse.mpr inside))
  | some other =>
      obtain ⟨other, otherPosition⟩ := other
      obtain ⟨otherFound, same⟩ := lastNamed?_eq_some last
      obtain rfl := distinct.position_eq otherFound found same
      rw [Option.some.inj (otherFound.symm.trans found)]

/-- The lookup that has an attribute as the given column. -/
def parentBy? (attributes : List Attribute) (attr : Attribute) (column : LookupColumn) :
    Option (Nat × LookupColumn) :=
  match Text.dropEnd? column.suffix (Text.lower attr.logicalName) with
  | none | some [] => none
  | some stem =>
      match lastNamed? attributes stem with
      | some (parent, position) =>
          if mayHave parent column then some (position, column) else none
      | none => none

theorem parent?_of_isLookup {attr : Attribute} (lookup : attr.type.isLookup = true) :
    parent? attributes attr = none := by
  rw [parent?, if_pos lookup]

theorem parent?_of_isNoLookup {attr : Attribute} (isNoLookup : attr.type.isLookup = false) :
    parent? attributes attr = suffixOrder.findSome? (parentBy? attributes attr) := by
  rw [parent?, isNoLookup, if_neg Bool.false_ne_true]
  rfl

theorem isColumnOf_of_parentBy? {attr : Attribute} {tried column : LookupColumn} {position : Nat}
    (isNoLookup : attr.type.isLookup = false)
    (found : parentBy? attributes attr tried = some (position, column)) :
    ∃ parent, attributes[position]? = some parent ∧ IsColumnOf parent column attr := by
  rw [parentBy?] at found
  split at found
  · cases found
  · cases found
  · next stem given cut =>
      split at found
      · next parent _ last =>
          split at found
          · next fits =>
              cases found
              obtain ⟨atPosition, named⟩ := lastNamed?_eq_some last
              refine ⟨parent, atPosition, isNoLookup, ?_, fits, ?_⟩
              · intro unnamed
                rw [unnamed] at named
                exact given named.symm
              · rw [Text.sameIgnoringCase_iff, LookupColumn.source, Text.lower_append, lower_suffix,
                  named]
                exact Text.dropEnd?_eq_some_iff.mp cut
          · cases found
      · cases found

/-- The lookup that is found for an attribute has it as a column. -/
theorem isColumnOf_of_parent? {attr : Attribute} {position : Nat} {column : LookupColumn}
    (found : parent? attributes attr = some (position, column)) :
    ∃ parent, attributes[position]? = some parent ∧ IsColumnOf parent column attr := by
  cases isNoLookup : attr.type.isLookup with
  | true =>
      rw [parent?_of_isLookup isNoLookup] at found
      cases found
  | false =>
      rw [parent?_of_isNoLookup isNoLookup] at found
      obtain ⟨tried, -, found⟩ := List.exists_of_findSome?_eq_some found
      exact isColumnOf_of_parentBy? isNoLookup found

theorem parentBy?_of_isColumnOf (distinct : HasDistinctNames attributes) {parent attr : Attribute}
    {position : Nat} (found : attributes[position]? = some parent) {column : LookupColumn}
    (belongs : IsColumnOf parent column attr) :
    parentBy? attributes attr column = some (position, column) := by
  obtain ⟨c, rest, shape⟩ := List.exists_cons_of_ne_nil (lower_ne_nil belongs.named)
  have last := lastNamed?_eq_some_of_getElem? distinct found
  rw [shape] at last
  rw [parentBy?, belongs.stem, shape]
  simp only [last, belongs.fits, if_true]

/-- A column of a listed lookup belongs to some lookup. -/
theorem isSome_parent?_iff (distinct : HasDistinctNames attributes) {attr : Attribute} :
    (parent? attributes attr).isSome = true ↔
      ∃ parent ∈ attributes, ∃ column, IsColumnOf parent column attr := by
  constructor
  · intro some
    obtain ⟨⟨position, column⟩, found⟩ := Option.isSome_iff_exists.mp some
    obtain ⟨parent, atPosition, belongs⟩ := isColumnOf_of_parent? found
    exact ⟨parent, List.mem_of_getElem? atPosition, column, belongs⟩
  · rintro ⟨parent, inside, column, belongs⟩
    obtain ⟨position, found⟩ := List.getElem?_of_mem inside
    rw [parent?_of_isNoLookup belongs.isNoLookup, List.findSome?_isSome_iff]
    refine ⟨column, mem_suffixOrder_of_mayHave belongs.fits, ?_⟩
    rw [parentBy?_of_isColumnOf distinct found belongs]
    rfl

/-- The longest suffix is tried first. -/
theorem eq_phonetic_of_parent? (distinct : HasDistinctNames attributes) {parent attr : Attribute}
    (inside : parent ∈ attributes) (belongs : IsColumnOf parent .phonetic attr) {position : Nat}
    {column : LookupColumn} (found : parent? attributes attr = some (position, column)) :
    column = .phonetic := by
  obtain ⟨place, atPlace⟩ := List.getElem?_of_mem inside
  rw [parent?_of_isNoLookup belongs.isNoLookup, suffixOrder, List.findSome?_cons,
    parentBy?_of_isColumnOf distinct atPlace belongs] at found
  cases found
  rfl

/-! ## Groups -/

/-- The columns that are listed for a lookup. -/
def Group.columns : Group -> List (LookupColumn × Attribute)
  | .standalone _ => []
  | .lookup _ columns => columns

/-- The attributes that have their place in a group. -/
def Group.members (group : Group) : List Attribute :=
  group.leader :: group.columns.map Prod.snd

/-- A group without the columns that are listed for it. -/
def Group.bare : Group -> Group
  | .standalone attr => .standalone attr
  | .lookup parent _ => .lookup parent []

/-- The group that an attribute leads, without columns. -/
def Group.ofLeader (attr : Attribute) : Group :=
  if attr.type.isLookup then .lookup attr [] else .standalone attr

/-- The attributes that are no column of a lookup, in their order. -/
def leaders (attributes : List Attribute) : List Attribute :=
  attributes.filter fun attr => (parent? attributes attr).isNone

/-- The group that an attribute leads where it stands. -/
def groupAt (attributes : List Attribute) (attr : Attribute) (position : Nat) : Group :=
  if attr.type.isLookup then .lookup attr (virtualColumns attributes position)
  else .standalone attr

theorem groups_eq (attributes : List Attribute) :
    groups attributes =
      (attributes.zipIdx.filter fun found => (parent? attributes found.1).isNone).map
        fun found => groupAt attributes found.1 found.2 := by
  rw [groups, ← List.filterMap_eq_map, List.filterMap_filter]
  refine List.filterMap_congr fun found _ => ?_
  obtain ⟨attr, position⟩ := found
  simp only [Function.comp, groupAt]
  cases parent? attributes attr with
  | some parent => rfl
  | none => cases attr.type.isLookup <;> rfl

theorem leader_groupAt (attr : Attribute) (position : Nat) :
    (groupAt attributes attr position).leader = attr := by
  rw [groupAt]
  split <;> rfl

theorem bare_groupAt (attr : Attribute) (position : Nat) :
    (groupAt attributes attr position).bare = .ofLeader attr := by
  rw [groupAt, Group.ofLeader]
  split <;> rfl

theorem map_groups {α : Type} (read : Group -> α) (ofLeader : Attribute -> α)
    (same : ∀ attr position, read (groupAt attributes attr position) = ofLeader attr) :
    (groups attributes).map read = (leaders attributes).map ofLeader := by
  have leading : leaders attributes =
      (attributes.zipIdx.filter fun found => (parent? attributes found.1).isNone).map Prod.fst := by
    rw [leaders, ← List.zipIdx_map_fst 0 attributes, List.filter_map]
    rw [List.zipIdx_map_fst]
    rfl
  rw [groups_eq, leading, List.map_map, List.map_map]
  exact List.map_congr_left fun found _ => same found.1 found.2

theorem map_leader_groups : (groups attributes).map Group.leader = leaders attributes := by
  rw [map_groups Group.leader id leader_groupAt, List.map_id]

/-- Up to their columns, groups are decided by the attributes that lead them. -/
theorem map_bare_groups :
    (groups attributes).map Group.bare = (leaders attributes).map Group.ofLeader :=
  map_groups Group.bare Group.ofLeader bare_groupAt

theorem mem_virtualColumns_iff {position : Nat} {entry : LookupColumn × Attribute} :
    entry ∈ virtualColumns attributes position ↔
      entry.2 ∈ attributes ∧ parent? attributes entry.2 = some (position, entry.1) := by
  obtain ⟨column, attr⟩ := entry
  have listed : column ∈ LookupColumn.all := by cases column <;> decide
  simp only [virtualColumns, List.mem_flatMap, List.mem_map, List.mem_filter, beq_iff_eq,
    Prod.mk.injEq]
  constructor
  · rintro ⟨_, -, _, member, rfl, rfl⟩
    exact member
  · intro member
    exact ⟨column, listed, attr, member, rfl, rfl⟩

theorem nodup_virtualColumns (nodup : attributes.Nodup) (position : Nat) :
    ((virtualColumns attributes position).map Prod.snd).Nodup := by
  have listed : LookupColumn.all.Nodup := by decide
  rw [virtualColumns, List.map_flatMap]
  simp only [List.map_map, Function.comp_def, List.map_id']
  refine List.nodup_flatMap.mpr ⟨fun column _ => nodup.filter _, listed.imp ?_⟩
  intro left right different attr inLeft inRight
  have ofLeft := (List.mem_filter.mp inLeft).2
  have ofRight := (List.mem_filter.mp inRight).2
  rw [beq_iff_eq] at ofLeft ofRight
  rw [ofLeft] at ofRight
  cases ofRight
  exact different rfl

theorem mem_columns_groupAt {attr : Attribute} {position : Nat} {entry : LookupColumn × Attribute}
    (member : entry ∈ (groupAt attributes attr position).columns) :
    entry.2 ∈ attributes ∧ parent? attributes entry.2 = some (position, entry.1) := by
  rw [groupAt] at member
  split at member
  · exact mem_virtualColumns_iff.mp member
  · cases member

/-- What has its place in a group leads it or is a column of the lookup that stands where
the leader does. -/
theorem of_mem_members {attr member : Attribute} {position : Nat}
    (inside : member ∈ (groupAt attributes attr position).members) :
    member = attr ∨
      (member ∈ attributes ∧ ∃ column, parent? attributes member = some (position, column)) := by
  rcases List.mem_cons.mp inside with rfl | inside
  · exact Or.inl (leader_groupAt attr position)
  · obtain ⟨entry, listed, rfl⟩ := List.mem_map.mp inside
    obtain ⟨known, found⟩ := mem_columns_groupAt listed
    exact Or.inr ⟨known, entry.1, found⟩

theorem nodup_members (nodup : attributes.Nodup) {attr : Attribute} (position : Nat)
    (leads : parent? attributes attr = none) :
    (groupAt attributes attr position).members.Nodup := by
  rw [Group.members, leader_groupAt]
  refine List.nodup_cons.mpr ⟨?_, ?_⟩
  · intro inside
    obtain ⟨entry, listed, rfl⟩ := List.mem_map.mp inside
    rw [(mem_columns_groupAt listed).2] at leads
    cases leads
  · rw [groupAt]
    split
    · exact nodup_virtualColumns nodup position
    · exact List.nodup_nil

/-- Groups at different places share no attribute. -/
theorem disjoint_members {attr other : Attribute} {position place : Nat} (different : attr ≠ other)
    (apart : position ≠ place) (leads : parent? attributes attr = none)
    (otherLeads : parent? attributes other = none) :
    (groupAt attributes attr position).members.Disjoint
      (groupAt attributes other place).members := by
  intro member inside otherInside
  rcases of_mem_members inside with rfl | ⟨-, column, found⟩
  · rcases of_mem_members otherInside with rfl | ⟨-, column, found⟩
    · exact different rfl
    · rw [found] at leads
      cases leads
  · rcases of_mem_members otherInside with rfl | ⟨-, _, otherFound⟩
    · rw [found] at otherLeads
      cases otherLeads
    · rw [found] at otherFound
      cases otherFound
      exact apart rfl

theorem nodup_flatMap_members (nodup : attributes.Nodup) :
    ((groups attributes).flatMap Group.members).Nodup := by
  have attrs : attributes.zipIdx.Pairwise fun left right => left.1 ≠ right.1 := by
    rw [← List.pairwise_map (f := Prod.fst) (R := (· ≠ ·)), List.zipIdx_map_fst]
    exact nodup
  have positions : attributes.zipIdx.Pairwise fun left right => left.2 ≠ right.2 := by
    rw [← List.pairwise_map (f := Prod.snd) (R := (· ≠ ·)), List.zipIdx_map_snd]
    exact List.nodup_range'
  rw [groups_eq, List.flatMap_map]
  refine List.nodup_flatMap.mpr ⟨?_, ?_⟩
  · intro found inside
    exact nodup_members nodup found.2 (Option.isNone_iff_eq_none.mp (List.mem_filter.mp inside).2)
  · refine List.pairwise_filter.mpr ((attrs.and positions).imp ?_)
    intro left right apart leads otherLeads
    exact disjoint_members apart.1 apart.2 (Option.isNone_iff_eq_none.mp leads)
      (Option.isNone_iff_eq_none.mp otherLeads)

theorem groupAt_mem_groups {attr : Attribute} {position : Nat}
    (found : attributes[position]? = some attr) (leads : parent? attributes attr = none) :
    groupAt attributes attr position ∈ groups attributes := by
  rw [groups_eq]
  refine List.mem_map.mpr ⟨(attr, position), List.mem_filter.mpr ⟨?_, ?_⟩, rfl⟩
  · exact List.mem_zipIdx_iff_getElem?.mpr found
  · rw [leads]
    rfl

theorem exists_of_mem_groups {group : Group} (member : group ∈ groups attributes) :
    ∃ attr position, attributes[position]? = some attr ∧ parent? attributes attr = none ∧
      group = groupAt attributes attr position := by
  rw [groups_eq] at member
  obtain ⟨⟨attr, position⟩, inside, rfl⟩ := List.mem_map.mp member
  obtain ⟨found, leads⟩ := List.mem_filter.mp inside
  exact ⟨attr, position, List.mem_zipIdx_iff_getElem?.mp found, Option.isNone_iff_eq_none.mp leads,
    rfl⟩

theorem mem_flatMap_members_iff {attr : Attribute} :
    attr ∈ (groups attributes).flatMap Group.members ↔ attr ∈ attributes := by
  rw [List.mem_flatMap]
  constructor
  · rintro ⟨group, member, inside⟩
    obtain ⟨leader, position, found, -, rfl⟩ := exists_of_mem_groups member
    rcases of_mem_members inside with rfl | ⟨known, -⟩
    · exact List.mem_of_getElem? found
    · exact known
  · intro known
    cases parent : parent? attributes attr with
    | none =>
        obtain ⟨position, found⟩ := List.getElem?_of_mem known
        refine ⟨_, groupAt_mem_groups found parent, ?_⟩
        rw [Group.members, leader_groupAt]
        exact List.mem_cons_self
    | some place =>
        obtain ⟨position, column⟩ := place
        obtain ⟨leader, found, belongs⟩ := isColumnOf_of_parent? parent
        have lookup := isLookup_of_mayHave belongs.fits
        refine ⟨_, groupAt_mem_groups found (parent?_of_isLookup lookup), ?_⟩
        rw [groupAt, if_pos lookup]
        refine List.mem_cons_of_mem _ (List.mem_map.mpr ⟨(column, attr), ?_, rfl⟩)
        exact mem_virtualColumns_iff.mpr ⟨known, parent⟩

/-- A lookup leads a group of its kind. -/
theorem exists_lookup_mem_groups {parent : Attribute} (member : parent ∈ attributes)
    (lookup : parent.type.isLookup = true) :
    ∃ columns, .lookup parent columns ∈ groups attributes := by
  obtain ⟨position, found⟩ := List.getElem?_of_mem member
  have inside := groupAt_mem_groups found (parent?_of_isLookup lookup)
  rw [groupAt, if_pos lookup] at inside
  exact ⟨_, inside⟩

/-! ## One place for every attribute -/

/-- The groups give every attribute one place. They are in the order of their leaders. The
columns of a lookup continue its name, by the longest suffix that fits, and what stands
alone continues the name of no lookup. -/
structure IsGrouping (attributes : List Attribute) (groups : List Group) : Prop where
  places : (groups.flatMap Group.members).Perm attributes
  order : (groups.map Group.leader).Sublist attributes
  ofLookup : ∀ parent columns, .lookup parent columns ∈ groups ->
    parent.type.isLookup = true ∧ ∀ column attr, (column, attr) ∈ columns ->
      IsColumnOf parent column attr ∧
        ((∃ other ∈ attributes, IsColumnOf other .phonetic attr) -> column = .phonetic)
  ofStandalone : ∀ attr, .standalone attr ∈ groups ->
    attr.type.isLookup = false ∧ ∀ parent ∈ attributes, ∀ column, ¬ IsColumnOf parent column attr

theorem isGrouping_groups (distinct : HasDistinctNames attributes) :
    IsGrouping attributes (groups attributes) := by
  refine ⟨?_, ?_, ?_, ?_⟩
  · rw [List.perm_ext_iff_of_nodup (nodup_flatMap_members distinct.nodup) distinct.nodup]
    exact fun _ => mem_flatMap_members_iff
  · rw [map_leader_groups]
    exact List.filter_sublist
  · intro parent columns member
    obtain ⟨attr, position, found, -, shape⟩ := exists_of_mem_groups member
    cases lookup : attr.type.isLookup with
    | false =>
        rw [groupAt, lookup, if_neg Bool.false_ne_true] at shape
        cases shape
    | true =>
        rw [groupAt, if_pos lookup] at shape
        cases shape
        refine ⟨lookup, fun column entry listed => ?_⟩
        have bound := (mem_virtualColumns_iff.mp listed).2
        obtain ⟨owner, atPosition, belongs⟩ := isColumnOf_of_parent? bound
        rw [found] at atPosition
        cases atPosition
        refine ⟨belongs, ?_⟩
        rintro ⟨other, inside, continues⟩
        exact eq_phonetic_of_parent? distinct inside continues bound
  · intro attr member
    obtain ⟨leader, position, -, leads, shape⟩ := exists_of_mem_groups member
    cases lookup : leader.type.isLookup with
    | true =>
        rw [groupAt, if_pos lookup] at shape
        cases shape
    | false =>
        rw [groupAt, lookup, if_neg Bool.false_ne_true] at shape
        cases shape
        refine ⟨lookup, fun parent inside column belongs => ?_⟩
        have found := (isSome_parent?_iff distinct).mpr ⟨parent, inside, column, belongs⟩
        rw [leads] at found
        cases found

/-! ## Columns left out or moved -/

/-- Columns of lookups are left out or stand elsewhere: every attribute occurs at most as
often as before, and those that lead groups all stand in their old order. -/
structure MovesColumns (attributes others : List Attribute) : Prop where
  known : others.Subperm attributes
  leading : (others.filter fun attr => attr ∈ (groups attributes).map Group.leader) =
    (groups attributes).map Group.leader

theorem HasDistinctNames.subperm {others : List Attribute} (distinct : HasDistinctNames attributes)
    (known : others.Subperm attributes) : HasDistinctNames others := by
  obtain ⟨kept, same, inside⟩ := known
  have names := inside.map fun attr => Text.lower attr.logicalName
  exact (same.map _).nodup_iff.mp (List.Nodup.sublist names distinct)

theorem MovesColumns.filter_eq {others : List Attribute} (moves : MovesColumns attributes others) :
    (others.filter fun attr => (parent? attributes attr).isNone) = leaders attributes := by
  rw [← map_leader_groups, ← moves.leading]
  refine List.filter_congr fun attr inside => ?_
  rw [map_leader_groups, Bool.eq_iff_iff, decide_eq_true_iff, leaders, List.mem_filter]
  exact (and_iff_right (moves.known.subset inside)).symm

/-- The leaders stay the same when columns of lookups are left out or moved. -/
theorem leaders_eq_of_movesColumns {others : List Attribute}
    (distinct : HasDistinctNames attributes) (moves : MovesColumns attributes others) :
    leaders others = leaders attributes := by
  rw [← moves.filter_eq, leaders]
  refine List.filter_congr fun attr _ => ?_
  have same : (parent? others attr).isSome = (parent? attributes attr).isSome := by
    rw [Bool.eq_iff_iff, isSome_parent?_iff (distinct.subperm moves.known),
      isSome_parent?_iff distinct]
    constructor
    · rintro ⟨parent, inside, belongs⟩
      exact ⟨parent, moves.known.subset inside, belongs⟩
    · rintro ⟨parent, inside, column, belongs⟩
      refine ⟨parent, ?_, column, belongs⟩
      -- A lookup is no column of another, so it leads a group and is still listed.
      have leads : parent ∈ leaders attributes := by
        refine List.mem_filter.mpr ⟨inside, ?_⟩
        rw [parent?_of_isLookup (isLookup_of_mayHave belongs.fits)]
        rfl
      rw [← moves.filter_eq] at leads
      exact List.mem_of_mem_filter leads
  rw [← Option.not_isSome, ← Option.not_isSome, same]

end Lookup

end TabularModel
