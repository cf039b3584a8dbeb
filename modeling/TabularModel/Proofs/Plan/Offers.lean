import TabularModel.Proofs.Plan.Columns

/-!
# What is offered to a plan

The key of a table is offered first, then what its groups of attributes stand
for, each in its order. Of the offers with one source only the first is met. A
plan consists of the offers that are met: each has its column, no column comes
from elsewhere, and a lookup has a key column in the plan if the offer of that
key is met.
-/

set_option autoImplicit false

namespace TabularModel

namespace Text

theorem sameIgnoringCase_iff {left right : Text} :
    sameIgnoringCase left right = true ↔ lower left = lower right := by
  rw [sameIgnoringCase, beq_iff_eq]

end Text

/-- Corrections do not tell names apart that differ in letter case alone. -/
theorem Corrections.lower_apply (corrections : Corrections) {left right : Text}
    (same : Text.lower left = Text.lower right) :
    Text.lower (corrections.apply left) = Text.lower (corrections.apply right) := by
  rw [apply, apply, same]
  cases corrections.get? (Text.lower right) with
  | none => exact same
  | some actual => rfl

namespace Plan

open Catalog (Attribute LookupColumn)

/-- What a column is offered for. -/
inductive Offer where
  | key
  | standalone (attr : Attribute)
  | lookup (parent : Attribute) (column : LookupColumn)

namespace Table

/-- The visibility of the columns of a lookup of the table. -/
def visibility (context : Context) (table : Catalog.Table) (parent : Attribute) :
    LookupColumn -> Lookup.Visibility :=
  Lookup.resolve table.logicalName parent (table.lookups.get? parent.logicalName) context.edges

/-- A group that the key of the table leads offers nothing. -/
def offersOf (context : Context) (table : Catalog.Table) (group : Lookup.Group) : List Offer :=
  if Text.sameIgnoringCase group.leader.logicalName table.primaryKey then []
  else
    match group with
    | .standalone attr => [.standalone attr]
    | .lookup parent _ => (Lookup.shown (visibility context table parent)).map (.lookup parent)

def offers (context : Context) (table : Catalog.Table) : List Offer :=
  .key :: (primaryFirst table.primaryName (Lookup.groups table.attributes)).flatMap
    (offersOf context table)

/-- The column that is offered, under its own name. -/
def offered (context : Context) (table : Catalog.Table) : Offer -> Column
  | .key => ⟨keyColumn table.primaryKey, .source⟩
  | .standalone attr => attributeColumn context table attr
  | .lookup parent column =>
      ⟨{ Definition.Column.plain (lookupColumnName (table.nameOf parent) parent.logicalName column)
            (context.corrections.apply (column.source parent.logicalName)) .string with
          isHidden := (visibility context table parent column).hidden }, .source⟩

def offeredSource (context : Context) (table : Catalog.Table) (offer : Offer) : Text :=
  (offered context table offer).written.source

/-- The first of the offers with its source. -/
def IsFirst (context : Context) (table : Catalog.Table) (seen : List Offer) (offer : Offer) : Prop :=
  ∃ before after, seen = before ++ offer :: after ∧ ∀ other ∈ before,
    Text.sameIgnoringCase (offeredSource context table other)
      (offeredSource context table offer) = false

/-- An offer to the plan of the table that is met. -/
def IsMet (context : Context) (table : Catalog.Table) (offer : Offer) : Prop :=
  IsFirst context table (offers context table) offer

variable {context : Context} {table : Catalog.Table}

/-! ## First offers -/

theorem IsFirst.append {seen : List Offer} {offer : Offer}
    (first : IsFirst context table seen offer) (more : List Offer) :
    IsFirst context table (seen ++ more) offer := by
  obtain ⟨before, after, rfl, new⟩ := first
  exact ⟨before, after ++ more, by simp, new⟩

theorem isFirst_concat {seen : List Offer} {offer : Offer}
    (new : ∀ other ∈ seen, Text.sameIgnoringCase (offeredSource context table other)
      (offeredSource context table offer) = false) :
    IsFirst context table (seen ++ [offer]) offer :=
  ⟨seen, [], rfl, new⟩

theorem IsFirst.mem {seen : List Offer} {offer : Offer}
    (first : IsFirst context table seen offer) : offer ∈ seen := by
  obtain ⟨before, after, rfl, _⟩ := first
  exact List.mem_append_right _ List.mem_cons_self

/-- What is first in a longer list was first before, or it is the last offer. -/
theorem IsFirst.of_concat {seen : List Offer} {offer last : Offer}
    (first : IsFirst context table (seen ++ [last]) offer) :
    IsFirst context table seen offer ∨ (offer = last ∧ ∀ other ∈ seen,
      Text.sameIgnoringCase (offeredSource context table other)
        (offeredSource context table last) = false) := by
  obtain ⟨before, after, whole, new⟩ := first
  rcases List.eq_nil_or_concat after with rfl | ⟨front, final, rfl⟩
  · obtain ⟨rfl, same⟩ := List.append_inj' whole rfl
    cases same
    exact Or.inr ⟨rfl, new⟩
  · rw [List.concat_eq_append, ← List.cons_append, ← List.append_assoc] at whole
    obtain ⟨rfl, _⟩ := List.append_inj' whole rfl
    exact Or.inl ⟨before, front, rfl, new⟩

/-! ## Plans of offers -/

theorem Renamed.source {own column : Column} (renamed : Renamed own column) :
    column.written.source = own.written.source := by
  cases renamed <;> rfl

theorem isKey_attributeColumn (context : Context) (table : Catalog.Table) (attr : Attribute) :
    (attributeColumn context table attr).written.isKey = false := by
  rw [attributeColumn]
  split
  · rfl
  · split
    · split <;> rfl
    · rfl

theorem isKey_offered {offer : Offer} (other : offer ≠ .key) :
    (offered context table offer).written.isKey = false := by
  cases offer with
  | key => exact absurd rfl other
  | standalone attr => exact isKey_attributeColumn context table attr
  | lookup parent column => rfl

theorem hasSource_push (plan : Table) (column : Definition.Column) (projection : Projection)
    (source : Text) :
    (plan.push column projection).hasSource source =
      (plan.hasSource source || Text.sameIgnoringCase column.source source) := by
  rw [push]
  split
  · next taken =>
      cases known : Text.sameIgnoringCase column.source source with
      | false => exact (Bool.or_false _).symm
      | true =>
          obtain ⟨found, inside, same⟩ := List.any_eq_true.mp taken
          rw [Text.sameIgnoringCase_iff] at same known
          rw [Bool.or_true]
          exact List.any_eq_true.mpr
            ⟨found, inside, Text.sameIgnoringCase_iff.mpr (same.trans known)⟩
  · simp [hasSource]

/-- A column whose source is new is planned under its free name. -/
theorem columns_push_of_free {plan : Table} {column : Definition.Column}
    (free : plan.hasSource column.source = false) (projection : Projection) :
    (plan.push column projection).columns =
      plan.columns ++ [⟨{ column with name := plan.freeName column }, projection⟩] := by
  rw [push, free, if_neg Bool.false_ne_true]

theorem columns_push_of_taken {plan : Table} {column : Definition.Column}
    (taken : plan.hasSource column.source = true) (projection : Projection) :
    (plan.push column projection).columns = plan.columns := by
  rw [push, taken, if_pos rfl]

theorem mem_push_of_mem {plan : Table} {found : Column} (inside : found ∈ plan.columns)
    (column : Definition.Column) (projection : Projection) :
    found ∈ (plan.push column projection).columns := by
  rw [push]
  split
  · exact inside
  · exact List.mem_append_left _ inside

theorem idColumns_push (plan : Table) (column : Definition.Column) (projection : Projection) :
    (plan.push column projection).idColumns = plan.idColumns := by
  rw [push]
  split <;> rfl

/-- The columns are those of the first offers, and the key of the table is the
only key among them. -/
structure HoldsFirst (context : Context) (table : Catalog.Table) (seen : List Offer)
    (plan : Table) : Prop where
  sources : ∀ source, plan.hasSource source =
    seen.any fun offer => Text.sameIgnoringCase (offeredSource context table offer) source
  ofOffer : ∀ offer, IsFirst context table seen offer ->
    ∃ column ∈ plan.columns, Renamed (offered context table offer) column
  ofColumn : ∀ column ∈ plan.columns,
    ∃ offer, IsFirst context table seen offer ∧ Renamed (offered context table offer) column
  keyed : ∃ others, plan.columns = ⟨keyColumn table.primaryKey, .source⟩ :: others ∧
    ∀ column ∈ others, column.written.isKey = false

/-- The key columns of lookups are noted for the first offers. -/
structure NotesFirst (context : Context) (table : Catalog.Table) (seen : List Offer)
    (plan : Table) : Prop where
  ofLookup : ∀ parent, IsFirst context table seen (.lookup parent .id) ->
    (plan.idColumns.get? (Text.lower parent.logicalName)).isSome = true
  ofIdColumn : ∀ lookup name, plan.idColumns.get? lookup = some name ->
    ∃ parent, IsFirst context table seen (.lookup parent .id) ∧
      Text.lower parent.logicalName = lookup ∧
      ∃ column ∈ plan.columns, Renamed (offered context table (.lookup parent .id)) column ∧
        column.written.name = name

variable {seen : List Offer} {plan : Table}

theorem HoldsFirst.isNew (holds : HoldsFirst context table seen plan) {offer : Offer}
    (free : plan.hasSource (offeredSource context table offer) = false) : ∀ other ∈ seen,
    Text.sameIgnoringCase (offeredSource context table other)
      (offeredSource context table offer) = false := by
  rw [holds.sources, List.any_eq_false] at free
  intro other member
  simpa using free other member

/-- An offer of a taken source is not first. -/
theorem HoldsFirst.of_concat (holds : HoldsFirst context table seen plan) {offer last : Offer}
    (first : IsFirst context table (seen ++ [last]) offer) :
    IsFirst context table seen offer ∨
      (offer = last ∧ plan.hasSource (offeredSource context table last) = false) := by
  rcases first.of_concat with old | ⟨same, new⟩
  · exact Or.inl old
  · refine Or.inr ⟨same, ?_⟩
    rw [holds.sources, List.any_eq_false]
    intro other member
    rw [new other member]
    exact Bool.false_ne_true

/-- One more offer. -/
theorem HoldsFirst.push (holds : HoldsFirst context table seen plan) {offer : Offer}
    (other : offer ≠ .key) :
    HoldsFirst context table (seen ++ [offer])
      (plan.push (offered context table offer).written (offered context table offer).projection) := by
  have sources (source : Text) :
      (plan.push (offered context table offer).written
        (offered context table offer).projection).hasSource source =
        (seen ++ [offer]).any fun offer =>
          Text.sameIgnoringCase (offeredSource context table offer) source := by
    rw [hasSource_push, holds.sources, List.any_append, List.any_cons, List.any_nil, Bool.or_false]
    rfl
  obtain ⟨others, columns, noKeys⟩ := holds.keyed
  cases taken : plan.hasSource (offeredSource context table offer) with
  | true =>
      have unchanged := columns_push_of_taken taken (offered context table offer).projection
      refine ⟨sources, ?_, ?_, others, unchanged.trans columns, noKeys⟩
      · intro found first
        rcases holds.of_concat first with old | ⟨_, free⟩
        · exact unchanged ▸ holds.ofOffer found old
        · exact absurd (taken.symm.trans free) Bool.true_eq_false.mp
      · intro column inside
        obtain ⟨found, first, renamed⟩ := holds.ofColumn column (unchanged ▸ inside)
        exact ⟨found, first.append _, renamed⟩
  | false =>
      have extended := columns_push_of_free taken (offered context table offer).projection
      have renamed := plan.renamed_freeName (offered context table offer).written
        (offered context table offer).projection
      refine ⟨sources, ?_, ?_, others ++ [_], extended.trans (congrArg (· ++ _) columns), ?_⟩
      · intro found first
        rcases holds.of_concat first with old | ⟨rfl, _⟩
        · obtain ⟨column, inside, renamed⟩ := holds.ofOffer found old
          exact ⟨column, mem_push_of_mem inside _ _, renamed⟩
        · exact ⟨_, extended ▸ List.mem_append_right _ (List.mem_singleton_self _), renamed⟩
      · intro column inside
        rcases List.mem_append.mp (extended ▸ inside) with known | last
        · obtain ⟨found, first, renamed⟩ := holds.ofColumn column known
          exact ⟨found, first.append _, renamed⟩
        · rw [List.mem_singleton.mp last]
          exact ⟨offer, isFirst_concat (holds.isNew taken), renamed⟩
      · intro column inside
        rcases List.mem_append.mp inside with known | last
        · exact noKeys column known
        · rw [List.mem_singleton.mp last]
          exact isKey_offered other

/-- An offer that is no key column of a lookup leaves the notes as they are. -/
theorem NotesFirst.push (notes : NotesFirst context table seen plan) {offer : Offer}
    (other : ∀ parent, offer ≠ .lookup parent .id) (column : Definition.Column)
    (projection : Projection) :
    NotesFirst context table (seen ++ [offer]) (plan.push column projection) := by
  refine ⟨?_, ?_⟩
  · intro parent first
    rw [idColumns_push]
    rcases first.of_concat with old | ⟨same, _⟩
    · exact notes.ofLookup parent old
    · exact absurd same.symm (other parent)
  · intro lookup name known
    rw [idColumns_push] at known
    obtain ⟨parent, first, named, found, inside, renamed, same⟩ :=
      notes.ofIdColumn lookup name known
    exact ⟨parent, first.append _, named, found, mem_push_of_mem inside _ _, renamed, same⟩

/-- What is planned and noted follows the offers that were seen. -/
structure Follows (context : Context) (table : Catalog.Table) (seen : List Offer) (plan : Table) :
    Prop where
  holds : HoldsFirst context table seen plan
  notes : NotesFirst context table seen plan

theorem Follows.pushStandalone (follows : Follows context table seen plan) (attr : Attribute) :
    Follows context table (seen ++ [.standalone attr])
      (plan.push (attributeColumn context table attr).written
        (attributeColumn context table attr).projection) :=
  ⟨follows.holds.push Offer.noConfusion, follows.notes.push (fun _ => Offer.noConfusion) _ _⟩

theorem Follows.pushId (follows : Follows context table seen plan) {parent : Attribute}
    (free : plan.hasSource (offeredSource context table (.lookup parent .id)) = false) :
    Follows context table (seen ++ [.lookup parent .id])
      { plan.push (offered context table (.lookup parent .id)).written .source with
        idColumns :=
          (plan.push (offered context table (.lookup parent .id)).written .source).idColumns.insert
            (Text.lower parent.logicalName)
            (plan.freeName (offered context table (.lookup parent .id)).written) } := by
  have other : Offer.lookup parent .id ≠ .key := Offer.noConfusion
  have holds := follows.holds.push other
  rw [idColumns_push]
  refine ⟨⟨holds.sources, holds.ofOffer, holds.ofColumn, holds.keyed⟩, ?_, ?_⟩
  · intro other first
    rw [SortedMap.get?_insert]
    split
    · rfl
    · next different =>
        rcases first.of_concat with old | ⟨same, _⟩
        · exact follows.notes.ofLookup other old
        · cases same
          exact absurd rfl different
  · intro lookup name known
    rw [SortedMap.get?_insert] at known
    split at known
    · next named =>
        cases known
        refine ⟨parent, isFirst_concat (follows.holds.isNew free), named, _, ?_,
          plan.renamed_freeName _ _, rfl⟩
        exact columns_push_of_free free .source ▸ List.mem_append_right _ List.mem_cons_self
    · obtain ⟨other, first, named, found, inside, renamed, same⟩ :=
        follows.notes.ofIdColumn lookup name known
      exact ⟨other, first.append _, named, found, mem_push_of_mem inside _ _, renamed, same⟩

theorem Follows.pushLookupColumn (follows : Follows context table seen plan) (parent : Attribute)
    (column : LookupColumn) :
    Follows context table (seen ++ [.lookup parent column])
      (plan.pushLookupColumn context (table.nameOf parent) parent (visibility context table parent)
        column) := by
  have other : Offer.lookup parent column ≠ .key := Offer.noConfusion
  have holds := follows.holds.push other
  rw [Table.pushLookupColumn]
  split
  · next isNewKey =>
      rw [Bool.and_eq_true, beq_iff_eq, Bool.not_eq_true'] at isNewKey
      obtain ⟨rfl, free⟩ := isNewKey
      exact follows.pushId free
  · next noNewKey =>
      refine ⟨holds, ?_, ?_⟩
      · intro other first
        rw [idColumns_push]
        rcases follows.holds.of_concat first with old | ⟨same, free⟩
        · exact follows.notes.ofLookup other old
        · cases same
          exact absurd (Bool.and_eq_true _ _ ▸ ⟨beq_self_eq_true _, Bool.not_eq_true' _ ▸ free⟩)
            noNewKey
      · intro lookup name known
        rw [idColumns_push] at known
        obtain ⟨other, first, named, found, inside, renamed, same⟩ :=
          follows.notes.ofIdColumn lookup name known
        exact ⟨other, first.append _, named, found, mem_push_of_mem inside _ _, renamed, same⟩

theorem Follows.pushLookup (follows : Follows context table seen plan) (parent : Attribute) :
    Follows context table
      (seen ++ (Lookup.shown (visibility context table parent)).map (.lookup parent))
      (plan.pushLookup context table parent) := by
  have fold (columns : List LookupColumn) (seen : List Offer) (plan : Table)
      (follows : Follows context table seen plan) :
      Follows context table (seen ++ columns.map (.lookup parent))
        (columns.foldl (Table.pushLookupColumn context (table.nameOf parent) parent
          (visibility context table parent)) plan) := by
    induction columns generalizing seen plan with
    | nil => exact (List.append_nil seen).symm ▸ follows
    | cons column columns ih =>
        have rest := ih _ _ (follows.pushLookupColumn parent column)
        rwa [List.append_assoc] at rest
  rw [Table.pushLookup]
  refine fold _ _ _ ?_
  split
  · exact follows
  · exact ⟨⟨follows.holds.sources, follows.holds.ofOffer, follows.holds.ofColumn,
      follows.holds.keyed⟩, follows.notes.ofLookup, follows.notes.ofIdColumn⟩

theorem Follows.pushGroup (follows : Follows context table seen plan) (group : Lookup.Group) :
    Follows context table (seen ++ offersOf context table group)
      (pushGroup context table plan group) := by
  unfold Table.pushGroup offersOf
  split
  · exact (List.append_nil seen).symm ▸ follows
  · cases group with
    | standalone attr => exact follows.pushStandalone attr
    | lookup parent _ => exact follows.pushLookup parent

theorem follows_keyed (context : Context) (table : Catalog.Table) :
    Follows context table [.key] ((start table).push (keyColumn table.primaryKey) .source) := by
  have columns : ((start table).push (keyColumn table.primaryKey) .source).columns =
      [⟨keyColumn table.primaryKey, .source⟩] := rfl
  have first : IsFirst context table [.key] .key := ⟨[], [], rfl, by simp⟩
  refine ⟨⟨?_, ?_, ?_, [], columns, by simp⟩, ?_, ?_⟩
  · intro source
    rw [hasSource, columns]
    rfl
  · intro offer isFirst
    rw [List.mem_singleton.mp isFirst.mem, columns]
    exact ⟨_, List.mem_cons_self, .same⟩
  · intro column inside
    rw [columns] at inside
    rw [List.mem_singleton.mp inside]
    exact ⟨.key, first, .same⟩
  · intro parent isFirst
    cases List.mem_singleton.mp isFirst.mem
  · intro lookup name known
    rw [idColumns_push] at known
    cases known

theorem Follows.foldl_pushGroup (follows : Follows context table seen plan)
    (groups : List Lookup.Group) :
    Follows context table (seen ++ groups.flatMap (offersOf context table))
      (groups.foldl (Table.pushGroup context table) plan) := by
  induction groups generalizing seen plan with
  | nil => exact (List.append_nil seen).symm ▸ follows
  | cons group groups ih =>
      have rest := ih (follows.pushGroup group)
      rwa [List.append_assoc] at rest

/-- The plan of a table follows all that is offered to it. -/
theorem follows_build (context : Context) (table : Catalog.Table) :
    Follows context table (offers context table) (build context table) := by
  have planned := (follows_keyed context table).foldl_pushGroup
    (primaryFirst table.primaryName (Lookup.groups table.attributes))
  exact ⟨⟨planned.holds.sources, planned.holds.ofOffer, planned.holds.ofColumn,
    planned.holds.keyed⟩, planned.notes.ofLookup, planned.notes.ofIdColumn⟩

/-! ## Keys in a plan -/

/-- A planned table has one key column. -/
theorem filter_isKey_build (context : Context) (table : Catalog.Table) :
    (build context table).columns.filter (·.written.isKey) =
      [⟨keyColumn table.primaryKey, .source⟩] := by
  obtain ⟨others, columns, noKeys⟩ := (follows_build context table).holds.keyed
  rw [columns, List.filter_cons_of_pos rfl, List.filter_eq_nil_iff.mpr]
  intro column inside
  rw [noKeys column inside]
  exact Bool.false_ne_true

theorem keyColumn?_build (context : Context) (table : Catalog.Table) :
    (build context table).keyColumn? = some table.primaryKey := by
  rw [keyColumn?, ← List.head?_filter, filter_isKey_build]
  rfl

/-- Columns that come from one source are the same. -/
theorem eq_of_sameIgnoringCase {left right : Column}
    (leftMember : left ∈ (build context table).columns)
    (rightMember : right ∈ (build context table).columns)
    (same : Text.sameIgnoringCase left.written.source right.written.source = true) :
    left = right := by
  have distinct : ((build context table).columns.map fun column =>
      Text.lower column.written.source).Nodup := by
    refine List.pairwise_map.mpr ((isPlanned_build context table).sources.imp ?_)
    intro left right apart equal
    rw [Text.sameIgnoringCase_iff.mpr equal] at apart
    exact Bool.noConfusion apart
  exact List.inj_on_of_nodup_map distinct leftMember rightMember (Text.sameIgnoringCase_iff.mp same)

/-- The key column of a lookup is noted if and only if its offer is met, and is
the column from the source of that offer. -/
theorem get?_idColumns_build_iff {lookup name : Text} :
    (build context table).idColumns.get? (Text.lower lookup) = some name ↔
      ∃ parent, IsMet context table (.lookup parent .id) ∧
        Text.sameIgnoringCase parent.logicalName lookup = true ∧
        ∃ column ∈ (build context table).columns,
          column.written.source = context.corrections.apply parent.logicalName ∧
            column.written.name = name := by
  have notes := (follows_build context table).notes
  have whole (parent : Attribute) : LookupColumn.id.source parent.logicalName = parent.logicalName :=
    List.append_nil _
  have source (parent : Attribute) : (offered context table (.lookup parent .id)).written.source =
      context.corrections.apply parent.logicalName := congrArg context.corrections.apply (whole parent)
  constructor
  · intro known
    obtain ⟨parent, met, named, column, inside, renamed, same⟩ := notes.ofIdColumn _ _ known
    exact ⟨parent, met, Text.sameIgnoringCase_iff.mpr named, column, inside,
      renamed.source.trans (source parent), same⟩
  · rintro ⟨parent, met, named, column, inside, fromParent, rfl⟩
    obtain ⟨noted, known⟩ := Option.isSome_iff_exists.mp (notes.ofLookup parent met)
    obtain ⟨other, _, otherNamed, found, foundInside, renamed, rfl⟩ := notes.ofIdColumn _ _ known
    have same : found = column := by
      refine eq_of_sameIgnoringCase foundInside inside (Text.sameIgnoringCase_iff.mpr ?_)
      rw [renamed.source, source, fromParent]
      exact Corrections.lower_apply context.corrections otherNamed
    rw [← Text.sameIgnoringCase_iff.mp named, known, same]

end Table

end Plan

end TabularModel
