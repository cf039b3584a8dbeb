import TabularModel.Proofs.Plan.Offers

/-!
# What becomes of offers

The columns of a plan and the notes on left out ones come from its offers alone,
which are pushed one after the other. In that order each offer either becomes a
column, since no earlier offer has its source, or leaves its source as a note.
-/

set_option autoImplicit false

namespace TabularModel

namespace Plan

open Catalog (Attribute LookupColumn)

namespace Table

/-! ## Plans as their offers -/

def pushOffer (context : Context) (table : Catalog.Table) (plan : Table) (offer : Offer) : Table :=
  plan.push (offered context table offer).written (offered context table offer).projection

/-- Plans that differ at most in what they note about lookups. -/
structure SameColumns (left right : Table) : Prop where
  columns : left.columns = right.columns
  skipped : left.skipped = right.skipped

variable {context : Context} {table : Catalog.Table} {left right : Table}

theorem SameColumns.push (same : SameColumns left right) (column : Definition.Column)
    (projection : Projection) :
    SameColumns (left.push column projection) (right.push column projection) := by
  have source : left.hasSource column.source = right.hasSource column.source := by
    rw [hasSource, hasSource, same.columns]
  have name : left.freeName column = right.freeName column := by
    rw [freeName, freeName, hasName, hasName, same.columns]
  rw [Table.push, Table.push, source]
  split
  · exact ⟨same.columns, congrArg (· ++ [column.source]) same.skipped⟩
  · refine ⟨?_, same.skipped⟩
    simp only [same.columns, name]

theorem SameColumns.pushLookupColumn (same : SameColumns left right) (parent : Attribute)
    (column : LookupColumn) :
    SameColumns
      (left.pushLookupColumn context (table.nameOf parent) parent (visibility context table parent)
        column)
      (pushOffer context table right (.lookup parent column)) := by
  have pushed := same.push (offered context table (.lookup parent column)).written .source
  rw [Table.pushLookupColumn]
  split
  · exact ⟨pushed.columns, pushed.skipped⟩
  · exact pushed

theorem SameColumns.pushLookup (same : SameColumns left right) (parent : Attribute) :
    SameColumns (left.pushLookup context table parent)
      (((Lookup.shown (visibility context table parent)).map (.lookup parent)).foldl
        (pushOffer context table) right) := by
  have fold (columns : List LookupColumn) (left right : Table) (same : SameColumns left right) :
      SameColumns
        (columns.foldl (Table.pushLookupColumn context (table.nameOf parent) parent
          (visibility context table parent)) left)
        ((columns.map (.lookup parent)).foldl (pushOffer context table) right) := by
    induction columns generalizing left right with
    | nil => exact same
    | cons column columns ih => exact ih _ _ (same.pushLookupColumn parent column)
  rw [Table.pushLookup]
  refine fold _ _ _ ?_
  split
  · exact same
  · exact ⟨same.columns, same.skipped⟩

theorem SameColumns.pushGroup (same : SameColumns left right) (group : Lookup.Group) :
    SameColumns (pushGroup context table left group)
      ((offersOf context table group).foldl (pushOffer context table) right) := by
  unfold Table.pushGroup offersOf
  split
  · exact same
  · cases group with
    | standalone attr => exact same.push _ _
    | lookup parent _ => exact same.pushLookup parent

/-- The columns of a plan are those of its offers. -/
theorem sameColumns_build (context : Context) (table : Catalog.Table) :
    SameColumns (build context table)
      ((offers context table).foldl (pushOffer context table) (start table)) := by
  have fold (groups : List Lookup.Group) (left right : Table) (same : SameColumns left right) :
      SameColumns (groups.foldl (Table.pushGroup context table) left)
        ((groups.flatMap (offersOf context table)).foldl (pushOffer context table) right) := by
    induction groups generalizing left right with
    | nil => exact same
    | cons group groups ih =>
        rw [List.flatMap_cons, List.foldl_append]
        exact ih _ _ (same.pushGroup group)
  have keyed : SameColumns ((start table).push (keyColumn table.primaryKey) .source)
      (pushOffer context table (start table) .key) := ⟨rfl, rfl⟩
  have planned := fold (primaryFirst table.primaryName (Lookup.groups table.attributes)) _ _ keyed
  exact ⟨planned.columns, planned.skipped⟩

/-! ## Columns and notes -/

/-- Of the offers in their order, those of a new source become the columns, and of
each other one the source is noted. -/
inductive Accounts (context : Context) (table : Catalog.Table) :
    List Offer -> List Column -> List Text -> Prop where
  | none : Accounts context table [] [] []
  | emitted {offers : List Offer} {columns : List Column} {skipped : List Text}
      (earlier : Accounts context table offers columns skipped) {offer : Offer} {column : Column}
      (new : ∀ other ∈ offers, Text.sameIgnoringCase (offeredSource context table other)
        (offeredSource context table offer) = false)
      (renamed : Renamed (offered context table offer) column) :
      Accounts context table (offers ++ [offer]) (columns ++ [column]) skipped
  | skipped {offers : List Offer} {columns : List Column} {skipped : List Text}
      (earlier : Accounts context table offers columns skipped) {offer : Offer}
      (taken : ∃ other ∈ offers, Text.sameIgnoringCase (offeredSource context table other)
        (offeredSource context table offer) = true) :
      Accounts context table (offers ++ [offer]) columns
        (skipped ++ [offeredSource context table offer])

theorem Accounts.exists_offer {offers : List Offer} {columns : List Column} {skipped : List Text}
    (accounts : Accounts context table offers columns skipped) {column : Column}
    (inside : column ∈ columns) :
    ∃ offer ∈ offers, Renamed (offered context table offer) column := by
  induction accounts with
  | none => cases inside
  | emitted _ _ renamed ih =>
      rcases List.mem_append.mp inside with earlier | last
      · obtain ⟨offer, member, known⟩ := ih earlier
        exact ⟨offer, List.mem_append_left _ member, known⟩
      · rw [List.mem_singleton.mp last]
        exact ⟨_, List.mem_append_right _ (List.mem_singleton_self _), renamed⟩
  | skipped _ _ ih =>
      obtain ⟨offer, member, known⟩ := ih inside
      exact ⟨offer, List.mem_append_left _ member, known⟩

/-- A source is planned if it was offered. -/
theorem Accounts.any_source {offers : List Offer} {columns : List Column} {skipped : List Text}
    (accounts : Accounts context table offers columns skipped) (source : Text) :
    (columns.any fun column => Text.sameIgnoringCase column.written.source source) =
      offers.any fun offer => Text.sameIgnoringCase (offeredSource context table offer) source := by
  induction accounts with
  | none => rfl
  | emitted _ _ renamed ih =>
      rw [List.any_append, List.any_append, ih, List.any_cons, List.any_cons, renamed.source]
      rfl
  | @skipped offers columns _ _ offer taken ih =>
      rw [ih, List.any_append, List.any_cons, List.any_nil, Bool.or_false]
      cases known : Text.sameIgnoringCase (offeredSource context table offer) source with
      | false => exact (Bool.or_false _).symm
      | true =>
          obtain ⟨other, inside, same⟩ := taken
          rw [Text.sameIgnoringCase_iff] at same known
          rw [Bool.or_true]
          exact List.any_eq_true.mpr
            ⟨other, inside, Text.sameIgnoringCase_iff.mpr (same.trans known)⟩

theorem Accounts.pushOffer {plan : Table} {seen : List Offer}
    (accounts : Accounts context table seen plan.columns plan.skipped) (offer : Offer) :
    Accounts context table (seen ++ [offer]) (pushOffer context table plan offer).columns
      (pushOffer context table plan offer).skipped := by
  have known : plan.hasSource (offered context table offer).written.source = _ :=
    accounts.any_source (offeredSource context table offer)
  rw [Table.pushOffer, Table.push]
  split
  · next taken =>
      exact .skipped accounts (List.any_eq_true.mp (known ▸ taken))
  · next free =>
      refine .emitted accounts ?_ (plan.renamed_freeName _ _)
      intro other inside
      rw [known, Bool.not_eq_true, List.any_eq_false] at free
      simpa using free other inside

/-- A plan accounts for all that is offered to it. -/
theorem accounts_build (context : Context) (table : Catalog.Table) :
    Accounts context table (offers context table) (build context table).columns
      (build context table).skipped := by
  have fold (offers seen : List Offer) (plan : Table)
      (accounts : Accounts context table seen plan.columns plan.skipped) :
      Accounts context table (seen ++ offers)
        (offers.foldl (Table.pushOffer context table) plan).columns
        (offers.foldl (Table.pushOffer context table) plan).skipped := by
    induction offers generalizing seen plan with
    | nil => exact (List.append_nil seen).symm ▸ accounts
    | cons offer offers ih =>
        have rest := ih _ _ (accounts.pushOffer offer)
        rwa [List.append_assoc] at rest
  have same := sameColumns_build context table
  rw [same.columns, same.skipped]
  exact fold _ [] _ .none

end Table

end Plan

end TabularModel
