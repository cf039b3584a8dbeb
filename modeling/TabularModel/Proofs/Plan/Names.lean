import TabularModel.Proofs.Plan.Outcomes

/-!
# The names of the columns of a plan

A column whose name is taken gets the source behind its name, and that longer
name is not compared with the others again. So names tell the columns of a plan
apart as long as no column has the longer name of a later one for a name of its
own.
-/

set_option autoImplicit false

namespace TabularModel

namespace Plan

/-- The name of a column when its own one is taken. -/
def Column.longName (column : Column) : Text :=
  column.written.name ++ " (" ++ column.written.source ++ ")"

namespace Table

/-- Columns with different names, which differ in more than letter case. -/
def HasDistinctNames (plan : Table) : Prop :=
  plan.columns.Pairwise fun left right =>
    Text.sameIgnoringCase left.written.name right.written.name = false

instance (plan : Table) : Decidable plan.HasDistinctNames :=
  inferInstanceAs (Decidable (plan.columns.Pairwise _))

/-- The columns that go by a name. -/
def columnsNamed (plan : Table) (name : Text) : List Column :=
  plan.columns.filter fun column => Text.sameIgnoringCase column.written.name name

/-- Whether the column that is offered may be planned under the name. -/
def mayBear (context : Context) (table : Catalog.Table) (name : Text) (offer : Offer) : Bool :=
  Text.sameIgnoringCase (offered context table offer).written.name name ||
    Text.sameIgnoringCase (offered context table offer).longName name

/-- Whether each offer has a name for which no earlier one can be planned. An
offer whose source is taken needs no name. -/
def hasFreeNames (context : Context) (table : Catalog.Table) (seen : List Offer) :
    List Offer -> Bool
  | [] => true
  | offer :: offers =>
      let own := offered context table offer
      let isTaken := seen.any fun other =>
        Text.sameIgnoringCase (offeredSource context table other) own.written.source
      let isFree := !seen.any (mayBear context table own.written.name) ||
        !seen.any (mayBear context table own.longName)
      (isTaken || isFree) && hasFreeNames context table (seen ++ [offer]) offers

variable {context : Context} {table : Catalog.Table} {seen : List Offer} {plan : Table}

theorem Renamed.mayBear {offer : Offer} {column : Column}
    (renamed : Renamed (offered context table offer) column) {name : Text}
    (same : Text.sameIgnoringCase column.written.name name = true) :
    Table.mayBear context table name offer = true := by
  rw [Table.mayBear, Bool.or_eq_true]
  cases renamed with
  | same => exact Or.inl same
  | sourced => exact Or.inr same

/-- A name that no offer may bear is not taken. -/
theorem Accounts.hasName_eq_false
    (accounts : Accounts context table seen plan.columns plan.skipped) {name : Text}
    (unborne : seen.any (mayBear context table name) = false) : plan.hasName name = false := by
  rw [hasName, List.any_eq_false]
  intro column inside same
  obtain ⟨offer, offered, renamed⟩ := accounts.exists_offer inside
  exact absurd (renamed.mayBear same) (List.any_eq_false.mp unborne offer offered)

theorem hasName_freeName_eq_false {column : Definition.Column}
    (free : plan.hasName column.name = false ∨
      plan.hasName (column.name ++ " (" ++ column.source ++ ")") = false) :
    plan.hasName (plan.freeName column) = false := by
  rw [freeName]
  split
  · next taken => exact free.resolve_left (taken ▸ Bool.true_eq_false.mp)
  · next own => exact Bool.not_eq_true _ ▸ own

theorem HasDistinctNames.push (distinct : plan.HasDistinctNames) {column : Definition.Column}
    {projection : Projection}
    (free : plan.hasSource column.source = true ∨ plan.hasName (plan.freeName column) = false) :
    (plan.push column projection).HasDistinctNames := by
  cases known : plan.hasSource column.source with
  | true =>
      rw [HasDistinctNames, columns_push_of_taken known]
      exact distinct
  | false =>
      have unnamed := free.resolve_left (known ▸ Bool.false_ne_true)
      rw [hasName, List.any_eq_false] at unnamed
      rw [HasDistinctNames, columns_push_of_free known]
      refine List.pairwise_append.mpr ⟨distinct, List.pairwise_singleton _ _, ?_⟩
      intro other inside last same
      rw [List.mem_singleton.mp same]
      simpa using unnamed other inside

/-- Offers with free names, planned one after the other. -/
theorem HasDistinctNames.foldl_pushOffer (distinct : plan.HasDistinctNames)
    (accounts : Accounts context table seen plan.columns plan.skipped) {offers : List Offer}
    (free : hasFreeNames context table seen offers = true) :
    (offers.foldl (pushOffer context table) plan).HasDistinctNames := by
  induction offers generalizing seen plan with
  | nil => exact distinct
  | cons offer offers ih =>
      rw [hasFreeNames, Bool.and_eq_true, Bool.or_eq_true] at free
      refine ih (distinct.push ?_) (accounts.pushOffer offer) free.2
      refine free.1.imp ?_ fun named => hasName_freeName_eq_false ?_
      · exact (accounts.any_source _).trans
      · rw [Bool.or_eq_true, Bool.not_eq_true', Bool.not_eq_true'] at named
        exact named.imp accounts.hasName_eq_false accounts.hasName_eq_false

theorem hasDistinctNames_build (context : Context) (table : Catalog.Table)
    (free : hasFreeNames context table [] (offers context table) = true) :
    (build context table).HasDistinctNames := by
  have none : (start table).HasDistinctNames := List.Pairwise.nil
  have planned := none.foldl_pushOffer .none free
  rw [HasDistinctNames] at planned ⊢
  rwa [(sameColumns_build context table).columns]

/-- A name in a plan with distinct names is that of one column. -/
theorem HasDistinctNames.columnsNamed_eq (distinct : plan.HasDistinctNames) {column : Column}
    (inside : column ∈ plan.columns) : plan.columnsNamed column.written.name = [column] := by
  obtain ⟨before, after, whole⟩ := List.append_of_mem inside
  rw [HasDistinctNames, whole, List.pairwise_append, List.pairwise_cons] at distinct
  obtain ⟨_, ⟨fromColumn, _⟩, across⟩ := distinct
  have none (others : List Column)
      (different : ∀ other ∈ others,
        Text.sameIgnoringCase other.written.name column.written.name = false) :
      (others.filter fun other =>
        Text.sameIgnoringCase other.written.name column.written.name) = [] :=
    List.filter_eq_nil_iff.mpr fun other member => by
      rw [different other member]
      exact Bool.false_ne_true
  rw [columnsNamed, whole, List.filter_append, List.filter_cons_of_pos,
    none before fun other member => across other member column List.mem_cons_self, none after]
  · rfl
  · intro other member
    rw [Text.sameIgnoringCase, Bool.beq_comm]
    exact fromColumn other member
  · exact Text.sameIgnoringCase_iff.mpr rfl

end Table

end Plan

end TabularModel
