import TabularModel.Proofs.Generation.Names
import TabularModel.Proofs.Plan.Names

/-!
# What references denote

The end of a relationship is the name of a table with the name of one of its
columns. It denotes one column if the names of the columns of that table are
different, which the plans see to for all names but the ones that they make up
themselves.
-/

set_option autoImplicit false

namespace TabularModel

namespace Plan

open Catalog (Calendar Edge)

/-- The columns of the plan that a reference denotes. -/
def Table.columnsAt (plan : Table) (reference : Text) : List Column :=
  match Name.splitColumnReference? reference with
  | some (table, column) => if table == plan.name then plan.columnsNamed column else []
  | none => []

/-- A reference that denotes one column of a planned table. -/
def DenotesOne (plans : List Table) (reference : Text) : Prop :=
  ∃ plan ∈ plans, ∃ column ∈ plan.columns, plan.columnsAt reference = [column]

variable {plans : List Table}

theorem IsEndIn.denotesOne (distinct : ∀ plan ∈ plans, plan.HasDistinctNames) {reference : Text}
    (isEnd : IsEndIn plans reference) : DenotesOne plans reference := by
  obtain ⟨plan, member, column, inside, rfl⟩ := isEnd
  refine ⟨plan, member, column, inside, ?_⟩
  simp only [Table.columnsAt, Name.splitColumnReference?_columnReference, beq_self_eq_true, if_true]
  exact (distinct plan member).columnsNamed_eq inside

/-- Where each offered column has a free name, the columns of a table have different
names, and each end of a relationship between the tables or to the calendar denotes
one of them. -/
theorem denotesOne_of_hasFreeNames (context : Context) (tables : List Catalog.Table)
    (free : ∀ table ∈ tables,
      Table.hasFreeNames context table [] (Table.offers context table) = true) :
    let plans := tables.map (Table.build context)
    (∀ plan ∈ plans, plan.HasDistinctNames) ∧
    (∀ edge relationship, relationshipOf plans edge = .ok relationship ->
      DenotesOne plans relationship.source ∧ DenotesOne plans relationship.target) ∧
    ∀ calendar reference, Generation.calendarEnd plans calendar = .ok reference ->
      DenotesOne plans reference := by
  intro plans
  have distinct : ∀ plan ∈ plans, plan.HasDistinctNames := by
    intro plan member
    obtain ⟨table, inside, rfl⟩ := List.mem_map.mp member
    exact Table.hasDistinctNames_build context table (free table inside)
  have own : ∀ plan ∈ plans, HasOwnIdColumns plan := by
    intro plan member
    obtain ⟨table, _, rfl⟩ := List.mem_map.mp member
    exact (Table.isPlanned_build context table).idColumns
  refine ⟨distinct, fun edge relationship planned => ?_, fun calendar reference found => ?_⟩
  · obtain ⟨source, target⟩ := isEndIn_of_relationshipOf own planned
    exact ⟨source.denotesOne distinct, target.denotesOne distinct⟩
  · exact (Generation.isEndIn_of_calendarEnd found).denotesOne distinct

/-- A table of accounts with the given attributes under the given names. -/
def accountsWith (names : List (Text × Text)) : Catalog.Table :=
  { Catalog.Table.plain "account" "accountid" with
    attributes := names.map fun entry => ⟨entry.1, some entry.2, .string, [], none⟩ }

/-- Two columns of one name. -/
theorem denotesOne_of_hasFreeNames_repeated :
    let context : Context := ⟨.standard, ⟨⟨0⟩, .unrestricted⟩, none, []⟩
    let table := accountsWith [("a", "Label"), ("b", "label")]
    Table.hasFreeNames context table [] (Table.offers context table) = true ∧
      (Table.build context table).columnFrom? "b" = some "label (b)" ∧
      (Table.build context table).HasDistinctNames := by
  intro context table
  have free : Table.hasFreeNames context table [] (Table.offers context table) = true := by
    decide +kernel
  have known := denotesOne_of_hasFreeNames context [table]
    (fun other member => List.mem_singleton.mp member ▸ free)
  exact ⟨free, by decide +kernel, known.1 _ List.mem_cons_self⟩

/-- The name that a column gets besides its own one may be taken as well. -/
theorem repeats_name_build :
    let context : Context := ⟨.standard, ⟨⟨0⟩, .unrestricted⟩, none, []⟩
    let table := accountsWith [("x", "Label"), ("y", "Label (b)"), ("b", "Label")]
    ¬ (Table.build context table).HasDistinctNames ∧
      ((Table.build context table).columnsNamed "Label (b)").map (·.written.source) = ["y", "b"] := by
  decide +kernel

end Plan

end TabularModel
