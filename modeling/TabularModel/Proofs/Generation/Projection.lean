import TabularModel.Proofs.Generation.Edges
import TabularModel.Proofs.Plan.Outcomes
import TabularModel.Proofs.Plan.RowSource
import TabularModel.Proofs.Sql.SelectList

/-!
# What a query projects

The declared columns of a table name the columns of the row source that they show,
so its query has to give one column of that name for each of them. What is offered
and not declared shows what another column shows already, and is reported.
-/

set_option autoImplicit false

namespace TabularModel

namespace Generation

/-- The table and the source of a column that is reported as left out. -/
def Diagnostic.skippedColumn? : Diagnostic -> Option (Text × Text)
  | ⟨table, .skippedColumn source⟩ => some (table, source)
  | _ => none

/-- The columns that are reported for a table are those that its plan skipped. -/
theorem filterMap_skippedColumn?_tableDiagnostics (options : Options) (plan : Plan.Table) :
    (tableDiagnostics options plan).filterMap Diagnostic.skippedColumn? =
      plan.skipped.map fun source => (plan.name, source) := by
  have none (findings : List Finding)
      (other : ∀ finding ∈ findings, Diagnostic.skippedColumn? ⟨plan.name, finding⟩ = none) :
      findings.filterMap (fun finding => Diagnostic.skippedColumn? ⟨plan.name, finding⟩) = [] :=
    List.filterMap_eq_nil_iff.mpr other
  have filter : ∀ finding ∈ filterFindings plan,
      Diagnostic.skippedColumn? ⟨plan.name, finding⟩ = Option.none := by
    intro finding member
    rw [filterFindings] at member
    split at member
    · split at member
      · cases member
      · rw [List.mem_singleton.mp member]
        rfl
    · cases member
  have query : ∀ finding ∈ queryFindings options plan,
      Diagnostic.skippedColumn? ⟨plan.name, finding⟩ = Option.none := by
    intro finding member
    rw [queryFindings] at member
    split at member
    · obtain ⟨fault, _, rfl⟩ := Option.map_eq_some_iff.mp (Option.mem_toList.mp member)
      rfl
    · cases member
  have skipped : (plan.skipped.map Finding.skippedColumn).filterMap
      (fun finding => Diagnostic.skippedColumn? ⟨plan.name, finding⟩) =
        plan.skipped.map fun source => (plan.name, source) := by
    rw [List.filterMap_map, ← List.filterMap_eq_map]
    rfl
  rw [tableDiagnostics, List.filterMap_map]
  simp only [Function.comp_def]
  rw [List.filterMap_append, List.filterMap_append, none _ filter, none _ query, skipped,
    List.nil_append, List.append_nil]

/-- A generation reports the columns that its plans skipped, and no others. -/
theorem skippedColumns_of_generate {options : Options} {supply : Supply}
    {selection : Catalog.Selection} {output : Output}
    (generated : generate options supply selection = .ok output) :
    output.diagnostics.filterMap Diagnostic.skippedColumn? =
      (plans options selection).flatMap fun plan =>
        plan.skipped.map fun source => (plan.name, source) := by
  obtain ⟨_, _, _, diagnostics⟩ := exists_toCalendar_of_generate generated
  have edges : ((Plan.ofEdges (plans options selection) selection.edges).filterMap
      skippedDiagnostic?).filterMap Diagnostic.skippedColumn? = [] := by
    rw [List.filterMap_filterMap, List.filterMap_eq_nil_iff]
    intro outcome _
    cases outcome <;> rfl
  rw [diagnostics, List.filterMap_append, edges, List.append_nil, List.filterMap_flatMap]
  exact List.flatMap_congr fun plan _ => filterMap_skippedColumn?_tableDiagnostics options plan

end Generation

namespace Plan

open Sql (selectList? resultName? termsOf)

namespace Table

theorem resultName?_selectColumn {column : Column} (projected : column.IsProjected) :
    resultName? (termsOf (selectColumn column).pieces) = some column.written.source := by
  have sound := isSound_selectColumn projected
  obtain ⟨written, projection⟩ := column
  cases projection with
  | source => exact Sql.resultName?_column baseAlias written.source
  | localDay day => exact Sql.SelectColumn.resultName?_of_label sound rfl

variable {context : Context} {table : Catalog.Table}

/-- The select list of the query has one entry for each planned column. -/
theorem selectList?_query (context : Context) (table : Catalog.Table) :
    selectList? (build context table).query.render =
      some ((build context table).columns.map fun column =>
        termsOf (selectColumn column).pieces) := by
  have columns : (build context table).query.columns =
      (build context table).columns.map selectColumn := by
    rw [query_eq (isPlanned_build context table).sources]
    cases (build context table).filter <;> rfl
  have sound : ∀ column ∈ (build context table).query.columns, column.expression.IsSound := by
    intro column member
    rw [columns] at member
    obtain ⟨own, inside, rfl⟩ := List.mem_map.mp member
    exact isSound_selectColumn (isProjected_of_mem_build inside)
  have nonempty : (build context table).query.columns ≠ [] := by
    obtain ⟨others, keyed, _⟩ := (follows_build context table).holds.keyed
    rw [columns, keyed]
    exact List.cons_ne_nil _ _
  rw [Sql.Select.selectList?_render sound nonempty, columns, List.map_map]
  rfl

/-- The columns of the result, as they are read off the query. -/
theorem resultNames_query (context : Context) (table : Catalog.Table) :
    (selectList? (build context table).query.render).bind (·.mapM resultName?) =
      some ((build context table).columns.map (·.written.source)) := by
  rw [selectList?_query, Option.bind_some]
  exact Sql.mapM_map_of_forall fun column member =>
    resultName?_selectColumn (isProjected_of_mem_build member)

/-- The query of a table gives the declared columns in their order, each under the name
of its source. Sources differ in more than letter case, and the key of the table is
the first column and the only key. What is offered is declared, or its source is taken
and reported once. -/
theorem projectsColumns_build (context : Context) (table : Catalog.Table) :
    let plan := build context table
    (selectList? plan.query.render).bind (·.mapM resultName?) =
      some (plan.columns.map (·.written.source)) ∧
    (plan.columns.Pairwise fun left right =>
      Text.sameIgnoringCase left.written.source right.written.source = false) ∧
    (∃ key others, plan.columns = key :: others ∧ key.written.isKey = true ∧
      key.written.source = table.primaryKey ∧
      ∀ column ∈ others, column.written.isKey = false) ∧
    Accounts context table (offers context table) plan.columns plan.skipped ∧
    ∀ options, (Generation.tableDiagnostics options plan).filterMap
      Generation.Diagnostic.skippedColumn? = plan.skipped.map fun source => (plan.name, source) := by
  obtain ⟨others, keyed, noKeys⟩ := (follows_build context table).holds.keyed
  exact ⟨resultNames_query context table, (isPlanned_build context table).sources,
    ⟨_, others, keyed, rfl, rfl, noKeys⟩, accounts_build context table,
    fun options => Generation.filterMap_skippedColumn?_tableDiagnostics options _⟩

end Table

end Plan

end TabularModel
