import TabularModel.Proofs.Filter.Mentions
import TabularModel.Proofs.Filter.Outline
import TabularModel.Proofs.Filter.Soundness
import TabularModel.Proofs.Plan.Columns
import TabularModel.Proofs.Sql.Selection

/-!
# The row source of a table

The query for the rows of a table, as it is read. Names come from a catalog and
values from a view, so both may hold any characters, but each of them is one lexeme
of the query and is read back as it was. What is around them depends on the kinds
of names and values alone.
-/

set_option autoImplicit false

namespace TabularModel

namespace Plan

open Sql (Lexeme Mention Piece Writes)

/-- A column is stored, or it is the local day of a stored moment of the same name. -/
def Column.IsProjected (column : Column) : Prop :=
  match column.projection with
  | .source => True
  | .localDay day => ∃ offset, day = Table.localDay offset column.written.source

/-- The names in the query for a column. -/
def Column.mentions (column : Column) : List Mention :=
  match column.projection with
  | .source => [.name baseAlias, .name column.written.source]
  | .localDay _ =>
      [.name baseAlias, .name column.written.source, .name column.written.source]

namespace Table

/-- The column that is selected for a planned one. -/
def selectColumn (column : Column) : Sql.SelectColumn :=
  match column.projection with
  | .source => ⟨.column baseAlias column.written.source, none⟩
  | .localDay day => ⟨day, some column.written.source⟩

theorem mentions_selectColumn {column : Column} (projected : column.IsProjected) :
    (selectColumn column).mentions = column.mentions := by
  obtain ⟨written, projection⟩ := column
  cases projection with
  | source => rfl
  | localDay day =>
      obtain ⟨offset, isDay⟩ : ∃ offset, day = localDay offset written.source := projected
      rw [isDay]
      simp [selectColumn, Column.mentions, Sql.SelectColumn.mentions, localDay]

theorem isSound_selectColumn {column : Column} (projected : column.IsProjected) :
    (selectColumn column).expression.IsSound := by
  obtain ⟨written, projection⟩ := column
  cases projection with
  | source => exact .column _ _
  | localDay day =>
      obtain ⟨offset, isDay⟩ : ∃ offset, day = localDay offset written.source := projected
      rw [isDay]
      exact .asDate (Filter.LocalTime.isSound_localise _ (.column _ _))

theorem isProjected_of_offered {context : Context} {table : Catalog.Table} {column : Column}
    (offered : Offered context table column) : column.IsProjected := by
  cases offered with
  | ofKey => trivial
  | ofLookup => trivial
  | ofAttribute attr =>
      rw [attributeColumn]
      split
      · trivial
      · split
        · next calendar _ =>
            split
            · exact ⟨calendar.offsetHours, rfl⟩
            · trivial
        · trivial

theorem isProjected_of_mem_build {context : Context} {table : Catalog.Table} {column : Column}
    (member : column ∈ (build context table).columns) : column.IsProjected := by
  obtain ⟨own, offered, renamed⟩ := (isPlanned_build context table).offered column member
  have projected := isProjected_of_offered offered
  cases renamed with
  | same => exact projected
  | sourced => exact projected

/-! ## The selected columns -/

/-- Columns from different sources are selected as different columns. -/
theorem ne_selectColumn {left right : Column}
    (apart : Text.sameIgnoringCase left.written.source right.written.source = false) :
    selectColumn left ≠ selectColumn right := by
  have different : left.written.source ≠ right.written.source := by
    intro same
    rw [same, Text.sameIgnoringCase, beq_self_eq_true] at apart
    cases apart
  intro same
  unfold selectColumn at same
  split at same <;> split at same
  · simp_all
  · simp at same
  · simp at same
  · simp_all

theorem select_of_fresh {query : Sql.Select} (isBase : query.tableAlias = baseAlias)
    {column : Column} (fresh : selectColumn column ∉ query.columns) :
    select query column = { query with columns := query.columns ++ [selectColumn column] } := by
  have added : query.add (selectColumn column) =
      { query with columns := query.columns ++ [selectColumn column] } := by
    rw [Sql.Select.add, List.contains_eq_mem, decide_eq_false fresh, if_neg Bool.false_ne_true]
  rw [← added, select, selectColumn]
  cases column.projection with
  | source => rw [Sql.Select.addColumn, isBase]
  | localDay day => rfl

theorem foldl_select {columns : List Column} (query : Sql.Select)
    (isBase : query.tableAlias = baseAlias)
    (apart : columns.Pairwise fun left right => selectColumn left ≠ selectColumn right)
    (fresh : ∀ column ∈ columns, selectColumn column ∉ query.columns) :
    columns.foldl select query =
      { query with columns := query.columns ++ columns.map selectColumn } := by
  induction columns generalizing query with
  | nil => simp
  | cons column columns ih =>
      rw [List.pairwise_cons] at apart
      rw [List.foldl_cons, select_of_fresh isBase (fresh column List.mem_cons_self), ih]
      · simp
      · exact isBase
      · exact apart.2
      · intro other member
        rw [List.mem_append, List.mem_singleton, not_or]
        exact ⟨fresh other (List.mem_cons_of_mem column member), (apart.1 other member).symm⟩

/-- The query for all rows. -/
def rows (plan : Table) : Sql.Select :=
  ⟨plan.logicalName, baseAlias, plan.columns.map selectColumn, none⟩

def filtered (rows : Sql.Select) : Option Filter.RowFilter -> Sql.Select
  | none => rows
  | some filter => rows.withFilter filter.clause

theorem query_eq {plan : Table} (apart : plan.columns.Pairwise fun left right =>
      Text.sameIgnoringCase left.written.source right.written.source = false) :
    plan.query = filtered plan.rows plan.filter := by
  have selected : plan.columns.foldl select (.start plan.logicalName baseAlias) = plan.rows :=
    foldl_select _ rfl (apart.imp ne_selectColumn) fun _ _ => List.not_mem_nil
  rw [query, selected]
  cases plan.filter <;> rfl

/-! ## The whole query -/

/-- The plan with the rows that a view keeps. -/
def keeping (plan : Table) (settings : Filter.Settings) (view : Option Filter.Query) : Table :=
  { plan with filter := view.map fun query => .converted (query.convert settings baseAlias) }

/-- The names and values that the row source of a plan is written from. -/
def mentions (plan : Table) (settings : Filter.Settings) (view : Option Filter.Query) :
    List Mention :=
  plan.columns.flatMap Column.mentions ++ [.name plan.logicalName, .name baseAlias] ++
    (view.map (Filter.Query.mentions settings baseAlias)).getD []

variable {context : Context} {table : Catalog.Table}

theorem rows_of_empty_clause (plan : Table) {filter : Filter.RowFilter} (empty : filter.clause = []) :
    filtered plan.rows (some filter) = plan.rows := by
  rw [filtered, empty]
  rfl

theorem query_keeping (context : Context) (table : Catalog.Table) (settings : Filter.Settings)
    (view : Option Filter.Query) :
    ((build context table).keeping settings view).query =
      filtered (build context table).rows
        (view.map fun query => .converted (query.convert settings baseAlias)) :=
  query_eq (isPlanned_build context table).sources

/-- The query of a table is that of its plan with some view, or without one. -/
theorem exists_view_query (context : Context) (table : Catalog.Table) : ∃ view,
    (build context table).query = ((build context table).keeping context.settings view).query := by
  have isFilter : (build context table).filter =
      table.filterText?.map (Filter.RowFilter.ofDocument context.settings baseAlias) := rfl
  rw [query_eq (isPlanned_build context table).sources, isFilter]
  cases table.filterText? with
  | none => exact ⟨none, (query_keeping context table context.settings none).symm⟩
  | some document =>
      rw [Option.map_some, Filter.RowFilter.ofDocument]
      split
      · next view _ => exact ⟨some view, (query_keeping context table context.settings (some view)).symm⟩
      · refine ⟨none, ?_⟩
        rw [rows_of_empty_clause _ rfl]
        exact (query_keeping context table context.settings none).symm

theorem mentions_rows (context : Context) (table : Catalog.Table) :
    (build context table).rows.mentions =
      (build context table).columns.flatMap Column.mentions ++
        [.name (build context table).logicalName, .name baseAlias] := by
  have columns : ∀ column ∈ (build context table).columns,
      (selectColumn column).mentions = column.mentions :=
    fun column member => mentions_selectColumn (isProjected_of_mem_build member)
  rw [Sql.Select.mentions, rows, List.flatMap_map, List.flatMap_congr columns]

/-- The row source is read as pieces with the names and values of the plan and of the
view. -/
theorem exists_pieces (context : Context) (table : Catalog.Table) (settings : Filter.Settings)
    (view : Option Filter.Query) : ∃ pieces,
      Writes ((build context table).keeping settings view).query.render pieces ∧
      Sql.mentions pieces = (build context table).mentions settings view := by
  have sound : ∀ column ∈ (build context table).rows.columns, column.expression.IsSound := by
    intro column member
    obtain ⟨own, inside, rfl⟩ := List.mem_map.mp member
    exact isSound_selectColumn (isProjected_of_mem_build inside)
  have front := Sql.Select.writes_of_unfiltered sound rfl
  have mentioned : Sql.mentions (build context table).rows.pieces = _ :=
    (Sql.Select.mentions_pieces _).trans (mentions_rows context table)
  rw [query_keeping, mentions, ← mentioned]
  cases view with
  | none => exact ⟨_, front, by simp⟩
  | some view =>
      have ofView := Filter.Query.mentions_convert settings baseAlias view
      rw [Option.map_some, Option.map_some, Option.getD_some, ← ofView]
      cases kept : (view.convert settings baseAlias).predicate with
      | none =>
          refine ⟨_, ?_, (List.append_nil _).symm⟩
          rw [rows_of_empty_clause]
          · exact front
          · rw [Filter.RowFilter.clause, Filter.Conversion.clause, kept]
            rfl
      | some predicate =>
          have isClause : (Filter.RowFilter.converted (view.convert settings baseAlias)).clause =
              predicate.render := by
            rw [Filter.RowFilter.clause, Filter.Conversion.clause, kept]
            rfl
          have soundFilter := Filter.Query.isSound_convert settings kept
          have whole := Sql.Select.writes_withFilter sound rfl soundFilter.writes
            soundFilter.pieces_ne_nil
          rw [filtered, isClause]
          exact ⟨_, whole, by simp [Sql.Predicate.mentions]⟩

/-- The row source of a table is one lexeme for each word and mark, and one for each
name and value, from which the name or value is read back. The names are those of the
planned columns, of the table and of the view, and the values are the operands of the
translated conditions. So the kinds of the lexemes of a row filter depend on the
outline of the view alone. -/
theorem keepsShape_query (context : Context) (table : Catalog.Table) (settings : Filter.Settings) :
    (∃ view, (build context table).query =
      ((build context table).keeping context.settings view).query) ∧
    (∀ view, ∃ pieces,
      Sql.lexemes ((build context table).keeping settings view).query.render =
        pieces.map Piece.lexeme ∧
      (∀ piece ∈ pieces, piece.IsReadBack) ∧
      Sql.mentions pieces = (build context table).mentions settings view) ∧
    ∀ (first second : Filter.Query), first.outline = second.outline ->
      ∀ tableAlias otherAlias,
        (Sql.lexemes (first.convert settings tableAlias).clause).map Lexeme.kind =
          (Sql.lexemes (second.convert settings otherAlias).clause).map Lexeme.kind := by
  refine ⟨exists_view_query context table, fun view => ?_, fun first second same tableAlias other => ?_⟩
  · obtain ⟨pieces, writes, mentioned⟩ := exists_pieces context table settings view
    exact ⟨pieces, Sql.Spells.lexemes_eq writes, fun piece _ => piece.isReadBack, mentioned⟩
  · rw [Filter.Query.kinds_clause settings tableAlias [] first,
      Filter.Query.kinds_clause settings other [] second, same]

/-- A name and a value that look like the end of what they stand in. -/
theorem keepsShape_query_hostile :
    let context : Context := ⟨.standard, ⟨⟨0⟩, .unrestricted⟩, none, []⟩
    let condition : Filter.Condition := ⟨"name", .compare .equal, some "x", [], none⟩
    let hostile : Filter.Condition := ⟨"a] = 1 OR [b", .compare .equal, some "' OR '1' = '1", [], none⟩
    let view : Filter.Query := ⟨"account", [⟨.and, [.condition condition]⟩], []⟩
    let other : Filter.Query := ⟨"account", [⟨.and, [.condition hostile]⟩], []⟩
    view.outline = other.outline ∧
      (Sql.lexemes (other.convert context.settings baseAlias).clause).map Lexeme.kind =
        (Sql.lexemes (view.convert context.settings baseAlias).clause).map Lexeme.kind := by
  intro context condition hostile view other
  have sameCondition : condition.outline = hostile.outline := by decide +kernel
  have same : view.outline = other.outline :=
    congrArg (fun outline => (⟨[], [⟨.and, [.condition outline]⟩], []⟩ : Filter.Query)) sameCondition
  exact ⟨same, (keepsShape_query context (.plain "account" "accountid") context.settings).2.2 other view
    same.symm baseAlias baseAlias⟩

end Table

end Plan

end TabularModel
