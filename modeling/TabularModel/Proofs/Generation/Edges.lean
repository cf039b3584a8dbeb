import TabularModel.Proofs.Generation.Names
import TabularModel.Proofs.Plan.Offers

/-!
# Edges and what becomes of them

An edge joins the key column of its lookup to the key of its target, if both
tables are chosen and that key column is planned. Every edge of a generation
becomes a relationship between these two columns or is reported as skipped, and
it is skipped only if it joins nothing or if an earlier edge joined the same
columns. The calendar adds one relationship at the end.
-/

set_option autoImplicit false

namespace TabularModel

open Catalog (Attribute Calendar Edge Selection)
open Definition (Relationship)

/-! ## Outcomes one after the other -/

namespace Plan

variable {plans : List Table} {earlier : List Relationship}

/-- What becomes of an edge after earlier relationships. -/
def outcomeAfter (plans : List Table) (earlier : List Relationship) (edge : Edge) :
    Except SkippedEdge Relationship :=
  match relationshipOf plans edge with
  | .error skipped => .error skipped
  | .ok relationship =>
      if earlier.any (haveSameEnds relationship) then
        .error ⟨edge, reportedTable plans edge, .duplicate⟩
      else .ok relationship

theorem relationshipsFrom_cons (plans : List Table) (earlier : List Relationship) (edge : Edge)
    (edges : List Edge) :
    relationshipsFrom plans earlier (edge :: edges) =
      outcomeAfter plans earlier edge ::
        relationshipsFrom plans (earlier ++ (outcomeAfter plans earlier edge).toOption.toList)
          edges := by
  rw [relationshipsFrom, outcomeAfter]
  cases relationshipOf plans edge with
  | error skipped => exact congrArg (_ :: relationshipsFrom plans · edges) (List.append_nil _).symm
  | ok relationship =>
      simp only
      split
      · exact congrArg (_ :: relationshipsFrom plans · edges) (List.append_nil _).symm
      · rfl

theorem length_relationshipsFrom (plans : List Table) (earlier : List Relationship)
    (edges : List Edge) : (relationshipsFrom plans earlier edges).length = edges.length := by
  induction edges generalizing earlier with
  | nil => rfl
  | cons edge edges ih => rw [relationshipsFrom_cons, List.length_cons, List.length_cons, ih]

/-- The outcome at a position is that of its edge after the relationships in front of it. -/
theorem getElem?_relationshipsFrom (plans : List Table) (earlier : List Relationship)
    (edges : List Edge) (position : Nat) :
    (relationshipsFrom plans earlier edges)[position]? =
      edges[position]?.map (outcomeAfter plans
        (earlier ++ ((relationshipsFrom plans earlier edges).take position).filterMap
          Except.toOption)) := by
  induction edges generalizing earlier position with
  | nil => rfl
  | cons edge edges ih =>
      rw [relationshipsFrom_cons]
      cases position with
      | zero => simp
      | succ position =>
          rw [List.getElem?_cons_succ, List.getElem?_cons_succ, ih, List.take_succ_cons,
            List.append_assoc]
          congr 3
          cases outcomeAfter plans earlier edge <;> rfl

theorem edge_of_relationshipOf_eq_error {edge : Edge} {skipped : SkippedEdge}
    (failed : relationshipOf plans edge = .error skipped) : skipped.edge = edge := by
  rw [relationshipOf] at failed
  split at failed
  · cases failed
    rfl
  · split at failed
    · cases failed
      rfl
    · simp only at failed
      split at failed
      · split at failed <;> cases failed <;> rfl
      · split at failed <;> cases failed
        rfl

theorem edge_of_outcomeAfter_eq_error {edge : Edge} {skipped : SkippedEdge}
    (failed : outcomeAfter plans earlier edge = .error skipped) : skipped.edge = edge := by
  rw [outcomeAfter] at failed
  split at failed
  · next found =>
      cases failed
      exact edge_of_relationshipOf_eq_error found
  · split at failed <;> cases failed
    rfl

theorem outcomeAfter_eq_ok_iff {edge : Edge} {relationship : Relationship} :
    outcomeAfter plans earlier edge = .ok relationship ↔
      relationshipOf plans edge = .ok relationship ∧
        relationship.key ∉ earlier.map Relationship.key := by
  have taken (relationship : Relationship) : earlier.any (haveSameEnds relationship) = true ↔
      relationship.key ∈ earlier.map Relationship.key := by
    rw [List.any_eq_true, List.mem_map]
    exact exists_congr fun other =>
      and_congr_right fun _ => (haveSameEnds_iff _ _).trans eq_comm
  rw [outcomeAfter]
  cases relationshipOf plans edge with
  | error skipped => simp
  | ok found =>
      by_cases known : earlier.any (haveSameEnds found) = true
      · simp only [known, if_true, reduceCtorEq, Except.ok.injEq, false_iff, not_and, not_not]
        rintro rfl
        exact (taken found).mp known
      · simp only [known, Bool.false_eq_true, if_false, Except.ok.injEq, iff_self_and]
        rintro rfl
        exact fun inside => known ((taken found).mpr inside)

end Plan

namespace Generation

open Plan (Context SkippedEdge)
open Plan.Table (IsMet build)

/-! ## What an edge joins -/

/-- A chosen table with the given logical name. -/
def IsChosen (tables : List Catalog.Table) (logicalName : Text) (table : Catalog.Table) : Prop :=
  table ∈ tables ∧ Text.sameIgnoringCase table.logicalName logicalName = true

/-- The lookup of an edge whose key column is planned. -/
def HasIdColumn (context : Context) (edge : Edge) (table : Catalog.Table) (parent : Attribute) :
    Prop :=
  IsMet context table (.lookup parent .id) ∧
    Text.sameIgnoringCase parent.logicalName edge.sourceAttribute = true

/-- The columns that an edge joins: the one that comes from the key of its
lookup, and the only key of its target. -/
inductive Joins (context : Context) (tables : List Catalog.Table) (edge : Edge) :
    RelationshipKey -> Prop where
  | columns {source target : Catalog.Table} (sourceChosen : IsChosen tables edge.sourceTable source)
      (targetChosen : IsChosen tables edge.targetTable target) {parent : Attribute}
      (lookup : HasIdColumn context edge source parent) {column key : Plan.Column}
      (inside : column ∈ (build context source).columns)
      (fromParent : column.written.source = context.corrections.apply parent.logicalName)
      (single : (build context target).columns.filter (·.written.isKey) = [key]) :
      Joins context tables edge
        ⟨Name.columnReference source.modelName column.written.name,
          Name.columnReference target.modelName key.written.name⟩

section

variable {context : Context} {tables : List Catalog.Table} {edge : Edge}

/-- An edge joins columns if both tables are chosen and the key column of the
lookup is planned. -/
theorem exists_joins_iff :
    (∃ ends, Joins context tables edge ends) ↔
      ∃ source target, IsChosen tables edge.sourceTable source ∧
        IsChosen tables edge.targetTable target ∧
        ∃ parent, HasIdColumn context edge source parent := by
  constructor
  · rintro ⟨_, sourceChosen, targetChosen, lookup, _, _, _⟩
    exact ⟨_, _, sourceChosen, targetChosen, _, lookup⟩
  · rintro ⟨source, target, sourceChosen, targetChosen, parent, lookup⟩
    obtain ⟨column, inside, renamed⟩ :=
      (Plan.Table.follows_build context source).holds.ofOffer _ lookup.1
    have whole : Catalog.LookupColumn.id.source parent.logicalName = parent.logicalName :=
      List.append_nil _
    exact ⟨_, .columns sourceChosen targetChosen lookup inside
      (renamed.source.trans (congrArg context.corrections.apply whole))
      (Plan.Table.filter_isKey_build context target)⟩

/-- A table is found among the plans by its logical name. -/
theorem tableNamed?_eq_some_iff
    (distinct : (tables.map fun table => Text.lower table.logicalName).Nodup) {logicalName : Text}
    {plan : Plan.Table} :
    Plan.tableNamed? (tables.map (build context)) logicalName = some plan ↔
      ∃ table, IsChosen tables logicalName table ∧ plan = build context table := by
  have name (table : Catalog.Table) : (build context table).logicalName = table.logicalName :=
    (Plan.Table.isPlanned_build context table).logicalName
  constructor
  · intro found
    obtain ⟨table, inside, rfl⟩ := List.mem_map.mp (Plan.mem_of_tableNamed? found)
    have named := List.find?_some found
    rw [name] at named
    exact ⟨table, ⟨inside, named⟩, rfl⟩
  · rintro ⟨table, ⟨inside, named⟩, rfl⟩
    cases found : Plan.tableNamed? (tables.map (build context)) logicalName with
    | none =>
        have absent := List.find?_eq_none.mp found _ (List.mem_map_of_mem inside)
        rw [name] at absent
        exact absurd named absent
    | some other =>
        obtain ⟨table', inside', rfl⟩ := List.mem_map.mp (Plan.mem_of_tableNamed? found)
        have named' := List.find?_some found
        rw [name, Text.sameIgnoringCase_iff] at named'
        have same := List.inj_on_of_nodup_map distinct inside' inside
          (named'.trans (Text.sameIgnoringCase_iff.mp named).symm)
        rw [same]

/-- The relationship of an edge leads between the columns that the edge joins,
with the flags of the edge. -/
structure IsOfEdge (context : Context) (tables : List Catalog.Table) (edge : Edge)
    (relationship : Relationship) : Prop where
  joins : Joins context tables edge relationship.key
  isActive : relationship.isActive = edge.isActive
  isSnowflake : relationship.isSnowflake = edge.isSnowflake
  assumesIntegrity : relationship.assumesIntegrity = edge.assumesIntegrity

theorem relationshipOf_eq_ok_iff
    (distinct : (tables.map fun table => Text.lower table.logicalName).Nodup)
    {relationship : Relationship} :
    Plan.relationshipOf (tables.map (build context)) edge = .ok relationship ↔
      IsOfEdge context tables edge relationship := by
  have name (table : Catalog.Table) : (build context table).name = table.modelName :=
    (Plan.Table.isPlanned_build context table).name
  constructor
  · intro found
    rw [Plan.relationshipOf] at found
    split at found
    · cases found
    · next plan sourceFound =>
        obtain ⟨source, sourceChosen, rfl⟩ := (tableNamed?_eq_some_iff distinct).mp sourceFound
        split at found
        · cases found
        · next plan targetFound =>
            obtain ⟨target, targetChosen, rfl⟩ := (tableNamed?_eq_some_iff distinct).mp targetFound
            simp only [Plan.Table.keyColumn?_build] at found
            split at found
            · split at found <;> cases found
            · next column idFound =>
                obtain ⟨parent, met, named, column, inside, fromParent, rfl⟩ :=
                  Plan.Table.get?_idColumns_build_iff.mp idFound
                cases found
                refine ⟨?_, rfl, rfl, rfl⟩
                rw [name, name]
                exact .columns sourceChosen targetChosen ⟨met, named⟩ inside fromParent
                  (Plan.Table.filter_isKey_build context target)
  · rintro ⟨joins, isActive, isSnowflake, assumesIntegrity⟩
    generalize ends : relationship.key = key at joins
    obtain ⟨sourceChosen, targetChosen, lookup, inside, fromParent, single⟩ := joins
    rw [Plan.Table.filter_isKey_build, List.singleton_inj] at single
    rw [Plan.relationshipOf, (tableNamed?_eq_some_iff distinct).mpr ⟨_, sourceChosen, rfl⟩]
    simp only [(tableNamed?_eq_some_iff distinct).mpr ⟨_, targetChosen, rfl⟩,
      Plan.Table.get?_idColumns_build_iff.mpr ⟨_, lookup.1, lookup.2, _, inside, fromParent, rfl⟩,
      Plan.Table.keyColumn?_build, name]
    cases relationship
    cases isActive
    cases isSnowflake
    cases assumesIntegrity
    cases ends
    cases single
    rfl

/-- What an edge joins is what its relationship leads between. -/
theorem exists_relationshipOf_of_joins
    (distinct : (tables.map fun table => Text.lower table.logicalName).Nodup)
    {ends : RelationshipKey} (joins : Joins context tables edge ends) :
    ∃ relationship, Plan.relationshipOf (tables.map (build context)) edge = .ok relationship ∧
      relationship.key = ends :=
  ⟨⟨ends.source, ends.target, edge.isActive, edge.isSnowflake, edge.assumesIntegrity⟩,
    (relationshipOf_eq_ok_iff distinct).mpr ⟨joins, rfl, rfl, rfl⟩, rfl⟩

/-! ## What becomes of an edge -/

/-- An edge becomes its relationship or is reported. It is a relationship if both
tables are chosen, the key column of its lookup is planned and no earlier edge
has the same ends. -/
structure IsSettled (context : Context) (tables : List Catalog.Table)
    (earlier : List (Except SkippedEdge Relationship)) (edge : Edge)
    (outcome : Except SkippedEdge Relationship) : Prop where
  ofEdge : ∀ relationship, outcome = .ok relationship -> IsOfEdge context tables edge relationship
  reported : ∀ skipped, outcome = .error skipped -> skipped.edge = edge
  isRelationship : (∃ relationship, outcome = .ok relationship) ↔
    (∃ source target, IsChosen tables edge.sourceTable source ∧
      IsChosen tables edge.targetTable target ∧
      ∃ parent, HasIdColumn context edge source parent) ∧
    ∀ ends, Joins context tables edge ends ->
      ∀ other, .ok other ∈ earlier -> Relationship.key other ≠ ends

/-- One relationship leads from the field of the calendar to its days, if there
is a calendar. -/
def LeadsToCalendar (context : Context) (tables : List Catalog.Table) :
    Option Calendar -> List Relationship -> Prop
  | none, toCalendar => toCalendar = []
  | some calendar, toCalendar =>
      ∃ table column, IsChosen tables calendar.table table ∧
        column ∈ (build context table).columns ∧
        Text.sameIgnoringCase column.written.source calendar.field = true ∧
        toCalendar = [.plain (Name.columnReference table.modelName column.written.name)
          (Name.columnReference "Date" "Date")]

theorem mem_keys_iff {earlier : List (Except SkippedEdge Relationship)} {key : RelationshipKey} :
    key ∈ (earlier.filterMap Except.toOption).map Relationship.key ↔
      ∃ other, .ok other ∈ earlier ∧ Relationship.key other = key := by
  rw [List.mem_map]
  refine exists_congr fun other => and_congr_left fun _ => ?_
  rw [List.mem_filterMap]
  constructor
  · rintro ⟨outcome, inside, found⟩
    rwa [eq_ok_of_toOption found] at inside
  · exact fun inside => ⟨_, inside, rfl⟩

theorem isSettled_outcomeAfter
    (distinct : (tables.map fun table => Text.lower table.logicalName).Nodup)
    (earlier : List (Except SkippedEdge Relationship)) (edge : Edge) :
    IsSettled context tables earlier edge (Plan.outcomeAfter (tables.map (build context))
      (earlier.filterMap Except.toOption) edge) := by
  refine ⟨?_, fun skipped => Plan.edge_of_outcomeAfter_eq_error, ?_⟩
  · intro relationship found
    exact (relationshipOf_eq_ok_iff distinct).mp (Plan.outcomeAfter_eq_ok_iff.mp found).1
  · rw [← exists_joins_iff]
    constructor
    · rintro ⟨relationship, found⟩
      obtain ⟨ofEdge, new⟩ := Plan.outcomeAfter_eq_ok_iff.mp found
      refine ⟨⟨_, ((relationshipOf_eq_ok_iff distinct).mp ofEdge).joins⟩, ?_⟩
      rintro ends joins other inside rfl
      obtain ⟨same, found, ends⟩ := exists_relationshipOf_of_joins distinct joins
      rw [ofEdge] at found
      cases found
      exact new (mem_keys_iff.mpr ⟨other, inside, ends.symm⟩)
    · rintro ⟨⟨ends, joins⟩, new⟩
      obtain ⟨relationship, found, rfl⟩ := exists_relationshipOf_of_joins distinct joins
      refine ⟨relationship, Plan.outcomeAfter_eq_ok_iff.mpr ⟨found, fun old => ?_⟩⟩
      obtain ⟨other, inside, same⟩ := mem_keys_iff.mp old
      exact new _ joins other inside same

theorem leadsToCalendar_of_calendarRelationships
    (distinct : (tables.map fun table => Text.lower table.logicalName).Nodup)
    {calendar : Option Calendar} {toCalendar : List Relationship}
    (found : calendarRelationships (tables.map (build context)) calendar = .ok toCalendar) :
    LeadsToCalendar context tables calendar toCalendar := by
  cases calendar with
  | none =>
      cases found
      rfl
  | some calendar =>
      rw [calendarRelationships, calendarEnd] at found
      split at found
      · cases found
      · next plan planFound =>
          obtain ⟨table, chosen, rfl⟩ := (tableNamed?_eq_some_iff distinct).mp planFound
          split at found
          · cases found
          · next name columnFound =>
              cases found
              obtain ⟨column, first, rfl⟩ := Option.map_eq_some_iff.mp columnFound
              have fromField := List.find?_some first
              refine ⟨table, column, chosen, List.mem_of_find?_eq_some first, fromField, ?_⟩
              rw [(Plan.Table.isPlanned_build context table).name]
              rfl

end

/-! ## All edges -/

/-- The edge of a diagnostic about a skipped relationship, with the reason. -/
def Diagnostic.skippedEdge? (diagnostic : Diagnostic) : Option SkippedEdge :=
  match diagnostic.finding with
  | .skippedRelationship edge problem => some ⟨edge, diagnostic.table, problem⟩
  | _ => none

/-- Each edge has an outcome, in order: the relationships among the outcomes are
written, in front of the one to the calendar, and the others are reported. -/
structure AccountsForEdges (options : Options) (supply : Supply) (selection : Selection)
    (output : Output) (outcomes : List (Except SkippedEdge Relationship))
    (toCalendar : List Relationship) : Prop where
  length : outcomes.length = selection.edges.length
  settled : ∀ position edge outcome, selection.edges[position]? = some edge ->
    outcomes[position]? = some outcome ->
      IsSettled (context options selection) selection.tables (outcomes.take position) edge outcome
  distinct : ((outcomes.filterMap Except.toOption).map Relationship.key).Nodup
  calendar : LeadsToCalendar (context options selection) selection.tables selection.calendar
    toCalendar
  written : output.definitions.get? Path.relationships =
    if (outcomes.filterMap Except.toOption ++ toCalendar).isEmpty then none
    else some (Line.fileText (relationshipLines supply
      (outcomes.filterMap Except.toOption ++ toCalendar)))
  reported : output.diagnostics.filterMap Diagnostic.skippedEdge? = outcomes.filterMap fun
    | .ok _ => none
    | .error skipped => some skipped

theorem skippedEdge?_of_mem_tableDiagnostics {options : Options} {plan : Plan.Table}
    {diagnostic : Diagnostic} (member : diagnostic ∈ tableDiagnostics options plan) :
    diagnostic.skippedEdge? = none := by
  obtain ⟨finding, inside, rfl⟩ := List.mem_map.mp member
  rcases List.mem_append.mp inside with first | query
  · rcases List.mem_append.mp first with filter | column
    · rw [filterFindings] at filter
      split at filter
      · split at filter
        · cases filter
        · rw [List.mem_singleton.mp filter]
          rfl
      · cases filter
    · obtain ⟨source, _, rfl⟩ := List.mem_map.mp column
      rfl
  · rw [queryFindings] at query
    split at query
    · rw [Option.mem_toList, Option.map_eq_some_iff] at query
      obtain ⟨fault, _, rfl⟩ := query
      rfl
    · cases query

theorem filterMap_skippedEdge? (options : Options) (planned : List Plan.Table)
    (outcomes : List (Except SkippedEdge Relationship)) :
    (planned.flatMap (tableDiagnostics options) ++
        outcomes.filterMap skippedDiagnostic?).filterMap Diagnostic.skippedEdge? =
      outcomes.filterMap fun
        | .ok _ => none
        | .error skipped => some skipped := by
  have others : (planned.flatMap (tableDiagnostics options)).filterMap
      Diagnostic.skippedEdge? = [] := by
    rw [List.filterMap_eq_nil_iff]
    intro diagnostic member
    obtain ⟨plan, _, inside⟩ := List.mem_flatMap.mp member
    exact skippedEdge?_of_mem_tableDiagnostics inside
  rw [List.filterMap_append, others, List.nil_append, List.filterMap_filterMap]
  refine List.filterMap_congr fun outcome _ => ?_
  cases outcome <;> rfl

/-! ## Edges of a generation -/

/-- The parts of a generation that succeeds. -/
theorem exists_toCalendar_of_generate {options : Options} {supply : Supply}
    {selection : Selection} {output : Output}
    (generated : generate options supply selection = .ok output) :
    ∃ toCalendar,
      calendarRelationships (plans options selection) selection.calendar = .ok toCalendar ∧
      IsGenerated options supply selection
        ((Plan.ofEdges (plans options selection) selection.edges).filterMap Except.toOption ++
          toCalendar) output ∧
      output.diagnostics = (plans options selection).flatMap (tableDiagnostics options) ++
        (Plan.ofEdges (plans options selection) selection.edges).filterMap skippedDiagnostic? := by
  rw [generate] at generated
  cases checked : check options selection with
  | error fault =>
      rw [checked] at generated
      cases generated
  | ok done =>
      rw [checked] at generated
      cases found : calendarRelationships (plans options selection) selection.calendar with
      | error fault =>
          simp only [found] at generated
          cases generated
      | ok toCalendar =>
          simp only [found] at generated
          cases generated
          exact ⟨toCalendar, rfl, ⟨checked, ⟨toCalendar, found, rfl⟩, rfl⟩, rfl⟩

/-- Every edge of an accepted selection is accounted for, and so is its calendar. -/
theorem generate_accountsForEdges {options : Options} {supply : Supply} {selection : Selection}
    {output : Output} (generated : generate options supply selection = .ok output) :
    ∃ outcomes toCalendar,
      AccountsForEdges options supply selection output outcomes toCalendar := by
  obtain ⟨toCalendar, found, isGenerated, diagnostics⟩ := exists_toCalendar_of_generate generated
  have distinct := (areDistinct_of_check isGenerated.checked).distinctNames
  refine ⟨Plan.ofEdges (plans options selection) selection.edges, toCalendar, ?_, ?_, ?_, ?_, ?_, ?_⟩
  · exact Plan.length_relationshipsFrom _ _ _
  · intro position edge outcome edgeFound outcomeFound
    rw [Plan.ofEdges, Plan.getElem?_relationshipsFrom, edgeFound, Option.map_some,
      Option.some.injEq] at outcomeFound
    rw [← outcomeFound]
    exact isSettled_outcomeAfter distinct _ edge
  · exact (Plan.arePlanned_relationshipsFrom _ _ []).distinct
  · exact leadsToCalendar_of_calendarRelationships distinct found
  · exact isGenerated.get?_relationships
  · rw [diagnostics]
    exact filterMap_skippedEdge? options _ _

/-- An edge beside its repetition in other letters, one to a table that is not
chosen, and one from a lookup whose key column is excluded. The name of the first
lookup is also that of an attribute that is shown before it. -/
theorem generate_accountsForEdges_mixed :
    let selection : Selection :=
      { modelName := "Sales"
        tables :=
          [{ Catalog.Table.plain "salesorder" "salesorderid" with
              role := .fact
              attributes :=
                [⟨"amount", some "customerid", .decimal, [], none⟩,
                  ⟨"customerid", some "Customer", .lookup, ["account"], none⟩,
                  ⟨"payerid", some "Payer", .lookup, ["account"], none⟩,
                  ⟨"createdon", some "Created", .dateTime, [], none⟩]
              lookups := .ofList [("payerid", { Catalog.LookupSettings.unset with
                id := ⟨some false, none⟩ })] },
            Catalog.Table.plain "account" "accountid"]
        edges :=
          [.plain "salesorder" "customerid" "account",
            { Catalog.Edge.plain "SalesOrder" "CustomerId" "Account" with isActive := false },
            .plain "salesorder" "customerid" "contact", .plain "salesorder" "payerid" "account"]
        calendar := some ⟨2020, 2021, 0, "salesorder", "createdon"⟩ }
    let options : Options := { Options.standard with checksQueries := false }
    let supply : Supply := fun _ => "tag"
    ∃ output outcomes toCalendar, generate options supply selection = .ok output ∧
      (output.diagnostics.filterMap Diagnostic.skippedEdge?).map (·.problem) =
        [.duplicate, .targetNotSelected, .idExcluded] ∧
      AccountsForEdges options supply selection output outcomes toCalendar := by
  intro selection options supply
  have found : (generate options supply selection).toOption.map (fun output =>
      (output.diagnostics.filterMap Diagnostic.skippedEdge?).map (·.problem)) =
        some [.duplicate, .targetNotSelected, .idExcluded] := by
    decide +kernel
  obtain ⟨output, accepted, problems⟩ := Option.map_eq_some_iff.mp found
  have generated := eq_ok_of_toOption accepted
  obtain ⟨outcomes, toCalendar, accounts⟩ := generate_accountsForEdges generated
  exact ⟨output, outcomes, toCalendar, generated, problems, accounts⟩

end Generation

end TabularModel
