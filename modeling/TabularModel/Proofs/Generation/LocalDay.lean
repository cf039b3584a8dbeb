import TabularModel.Proofs.Generation.Paths
import TabularModel.Proofs.Generation.Projection

/-!
# The calendar and local days

The calendar has one row for each day, and its relationship starts at the column that
comes from the field of the calendar, whatever that column is planned for. Only the own
column of an attribute that is no choice holds local days. Any other column from the
field, be it the key of the table, a column of a lookup or the labels of a choice, is
joined as it is stored.
-/

set_option autoImplicit false

namespace TabularModel

open Catalog (Attribute Calendar Selection)

namespace Plan

open Sql (identifier lexemes selectList? terms)
open Table (attributeColumn build isCalendarField Renamed selectColumn)

/-- The attribute of a table whose days are joined to the calendar: the calendar names it,
it is no choice, and no offer before it comes from its column. -/
structure IsDayField (context : Context) (calendar : Calendar) (table : Catalog.Table)
    (attr : Attribute) : Prop where
  named : isCalendarField calendar table attr = true
  noChoice : attr.type.isChoice = false
  met : Table.IsMet context table (.standalone attr)

/-- A column of the days on which the moments of a stored column fall in local time. -/
structure Column.IsLocalDay (calendar : Calendar) (stored : Text) (column : Column) : Prop where
  source : column.written.source = stored
  dataType : column.written.dataType = .dateTime
  format : column.written.format = some "Short Date"
  projection : column.projection = .localDay (Table.localDay calendar.offsetHours stored)

/-- A planned column has the given entry in the select list of its query. -/
def Table.Lists (plan : Table) (column : Column) (entry : Text) : Prop :=
  ∃ (position : Nat) (entries : List (List Sql.Term)),
    plan.columns[position]? = some column ∧
    selectList? plan.query.render = some entries ∧
    entries[position]? = some (terms (lexemes entry))

variable {context : Context} {calendar : Calendar} {table : Catalog.Table}
variable {column own : Column} {attr : Attribute} {stored : Text}

/-! ## Planned days -/

theorem isLocalDay_attributeColumn (configured : context.calendar = some calendar)
    (named : isCalendarField calendar table attr = true) (noChoice : attr.type.isChoice = false) :
    (attributeColumn context table attr).IsLocalDay calendar attr.logicalName := by
  rw [attributeColumn, noChoice, if_neg Bool.false_ne_true, configured]
  simp only
  rw [if_pos named]
  exact ⟨rfl, rfl, rfl, rfl⟩

/-- An attribute is shown by days only if it is one that the calendar names. -/
theorem named_of_attributeColumn_ne_source (configured : context.calendar = some calendar)
    (shown : (attributeColumn context table attr).projection ≠ .source) :
    isCalendarField calendar table attr = true ∧ attr.type.isChoice = false := by
  rw [attributeColumn, configured] at shown
  split at shown
  · exact absurd rfl shown
  · next noChoice =>
      simp only at shown
      split at shown
      · next named => exact ⟨named, Bool.not_eq_true _ ▸ noChoice⟩
      · exact absurd rfl shown

theorem Column.IsLocalDay.renamed (day : own.IsLocalDay calendar stored)
    (renamed : Renamed own column) : column.IsLocalDay calendar stored := by
  cases renamed with
  | same => exact day
  | sourced => exact ⟨day.source, day.dataType, day.format, day.projection⟩

theorem Table.Renamed.projection (renamed : Renamed own column) :
    column.projection = own.projection := by
  cases renamed <;> rfl

/-- The column from the field of the calendar holds days if that field has a column of its
own. -/
theorem IsDayField.isLocalDay (isField : IsDayField context calendar table attr)
    (configured : context.calendar = some calendar)
    (inside : column ∈ (build context table).columns)
    (fromField : Text.sameIgnoringCase column.written.source calendar.field = true) :
    column.IsLocalDay calendar attr.logicalName := by
  obtain ⟨planned, member, renamed⟩ :=
    (Table.follows_build context table).holds.ofOffer _ isField.met
  have day : planned.IsLocalDay calendar attr.logicalName :=
    (isLocalDay_attributeColumn configured isField.named isField.noChoice).renamed renamed
  have same : planned = column := by
    refine Table.eq_of_sameIgnoringCase member inside (Text.sameIgnoringCase_iff.mpr ?_)
    have named := (Bool.and_eq_true_iff.mp isField.named).2
    rw [day.source, Text.sameIgnoringCase_iff.mp fromField, Text.sameIgnoringCase_iff.mp named]
  exact same ▸ day

/-- A planned column that is not given as it is stored is that of such a field. -/
theorem exists_isDayField_of_ne_source (configured : context.calendar = some calendar)
    (inside : column ∈ (build context table).columns) (shown : column.projection ≠ .source) :
    ∃ attr, IsDayField context calendar table attr := by
  obtain ⟨offer, met, renamed⟩ := (Table.follows_build context table).holds.ofColumn column inside
  rw [renamed.projection] at shown
  cases offer with
  | key => exact absurd rfl shown
  | lookup parent column => exact absurd rfl shown
  | standalone attr =>
      obtain ⟨named, noChoice⟩ := named_of_attributeColumn_ne_source configured shown
      exact ⟨attr, named, noChoice, met⟩

/-! ## Days in the query and in the file -/

/-- The query of a table gives a planned column in the way that the plan says. -/
theorem Table.lists_of_mem_build (inside : column ∈ (build context table).columns) :
    (build context table).Lists column (selectColumn column).render := by
  obtain ⟨position, found⟩ := List.getElem?_of_mem inside
  refine ⟨position, _, found, Table.selectList?_query context table, ?_⟩
  have sound := Table.isSound_selectColumn (Table.isProjected_of_mem_build inside)
  have read := Sql.Spells.lexemes_eq (Sql.SelectColumn.writes sound)
  rw [List.getElem?_map, found, Option.map_some, read, Sql.termsOf]

/-- A column of days is given under the name of the stored column. -/
theorem Column.IsLocalDay.render_selectColumn (day : column.IsLocalDay calendar stored) :
    (selectColumn column).render =
      (Table.localDay calendar.offsetHours stored).render ++ " AS " ++ identifier stored := by
  rw [selectColumn, day.projection, day.source]
  rfl

/-- The lines of a column of days. -/
theorem Column.IsLocalDay.lines_written (day : column.IsLocalDay calendar stored) (tag : Text) :
    ∃ rest, column.written.lines tag =
      line ("column " ++ Name.written column.written.name) ::
        Line.nested (line "dataType: dateTime" :: line "formatString: Short Date" :: rest) := by
  rw [Definition.Column.lines, day.dataType, day.format]
  exact ⟨_, rfl⟩

/-- The lines of a planned column stand together in the file of its table. -/
theorem Table.nested_lines_isInfix {plan : Table} (inside : column ∈ plan.columns)
    (connection : Catalog.Connection) (mode : Catalog.StorageMode)
    (tag : Definition.Member -> Text) :
    Line.nested (column.written.lines (tag (.column column.written.source))) <:+:
      plan.lines connection mode tag := by
  have among : column.written.lines (tag (.column column.written.source)) <:+:
      plan.columns.flatMap fun column =>
        column.written.lines (tag (.column column.written.source)) :=
    List.infix_of_mem_flatten (List.mem_map_of_mem inside)
  rw [Table.lines]
  refine List.IsInfix.trans ?_ (List.suffix_cons _ _).isInfix
  refine List.IsInfix.map (Line.deeper 1) (among.trans ?_)
  exact (List.infix_append _ _ _).trans (List.prefix_append _ _).isInfix

end Plan

namespace Generation

open Plan (IsDayField)
open Plan.Table (build)

/-- The relationship to the calendar is the last one. It starts at a planned column that
comes from the field of the calendar, and that column is declared in the file of its table. -/
structure JoinsCalendar (options : Options) (supply : Supply) (selection : Selection)
    (output : Output) (calendar : Calendar) (table : Catalog.Table) (column : Plan.Column) :
    Prop where
  chosen : IsChosen selection.tables calendar.table table
  planned : column ∈ (build (context options selection) table).columns
  fromField : Text.sameIgnoringCase column.written.source calendar.field = true
  relationship : ∃ earlier, output.definitions.get? Path.relationships =
    some (Line.fileText (relationshipLines supply (earlier ++
      [.plain (Name.columnReference table.modelName column.written.name)
        (Name.columnReference "Date" "Date")])))
  file : output.definitions.get? (Path.table table.modelName) =
    some ((build (context options selection) table).text options.connection options.mode
      fun member => supply (.member table.logicalName member))
  declared : Line.nested (column.written.lines
      (supply (.member table.logicalName (.column column.written.source)))) <:+:
    (build (context options selection) table).lines options.connection options.mode
      fun member => supply (.member table.logicalName member)

/-- A column gives local days: the query of its table gives them under the name of the
attribute, and the file of the table declares them as dates. -/
structure GivesDays (calendar : Calendar) (attr : Attribute) (plan : Plan.Table)
    (column : Plan.Column) : Prop where
  isDay : column.IsLocalDay calendar attr.logicalName
  listed : plan.Lists column ((Plan.Table.localDay calendar.offsetHours attr.logicalName).render ++
    " AS " ++ Sql.identifier attr.logicalName)
  typed : ∀ tag, ∃ rest, column.written.lines tag =
    line ("column " ++ Name.written column.written.name) ::
      Line.nested (line "dataType: dateTime" :: line "formatString: Short Date" :: rest)

/-- A column is given as it is stored. -/
structure GivesStored (plan : Plan.Table) (column : Plan.Column) : Prop where
  isStored : column.projection = .source
  listed : plan.Lists column (Sql.Expression.column Plan.baseAlias column.written.source).render

variable {options : Options} {supply : Supply} {selection : Selection} {output : Output}
variable {calendar : Calendar}

/-- The calendar of an accepted selection is joined to a column from its field. -/
theorem exists_joinsCalendar (generated : generate options supply selection = .ok output)
    (configured : selection.calendar = some calendar) :
    ∃ table column, JoinsCalendar options supply selection output calendar table column := by
  obtain ⟨toCalendar, found, isGenerated, -⟩ := exists_toCalendar_of_generate generated
  have distinct := (areDistinct_of_check isGenerated.checked).distinctNames
  have leads := leadsToCalendar_of_calendarRelationships distinct found
  rw [configured] at leads
  obtain ⟨table, column, chosen, inside, fromField, rfl⟩ := leads
  have relationships := isGenerated.get?_relationships
  rw [if_neg (by simp)] at relationships
  have declared := Plan.Table.nested_lines_isInfix inside options.connection options.mode
    fun member => supply (.member table.logicalName member)
  exact ⟨table, column, chosen, inside, fromField, ⟨_, relationships⟩,
    isGenerated.hasOwnFiles.ofTable table chosen.1, declared⟩

theorem givesStored_of_projection {context : Plan.Context} {table : Catalog.Table}
    {column : Plan.Column} (inside : column ∈ (build context table).columns)
    (stored : column.projection = .source) : GivesStored (build context table) column := by
  have listed := Plan.Table.lists_of_mem_build inside
  rw [Plan.Table.selectColumn, stored] at listed
  exact ⟨stored, listed⟩

/-- The calendar is joined to the column from its field. That column gives local days if the
field is an attribute with a column of its own. If there is no such attribute, the column is
given as it is stored, and the selection is accepted all the same. -/
theorem generate_joinsLocalDay (generated : generate options supply selection = .ok output)
    (configured : selection.calendar = some calendar) :
    ∃ table column, JoinsCalendar options supply selection output calendar table column ∧
      (∀ attr, IsDayField (context options selection) calendar table attr ->
        GivesDays calendar attr (build (context options selection) table) column) ∧
      ((∀ attr, ¬ IsDayField (context options selection) calendar table attr) ->
        GivesStored (build (context options selection) table) column) := by
  obtain ⟨table, column, joins⟩ := exists_joinsCalendar generated configured
  refine ⟨table, column, joins, fun attr isField => ?_, fun none => ?_⟩
  · have day := isField.isLocalDay configured joins.planned joins.fromField
    have listed := Plan.Table.lists_of_mem_build joins.planned
    rw [day.render_selectColumn] at listed
    exact ⟨day, listed, day.lines_written⟩
  · refine givesStored_of_projection joins.planned ?_
    by_contra shown
    obtain ⟨attr, isField⟩ := Plan.exists_isDayField_of_ne_source configured joins.planned shown
    exact none attr isField

/-- A calendar that names its table and its field in other letters. -/
theorem generate_joinsLocalDay_created :
    let created : Attribute := ⟨"createdon", some "Created", .dateTime, [], none⟩
    let state : Attribute := ⟨"statecode", some "Status", .state, [], none⟩
    let table : Catalog.Table :=
      { Catalog.Table.plain "account" "accountid" with attributes := [state, created] }
    let calendar : Calendar := ⟨2020, 2021, -6, "Account", "CreatedOn"⟩
    let selection : Selection :=
      { modelName := "Sales", tables := [table], edges := [], calendar := some calendar }
    let options : Options := { Options.standard with checksQueries := false }
    let supply : Supply := fun _ => "tag"
    ∃ output column, generate options supply selection = .ok output ∧
      JoinsCalendar options supply selection output calendar table column ∧
      GivesDays calendar created (build (context options selection) table) column := by
  intro created state table calendar selection options supply
  have accepted : (generate options supply selection).toOption.isSome = true := by decide +kernel
  obtain ⟨output, found⟩ := Option.isSome_iff_exists.mp accepted
  have generated := eq_ok_of_toOption found
  obtain ⟨own, column, joins, days, -⟩ := generate_joinsLocalDay generated rfl
  have same : own = table := List.mem_singleton.mp joins.chosen.1
  subst same
  have isField : IsDayField (context options selection) calendar table created :=
    ⟨by decide +kernel, rfl, [.key, .standalone state], [], rfl, by decide +kernel⟩
  exact ⟨output, column, generated, joins, days created isField⟩

/-- The labels of a choice are joined to the calendar, as the texts that they are. -/
theorem generate_joinsLabels :
    let table : Catalog.Table :=
      { Catalog.Table.plain "account" "accountid" with
        attributes := [⟨"statecode", some "Status", .state, [], none⟩] }
    let calendar : Calendar := ⟨2024, 2024, -6, "account", "statecodename"⟩
    let selection : Selection :=
      { modelName := "Sales", tables := [table], edges := [], calendar := some calendar }
    let options : Options := { Options.standard with checksQueries := false }
    let supply : Supply := fun _ => "tag"
    ∃ output column, generate options supply selection = .ok output ∧
      JoinsCalendar options supply selection output calendar table column ∧
      GivesStored (build (context options selection) table) column ∧
      column.written.dataType = .string := by
  intro table calendar selection options supply
  have accepted : (generate options supply selection).toOption.isSome = true := by decide +kernel
  obtain ⟨output, found⟩ := Option.isSome_iff_exists.mp accepted
  have generated := eq_ok_of_toOption found
  obtain ⟨own, column, joins⟩ := exists_joinsCalendar generated rfl
  have same : own = table := List.mem_singleton.mp joins.chosen.1
  subst same
  have text : ∀ column ∈ (build (context options selection) table).columns,
      column.projection = .source ∧ column.written.dataType = .string := by decide +kernel
  obtain ⟨stored, isText⟩ := text column joins.planned
  exact ⟨output, column, generated, joins, givesStored_of_projection joins.planned stored, isText⟩

end Generation

end TabularModel
