import TabularModel.Proofs.Generation.Files
import TabularModel.Proofs.Plan.Relationships
import TabularModel.Proofs.Prior.RelationshipFile

/-!
# Names that are found again

Names that stand on one line are written so that they can be read. Logical names
and columns of the row source are found again besides if there are no blanks
around them. Under such names everything that a generation writes can be told
apart: the columns of a table by their sources, tables by their logical names and
by their paths, and relationships by their ends.
-/

set_option autoImplicit false

namespace TabularModel

open Catalog (Selection)

/-! ## Names of columns -/

namespace Catalog

/-- The names of a table that are written into its file. -/
structure Table.HasStableNames (table : Table) : Prop where
  modelName : Text.IsSingleLine table.modelName
  logicalName : Text.IsTrimmed table.logicalName ∧ Text.IsSingleLine table.logicalName
  primaryKey : Text.IsTrimmed table.primaryKey ∧ Text.IsSingleLine table.primaryKey
  attributes : ∀ attr ∈ table.attributes,
    (Text.IsTrimmed attr.logicalName ∧ Text.IsSingleLine attr.logicalName) ∧
      Text.IsSingleLine (table.nameOf attr)

instance (table : Table) : Decidable table.HasStableNames :=
  decidable_of_iff (Text.IsSingleLine table.modelName ∧
      (Text.IsTrimmed table.logicalName ∧ Text.IsSingleLine table.logicalName) ∧
      (Text.IsTrimmed table.primaryKey ∧ Text.IsSingleLine table.primaryKey) ∧
      ∀ attr ∈ table.attributes,
        (Text.IsTrimmed attr.logicalName ∧ Text.IsSingleLine attr.logicalName) ∧
          Text.IsSingleLine (table.nameOf attr))
    ⟨fun all => ⟨all.1, all.2.1, all.2.2.1, all.2.2.2⟩,
      fun all => ⟨all.modelName, all.logicalName, all.primaryKey, all.attributes⟩⟩

theorem isTrimmed_append {text suffix : Text} (trimmed : Text.IsTrimmed text ∧ Text.IsSingleLine text)
    (visible : HasVisibleEnds suffix) (single : Text.IsSingleLine suffix) :
    Text.IsTrimmed (text ++ suffix) ∧ Text.IsSingleLine (text ++ suffix) := by
  refine ⟨?_, Text.isSingleLine_append.mpr ⟨trimmed.2, single⟩⟩
  by_cases none : text = []
  · rw [none]
    exact visible.isTrimmed
  · exact ((HasVisibleEnds.of_isTrimmed trimmed.1 none).append visible.last).isTrimmed

theorem isTrimmed_source {lookup : Text}
    (trimmed : Text.IsTrimmed lookup ∧ Text.IsSingleLine lookup) (column : LookupColumn) :
    Text.IsTrimmed (column.source lookup) ∧ Text.IsSingleLine (column.source lookup) := by
  rw [LookupColumn.source]
  cases column with
  | id =>
      have whole : lookup ++ LookupColumn.id.suffix = lookup := List.append_nil _
      rw [whole]
      exact trimmed
  | name => exact isTrimmed_append trimmed (.of_isTrimmed (by decide) (by decide)) (by decide)
  | kind => exact isTrimmed_append trimmed (.of_isTrimmed (by decide) (by decide)) (by decide)
  | phonetic => exact isTrimmed_append trimmed (.of_isTrimmed (by decide) (by decide)) (by decide)

end Catalog

/-- The corrected names stand on one line without blanks around them. -/
def Corrections.AreStable (corrections : Corrections) : Prop :=
  ∀ entry ∈ corrections.entries, Text.IsTrimmed entry.2 ∧ Text.IsSingleLine entry.2

instance (corrections : Corrections) : Decidable corrections.AreStable :=
  inferInstanceAs (Decidable (∀ entry ∈ corrections.entries, _))

theorem Corrections.isTrimmed_apply {corrections : Corrections} (stable : corrections.AreStable)
    {column : Text} (trimmed : Text.IsTrimmed column ∧ Text.IsSingleLine column) :
    Text.IsTrimmed (corrections.apply column) ∧ Text.IsSingleLine (corrections.apply column) := by
  rw [Corrections.apply]
  cases found : corrections.get? (Text.lower column) with
  | none => exact trimmed
  | some actual => exact stable _ (SortedMap.mem_of_get? found)

namespace Plan.Table

variable {context : Context} {table : Catalog.Table}

/-- The name and the source of an offered column. -/
theorem isTrimmed_of_offered (names : table.HasStableNames) (stable : context.corrections.AreStable)
    {column : Column} (offered : Offered context table column) :
    Text.IsSingleLine column.written.name ∧ Text.IsTrimmed column.written.source ∧
      Text.IsSingleLine column.written.source := by
  cases offered with
  | ofKey => exact ⟨names.primaryKey.2, names.primaryKey⟩
  | ofAttribute attr member =>
      obtain ⟨own, display⟩ := names.attributes attr member
      rw [attributeColumn]
      split
      · exact ⟨display, Corrections.isTrimmed_apply stable (Catalog.isTrimmed_append own
          (.of_isTrimmed (by decide) (by decide)) (by decide))⟩
      · split
        · split
          · exact ⟨display, own⟩
          · exact ⟨display, Corrections.isTrimmed_apply stable own⟩
        · exact ⟨display, Corrections.isTrimmed_apply stable own⟩
  | ofLookup parent member column hidden =>
      obtain ⟨own, display⟩ := names.attributes parent member
      refine ⟨?_, Corrections.isTrimmed_apply stable (Catalog.isTrimmed_source own column)⟩
      cases column with
      | id => exact own.2
      | name => exact display
      | kind => exact Text.isSingleLine_append.mpr ⟨display, by decide⟩
      | phonetic => exact Text.isSingleLine_append.mpr ⟨display, by decide⟩

/-- The same of a planned column. -/
theorem isTrimmed_of_mem_build (names : table.HasStableNames)
    (stable : context.corrections.AreStable) {column : Column}
    (member : column ∈ (build context table).columns) :
    Text.IsSingleLine column.written.name ∧ Text.IsSingleLine column.written.source ∧
      column.written.HasTrimmedLines := by
  have format : ∀ text ∈ column.written.format, Text.IsTrimmed text :=
    fun text inside => (isTrimmed_format_of_mem_build member text inside).1
  obtain ⟨own, offered, renamed⟩ := (isPlanned_build context table).offered column member
  obtain ⟨name, trimmed, source⟩ := isTrimmed_of_offered names stable offered
  cases renamed with
  | same => exact ⟨name, source, trimmed, format⟩
  | sourced =>
      refine ⟨?_, source, trimmed, format⟩
      simp only [Text.isSingleLine_append]
      exact ⟨⟨⟨name, by decide⟩, source⟩, by decide⟩

theorem hasSingleLines_build (names : table.HasStableNames)
    (stable : context.corrections.AreStable) : (build context table).HasSingleLines := by
  have planned := isPlanned_build context table
  refine ⟨planned.name ▸ names.modelName, planned.logicalName ▸ names.logicalName.2, ?_⟩
  intro column member
  obtain ⟨name, source, _⟩ := isTrimmed_of_mem_build names stable member
  exact ⟨name, source⟩

/-- Planned columns come from different columns of the row source. -/
theorem hasDistinctSources_outline (names : table.HasStableNames)
    (stable : context.corrections.AreStable) (connection : Catalog.Connection)
    (mode : Catalog.StorageMode) :
    ((build context table).outline connection mode).HasDistinctSources := by
  have whole {column : Column} (member : column ∈ (build context table).columns) :
      Text.trim column.written.source = column.written.source :=
    (isTrimmed_of_mem_build names stable member).2.2.source
  refine List.pairwise_map.mpr ((isPlanned_build context table).sources.imp_of_mem ?_)
  intro left right leftMember rightMember different same
  rw [whole leftMember, whole rightMember] at same
  rw [same, Text.sameIgnoringCase, beq_self_eq_true] at different
  exact Bool.noConfusion different

end Plan.Table

namespace Definition

theorem hasTrimmedLines_calendarColumns :
    ∀ column ∈ dayColumn :: calendarColumns.map CalendarColumn.column, column.HasTrimmedLines := by
  have each : ∀ column ∈ dayColumn :: calendarColumns.map CalendarColumn.column,
      Text.IsTrimmed column.source ∧ ∀ text ∈ column.format, Text.IsTrimmed text := by decide
  exact fun column member => ⟨(each column member).1, (each column member).2⟩

theorem hasDistinctSources_calendarOutline (calendar : Catalog.Calendar) :
    (calendarOutline calendar).HasDistinctSources := by
  have distinct : (dayColumn :: calendarColumns.map CalendarColumn.column).Pairwise fun left right =>
      Text.trim left.source ≠ Text.trim right.source := by decide
  exact distinct

end Definition

/-! ## Tables -/

namespace Generation

/-- Names under which a generated set is found again. -/
structure HasStableNames (options : Options) (selection : Selection) : Prop where
  tables : ∀ table ∈ selection.tables, table.HasStableNames
  corrections : options.corrections.AreStable
  parameters : ∀ parameter ∈ options.connection.parameters, Text.IsSingleLine parameter.2
  calendar : selection.calendar.isSome = true ->
    ∀ table ∈ selection.tables, table.logicalName ≠ Convention.calendarTable

/-- Names under which the tables of a generated set are found again, and what joins them. -/
structure HasStableTables (options : Options) (selection : Selection) : Prop where
  tables : ∀ table ∈ selection.tables, table.HasStableNames
  corrections : options.corrections.AreStable
  calendar : selection.calendar.isSome = true ->
    ∀ table ∈ selection.tables, table.logicalName ≠ Convention.calendarTable

theorem HasStableNames.stableTables {options : Options} {selection : Selection}
    (names : HasStableNames options selection) : HasStableTables options selection :=
  ⟨names.tables, names.corrections, names.calendar⟩

/-- No two tables have one logical name or one path, or one that was taken. -/
structure AreDistinct (names paths : List Text) (tables : List Catalog.Table) : Prop where
  distinctNames : (tables.map fun table => Text.lower table.logicalName).Nodup
  newNames : ∀ table ∈ tables, Text.lower table.logicalName ∉ names
  distinctPaths : (tables.map fun table => Text.lower (Path.table table.modelName)).Nodup
  newPaths : ∀ table ∈ tables, Text.lower (Path.table table.modelName) ∉ paths

theorem areDistinct_of_firstDuplicate? {names paths : List Text} {tables : List Catalog.Table}
    (unique : firstDuplicate? names paths tables = none) : AreDistinct names paths tables := by
  induction tables generalizing names paths with
  | nil => exact ⟨List.nodup_nil, by simp, List.nodup_nil, by simp⟩
  | cons table tables ih =>
      rw [firstDuplicate?] at unique
      split at unique
      · cases unique
      · next new =>
          have rest := ih unique
          rw [Bool.or_eq_true, not_or, List.contains_iff_mem, List.contains_iff_mem] at new
          refine ⟨?_, ?_, ?_, ?_⟩
          · rw [List.map_cons, List.nodup_cons]
            refine ⟨fun repeated => ?_, rest.distinctNames⟩
            obtain ⟨other, inside, same⟩ := List.mem_map.mp repeated
            exact rest.newNames other inside (same ▸ List.mem_cons_self)
          · intro other member
            rcases List.mem_cons.mp member with rfl | member
            · exact new.1
            · exact fun old => rest.newNames other member (List.mem_cons_of_mem _ old)
          · rw [List.map_cons, List.nodup_cons]
            refine ⟨fun repeated => ?_, rest.distinctPaths⟩
            obtain ⟨other, inside, same⟩ := List.mem_map.mp repeated
            exact rest.newPaths other inside (same ▸ List.mem_cons_self)
          · intro other member
            rcases List.mem_cons.mp member with rfl | member
            · exact new.2
            · exact fun old => rest.newPaths other member (List.mem_cons_of_mem _ old)

theorem areDistinct_of_check {options : Options} {selection : Selection}
    (checked : check options selection = .ok ()) :
    AreDistinct [] (reservedPaths selection.calendar) selection.tables := by
  rw [check] at checked
  split at checked
  · cases checked
  · split at checked
    · cases checked
    · next unique => exact areDistinct_of_firstDuplicate? unique

variable {options : Options} {selection : Selection}

/-- A table of a selection that is planned. -/
theorem exists_table_of_mem_plans {plan : Plan.Table} (member : plan ∈ plans options selection) :
    ∃ table ∈ selection.tables, plan = .build (context options selection) table ∧
      plan.name = table.modelName ∧ plan.logicalName = table.logicalName := by
  obtain ⟨table, inside, rfl⟩ := List.mem_map.mp member
  have planned := Plan.Table.isPlanned_build (context options selection) table
  exact ⟨table, inside, rfl, planned.name, planned.logicalName⟩

theorem hasSingleLines_of_mem_plans (names : HasStableTables options selection) :
    ∀ plan ∈ plans options selection, plan.HasSingleLines := by
  intro plan member
  obtain ⟨table, inside, rfl, _⟩ := exists_table_of_mem_plans member
  exact Plan.Table.hasSingleLines_build (names.tables table inside) names.corrections

theorem isTrimmed_format_of_mem_writtenTables {table : WrittenTable}
    (member : table ∈ writtenTables options selection) :
    ∀ column ∈ table.outline.columns, ∀ text ∈ column.format, Text.IsTrimmed text := by
  rcases List.mem_append.mp member with planned | calendar
  · obtain ⟨plan, inside, rfl⟩ := List.mem_map.mp planned
    obtain ⟨own, _, rfl, _⟩ := exists_table_of_mem_plans inside
    intro column columnMember text found
    obtain ⟨written, writtenMember, rfl⟩ := List.mem_map.mp columnMember
    exact (Plan.Table.isTrimmed_format_of_mem_build writtenMember text found).1
  · rw [Option.mem_toList, Option.map_eq_some_iff] at calendar
    obtain ⟨calendar, _, rfl⟩ := calendar
    exact fun column columnMember => (Definition.hasTrimmedLines_calendarColumns column columnMember).format

/-- A table that can be told from the others in its set, and whose columns can be
told apart. -/
structure WrittenTable.IsStable (table : WrittenTable) : Prop where
  readable : table.outline.IsReadable
  trimmed : ∀ column ∈ table.outline.columns, column.HasTrimmedLines
  sources : table.outline.HasDistinctSources
  logicalName : Text.IsTrimmed table.outline.logicalName
  path : Path.isInTablesFolder table.path = true

theorem isStable_of_mem_writtenTables (names : HasStableTables options selection)
    {table : WrittenTable} (member : table ∈ writtenTables options selection) : table.IsStable := by
  have readable := isReadable_of_mem_writtenTables (hasSingleLines_of_mem_plans names) member
  rcases List.mem_append.mp member with planned | calendar
  · obtain ⟨plan, inside, rfl⟩ := List.mem_map.mp planned
    obtain ⟨own, ownMember, rfl, _, logicalName⟩ := exists_table_of_mem_plans inside
    have stable := names.tables own ownMember
    refine ⟨readable, ?_, Plan.Table.hasDistinctSources_outline stable names.corrections _ _, ?_,
      isInTablesFolder_table _⟩
    · intro column columnMember
      obtain ⟨found, columnInside, rfl⟩ := List.mem_map.mp columnMember
      exact (Plan.Table.isTrimmed_of_mem_build stable names.corrections columnInside).2.2
    · have trimmed := stable.logicalName.1
      rw [← logicalName] at trimmed
      exact trimmed
  · rw [Option.mem_toList, Option.map_eq_some_iff] at calendar
    obtain ⟨calendar, _, rfl⟩ := calendar
    exact ⟨readable, Definition.hasTrimmedLines_calendarColumns,
      Definition.hasDistinctSources_calendarOutline calendar,
      (by decide : Text.IsTrimmed Convention.calendarTable), isInTablesFolder_table _⟩

/-! ## Tables that are told apart -/

theorem map_logicalName_writtenTables (options : Options) (selection : Selection) :
    (writtenTables options selection).map (·.outline.logicalName) =
      selection.tables.map (·.logicalName) ++
        (selection.calendar.map fun _ => Convention.calendarTable).toList := by
  rw [writtenTables, List.map_append, plans, List.map_map, List.map_map]
  congr 1
  · exact List.map_congr_left fun table _ => (Plan.Table.isPlanned_build _ table).logicalName
  · cases selection.calendar <;> rfl

theorem map_path_writtenTables (options : Options) (selection : Selection) :
    (writtenTables options selection).map (·.path) =
      selection.tables.map (fun table => Path.table table.modelName) ++
        (selection.calendar.map fun _ => Path.table Convention.calendarTable).toList := by
  rw [writtenTables, List.map_append, plans, List.map_map, List.map_map]
  congr 1
  · exact List.map_congr_left fun table _ =>
      congrArg Path.table (Plan.Table.isPlanned_build _ table).name
  · cases selection.calendar <;> rfl

theorem nodup_append_toList {α : Type} {keys : List Text} {key : Text} {option : Option α}
    (distinct : keys.Nodup) (apart : option.isSome = true -> key ∉ keys) :
    (keys ++ (option.map fun _ => key).toList).Nodup := by
  cases option with
  | none => exact (List.append_nil keys).symm ▸ distinct
  | some found =>
      refine List.nodup_append.mpr ⟨distinct, List.nodup_singleton _, ?_⟩
      intro other member last lastMember same
      rw [same, List.mem_singleton.mp lastMember] at member
      exact apart rfl member

/-- The tables of a checked selection are known by different logical names. -/
theorem nodup_logicalNames (names : HasStableTables options selection)
    (checked : check options selection = .ok ()) :
    ((writtenTables options selection).map (·.outline.logicalName)).Nodup := by
  have distinct := areDistinct_of_check checked
  rw [map_logicalName_writtenTables]
  refine nodup_append_toList (.of_map Text.lower ?_) fun configured member => ?_
  · rw [List.map_map]
    exact distinct.distinctNames
  · obtain ⟨table, inside, same⟩ := List.mem_map.mp member
    exact names.calendar configured table inside same

/-- The tables of a checked selection are written into different files. -/
theorem nodup_paths (checked : check options selection = .ok ()) :
    ((writtenTables options selection).map (·.path)).Nodup := by
  have distinct := areDistinct_of_check checked
  rw [map_path_writtenTables]
  refine nodup_append_toList (.of_map Text.lower ?_) fun configured member => ?_
  · rw [List.map_map]
    exact distinct.distinctPaths
  · obtain ⟨table, inside, same⟩ := List.mem_map.mp member
    refine distinct.newPaths table inside ?_
    rw [same, reservedPaths, if_pos configured]
    exact List.mem_singleton_self _

/-! ## Relationships -/

theorem hasEnds_of_isEndIn (names : ∀ plan ∈ plans options selection, plan.HasSingleLines)
    {reference : Text}
    (ends : Plan.IsEndIn (plans options selection) reference) :
    HasVisibleEnds reference ∧ Text.IsSingleLine reference := by
  obtain ⟨plan, member, column, inside, rfl⟩ := ends
  have single := names plan member
  exact ⟨Name.hasVisibleEnds_columnReference _ _,
    Name.isSingleLine_columnReference single.name (single.columns column inside).1⟩

/-- No planned table is called like the calendar. -/
theorem name_ne_calendarTable (checked : check options selection = .ok ())
    (configured : selection.calendar.isSome = true) {plan : Plan.Table}
    (member : plan ∈ plans options selection) : plan.name ≠ Convention.calendarTable := by
  intro same
  obtain ⟨table, inside, _, name, _⟩ := exists_table_of_mem_plans member
  refine (areDistinct_of_check checked).newPaths table inside ?_
  rw [← name, same, reservedPaths, if_pos configured]
  exact List.mem_singleton_self _

theorem isEndIn_of_calendarEnd {plans : List Plan.Table} {calendar : Catalog.Calendar}
    {column : Text} (found : calendarEnd plans calendar = .ok column) :
    Plan.IsEndIn plans column := by
  rw [calendarEnd] at found
  split at found
  · cases found
  · next plan planFound =>
      split at found
      · cases found
      · next name columnFound =>
          cases found
          obtain ⟨column, inside, rfl⟩ := Plan.exists_column_of_columnFrom? columnFound
          exact ⟨plan, Plan.mem_of_tableNamed? planFound, column, inside, rfl⟩

/-- One relationship leads from a planned column to the calendar, if there is one. -/
theorem cases_of_calendarRelationships {plans : List Plan.Table}
    {calendar : Option Catalog.Calendar} {relationships : List Definition.Relationship}
    (found : calendarRelationships plans calendar = .ok relationships) :
    relationships = [] ∨ (calendar.isSome = true ∧ ∃ column, Plan.IsEndIn plans column ∧
      relationships = [Plan.calendarRelationship column]) := by
  cases calendar with
  | none =>
      cases found
      exact Or.inl rfl
  | some calendar =>
      rw [calendarRelationships] at found
      cases columnFound : calendarEnd plans calendar with
      | error fault =>
          rw [columnFound] at found
          cases found
      | ok column =>
          rw [columnFound] at found
          cases found
          exact Or.inr ⟨rfl, column, isEndIn_of_calendarEnd columnFound, rfl⟩

/-- What leads to the calendar leads to no planned table. -/
theorem not_isEndIn_calendar (checked : check options selection = .ok ())
    (configured : selection.calendar.isSome = true) :
    ¬ Plan.IsEndIn (plans options selection)
      (Name.columnReference Convention.calendarTable Convention.calendarColumn) := by
  rintro ⟨plan, member, column, _, same⟩
  have split := congrArg Name.splitColumnReference? same
  rw [Name.splitColumnReference?_columnReference, Name.splitColumnReference?_columnReference] at split
  have name : Convention.calendarTable = plan.name := congrArg Prod.fst (Option.some.inj split)
  exact name_ne_calendarTable checked configured member name.symm

theorem isEndIn_of_mem_ofEdges {relationship : Definition.Relationship}
    (member : relationship ∈ (Plan.ofEdges (plans options selection) selection.edges).filterMap
      Except.toOption) :
    Plan.IsEndIn (plans options selection) relationship.source ∧
      Plan.IsEndIn (plans options selection) relationship.target := by
  have own : ∀ plan ∈ plans options selection, Plan.HasOwnIdColumns plan := by
    intro plan member
    obtain ⟨table, _, rfl, _⟩ := exists_table_of_mem_plans member
    exact (Plan.Table.isPlanned_build _ table).idColumns
  obtain ⟨edge, _, ofEdge⟩ :=
    (Plan.arePlanned_relationshipsFrom _ selection.edges []).ofEdge relationship member
  exact Plan.isEndIn_of_relationshipOf own ofEdge

/-- The endpoints of the relationships of a generated set stand on one line each. -/
theorem IsGenerated.hasEnds {supply : Supply} {relationships : List Definition.Relationship}
    {output : Output} (generated : IsGenerated options supply selection relationships output)
    (names : ∀ plan ∈ plans options selection, plan.HasSingleLines) :
    ∀ relationship ∈ relationships, relationship.HasEnds := by
  obtain ⟨toCalendar, found, rfl⟩ := generated.calendar
  intro relationship member
  rcases List.mem_append.mp member with edge | last
  · obtain ⟨source, target⟩ := isEndIn_of_mem_ofEdges edge
    exact ⟨hasEnds_of_isEndIn names source, hasEnds_of_isEndIn names target⟩
  · rcases cases_of_calendarRelationships found with rfl | ⟨_, column, isEnd, rfl⟩
    · cases last
    · rw [List.mem_singleton.mp last]
      exact ⟨hasEnds_of_isEndIn names isEnd, Name.hasVisibleEnds_columnReference _ _,
        Name.isSingleLine_columnReference (by decide) (by decide)⟩

/-- The relationships of a generated set can be told apart. -/
theorem areApart_of_isGenerated (names : HasStableTables options selection) {supply : Supply}
    {relationships : List Definition.Relationship} {output : Output}
    (generated : IsGenerated options supply selection relationships output) :
    Prior.AreApart relationships := by
  have ends := generated.hasEnds (hasSingleLines_of_mem_plans names)
  obtain ⟨toCalendar, found, rfl⟩ := generated.calendar
  have distinct := (Plan.arePlanned_relationshipsFrom (plans options selection) selection.edges
    []).distinct
  refine ⟨ends, ?_⟩
  rcases cases_of_calendarRelationships found with rfl | ⟨configured, column, isEnd, rfl⟩
  · rw [List.append_nil]
    exact distinct
  · rw [List.map_append, List.nodup_append]
    refine ⟨distinct, List.nodup_singleton _, ?_⟩
    intro key member other otherMember same
    obtain ⟨relationship, inside, rfl⟩ := List.mem_map.mp member
    rw [List.map_singleton, List.mem_singleton] at otherMember
    have target : relationship.target =
        Name.columnReference Convention.calendarTable Convention.calendarColumn :=
      congrArg RelationshipKey.target (same.trans otherMember)
    exact not_isEndIn_calendar generated.checked configured
      (target ▸ (isEndIn_of_mem_ofEdges inside).2)

end Generation

end TabularModel
