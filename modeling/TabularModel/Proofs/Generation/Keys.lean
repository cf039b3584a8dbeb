import TabularModel.Proofs.Change.NothingLost
import TabularModel.Proofs.Generation.Readback

/-!
# Keys of a generated set

Tables are known by their logical names, columns by their sources and relationships by
their endpoints. In a generated set all of them differ, so that a reader knows each
element from its key. But the calendar is known by a name that a table may have as
well: only the path of the calendar is kept from other tables.
-/

set_option autoImplicit false

namespace TabularModel

namespace Generation

open Catalog (Selection)
open Change (HasDistinctColumns columnSources)
open Prior (HasDistinctRelationships HasDistinctTables IsTag Model tableBlocks tableKey?)

/-- A set whose elements are told apart by their keys. -/
structure HasDistinctKeys (definitions : DefinitionSet) : Prop where
  tables : HasDistinctTables definitions
  columns : HasDistinctColumns definitions
  relationships : HasDistinctRelationships definitions

variable {options : Options} {supply : Supply} {selection : Selection} {output : Output}
variable {relationships : List Definition.Relationship}

/-! ## Tables and columns -/

/-- The table blocks of a generated set are those of the written tables. -/
theorem IsGenerated.perm_freshBlocks
    (generated : IsGenerated options supply selection relationships output)
    (names : HasStableTables options selection) (tags : ∀ slot, IsTag (supply slot)) :
    (tableBlocks output.definitions).Perm
      ((writtenTables options selection).map (WrittenTable.freshBlock supply)) := by
  have tables : ((writtenTables options selection).map (WrittenTable.file supply)).filter
      (fun file => Path.isInTablesFolder file.1) =
        (writtenTables options selection).map (WrittenTable.file supply) := by
    refine List.filter_eq_self.mpr fun file member => ?_
    obtain ⟨table, inside, rfl⟩ := List.mem_map.mp member
    exact isInTablesFolder_of_mem_writtenTables inside
  have others : (relationshipFile supply relationships ++
      modelFiles options supply selection).filter (fun file => Path.isInTablesFolder file.1) = [] := by
    refine List.filter_eq_nil_iff.mpr fun file member => ?_
    rw [isInTablesFolder_of_mem_others member]
    exact Bool.false_ne_true
  have inFolder := generated.perm_entries.filter fun file => Path.isInTablesFolder file.1
  rw [files_eq, List.filter_append, tables, others, List.append_nil] at inFolder
  refine (inFolder.flatMap_right _).trans (.of_eq ?_)
  rw [List.flatMap_map, List.map_eq_flatMap]
  refine List.flatMap_congr fun table member => ?_
  exact (isStable_of_mem_writtenTables names member).blocksWith_table tags

theorem IsGenerated.hasDistinctTables
    (generated : IsGenerated options supply selection relationships output)
    (names : HasStableTables options selection) (tags : ∀ slot, IsTag (supply slot)) :
    HasDistinctTables output.definitions := by
  have keys : ((writtenTables options selection).map (WrittenTable.freshBlock supply)).filterMap
      tableKey? = (writtenTables options selection).map (·.outline.logicalName) := by
    rw [List.filterMap_map, ← List.filterMap_eq_map]
    refine List.filterMap_congr fun table member => ?_
    exact (isStable_of_mem_writtenTables names member).tableKey?_freshBlock tags
  have blocks := (generated.perm_freshBlocks names tags).filterMap tableKey?
  rw [keys] at blocks
  exact blocks.nodup_iff.mpr (nodup_logicalNames names generated.checked)

/-- The columns of a written table are known by their sources. -/
theorem WrittenTable.IsStable.columnSources_freshBlock {table : WrittenTable}
    (stable : table.IsStable) (tags : ∀ slot, IsTag (supply slot)) :
    columnSources (table.freshBlock supply) = table.outline.columns.map (·.source) := by
  rw [columnSources, WrittenTable.freshBlock,
    Definition.TableOutline.childrenWith_column_of_isSettled (stable.isSettled_freshState tags),
    List.filterMap_map, ← List.filterMap_eq_map]
  refine List.filterMap_congr fun column member => ?_
  have trimmed : Text.trim column.source = column.source := (stable.trimmed column member).source
  rw [Function.comp_apply, column.columnSource?_block, trimmed]
  rfl

theorem IsGenerated.hasDistinctColumns
    (generated : IsGenerated options supply selection relationships output)
    (names : HasStableTables options selection) (tags : ∀ slot, IsTag (supply slot)) :
    HasDistinctColumns output.definitions := by
  intro block member
  obtain ⟨table, inside, rfl⟩ :=
    List.mem_map.mp ((generated.perm_freshBlocks names tags).mem_iff.mp member)
  have stable := isStable_of_mem_writtenTables names inside
  rw [stable.columnSources_freshBlock tags]
  exact stable.nodup_sources

/-! ## Relationships -/

theorem IsGenerated.relationshipKeys
    (generated : IsGenerated options supply selection relationships output)
    (ends : ∀ relationship ∈ relationships, relationship.HasEnds)
    (tags : ∀ slot, IsTag (supply slot)) :
    Prior.relationshipKeys output.definitions = relationships.map Definition.Relationship.key := by
  rw [Prior.relationshipKeys, Prior.relationshipBlocks, generated.get?_relationships]
  cases relationships with
  | nil => rfl
  | cons relationship others =>
      rw [List.isEmpty_cons, if_neg Bool.false_ne_true, Option.elim_some,
        blocksWith_relationshipLines ends tags]
      exact Prior.filterMap_mapIdx_of_some _ fun _ relationship member =>
        relationship.relationshipKey?_block (ends relationship member) _

theorem IsGenerated.hasDistinctKeys
    (generated : IsGenerated options supply selection relationships output)
    (names : HasStableTables options selection) (tags : ∀ slot, IsTag (supply slot)) :
    HasDistinctKeys output.definitions := by
  have apart := areApart_of_isGenerated names generated
  refine ⟨generated.hasDistinctTables names tags, generated.hasDistinctColumns names tags, ?_⟩
  rw [HasDistinctRelationships, generated.relationshipKeys apart.ends tags]
  exact apart.distinct

/-! ## The whole set -/

/-- Where no table has the logical name of the calendar beside it, the elements of a
generated set have different keys, and reading it reports nothing. -/
theorem hasDistinctKeys_of_generate (generated : generate options supply selection = .ok output)
    (names : HasStableTables options selection) (tags : ∀ slot, IsTag (supply slot)) :
    HasDistinctKeys output.definitions ∧ (Model.ofDefinitions output.definitions).warnings = [] := by
  obtain ⟨relationships, isGenerated⟩ := exists_isGenerated generated
  exact ⟨isGenerated.hasDistinctKeys names tags,
    Model.warnings_ofDefinitions (isGenerated.areClear names tags)⟩

/-- A fact beside a calendar with two lookups of one table, and columns that are
corrected to one source. -/
theorem hasDistinctKeys_of_generate_corrected :
    let selection : Selection :=
      { modelName := "Sales"
        tables :=
          [{ Catalog.Table.plain "salesorder" "salesorderid" with
              displayName := some "Date's"
              attributes :=
                [⟨"customerid", some "Customer", .lookup, ["account"], none⟩,
                  ⟨"payerid", some "Customer", .lookup, ["account"], none⟩,
                  ⟨"createdbyyominame", some "Author", .string, [], none⟩,
                  ⟨"createdbyname", some "Author", .string, [], none⟩,
                  ⟨"createdon", some "Created", .dateTime, [], none⟩] },
            Catalog.Table.plain "account" "accountid"]
        edges := [.plain "salesorder" "customerid" "account", .plain "salesorder" "payerid" "account"]
        calendar := some ⟨2020, 2021, 0, "salesorder", "createdon"⟩ }
    let supply : Supply := fun _ => "tag"
    ∃ output, generate .standard supply selection = .ok output ∧
      HasDistinctKeys output.definitions ∧
      (Model.ofDefinitions output.definitions).warnings = [] := by
  intro selection supply
  have accepted : (generate .standard supply selection).toOption.isSome = true := by decide +kernel
  obtain ⟨output, found⟩ := Option.isSome_iff_exists.mp accepted
  have generated := eq_ok_of_toOption found
  have names : HasStableTables .standard selection :=
    ⟨by decide +kernel, by decide +kernel, fun _ => by decide +kernel⟩
  have word : IsTag "tag" := by decide
  exact ⟨output, generated, hasDistinctKeys_of_generate generated names fun _ => word⟩

/-- A table with the logical name of the calendar is accepted beside it under another
name, and then known by the same key. -/
theorem repeats_key_of_calendar :
    let selection : Selection :=
      { modelName := "Sales"
        tables :=
          [{ Catalog.Table.plain "Date" "dateid" with
              displayName := some "Appointment" }]
        edges := []
        calendar := some ⟨2020, 2021, 0, "Date", "dateid"⟩ }
    (∀ table ∈ selection.tables, table.HasStableNames) ∧ Options.standard.corrections.AreStable ∧
      ∃ output, generate .standard (fun _ => "tag") selection = .ok output ∧
        ¬ HasDistinctTables output.definitions ∧
        (Model.ofDefinitions output.definitions).warnings ≠ [] := by
  intro selection
  have written : (generate .standard (fun _ => "tag") selection).toOption.map (fun output =>
      (decide (HasDistinctTables output.definitions),
        (Model.ofDefinitions output.definitions).warnings.isEmpty)) = some (false, false) := by
    decide +kernel
  obtain ⟨output, found, facts⟩ := Option.map_eq_some_iff.mp written
  obtain ⟨repeated, reported⟩ := Prod.mk.inj facts
  refine ⟨by decide +kernel, by decide +kernel, output, eq_ok_of_toOption found,
    of_decide_eq_false repeated, fun none => ?_⟩
  rw [none] at reported
  cases reported

end Generation

end TabularModel
