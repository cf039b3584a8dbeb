import TabularModel.Proofs.Prior.KnownRelationships

/-!
# Sets about which nothing is reported

A warning is given for a table file without tables, for relationships without
ends, and for keys that occur again. A set without such files is read in full:
no warning is given, and the relationships are those of its blocks in their
order, with their positions.
-/

set_option autoImplicit false

namespace TabularModel

namespace Prior

namespace Model

theorem warnings_addTable (path : Text) {model : Model} {table : Table}
    (new : model.tables.get? table.key = none) :
    (addTable path model table).warnings = model.warnings := by
  have absent : model.tables.contains table.key = false := by
    rw [SortedMap.contains_eq, new]
    rfl
  rw [addTable, if_neg (by rw [absent]; exact Bool.false_ne_true)]

theorem warnings_foldl_addTable (path : Text) {tables : List Table} {model : Model}
    (distinct : (tables.map (·.key)).Nodup)
    (new : ∀ table ∈ tables, model.tables.get? table.key = none) :
    (tables.foldl (addTable path) model).warnings = model.warnings := by
  induction tables generalizing model with
  | nil => rfl
  | cons table tables ih =>
      rw [List.map_cons, List.nodup_cons] at distinct
      rw [List.foldl_cons, ih distinct.2, warnings_addTable path (new table List.mem_cons_self)]
      intro other member
      have different : table.key ≠ other.key := fun same =>
        distinct.1 (List.mem_map.mpr ⟨other, member, same.symm⟩)
      rw [tables_addTable, SortedMap.get?_insert, if_neg different]
      exact new other (List.mem_cons_of_mem table member)

theorem warnings_addTables (path : Text) {document : Document} {model : Model}
    (present : document.blocksWith "table" ≠ [])
    (distinct : (((document.blocksWith "table").filterMap readTable?).map (·.key)).Nodup)
    (new : ∀ table ∈ (document.blocksWith "table").filterMap readTable?,
      model.tables.get? table.key = none) :
    (model.addTables path document).warnings = model.warnings := by
  rw [addTables, if_neg (by simpa using present)]
  exact warnings_foldl_addTable path distinct new

/-- What is known behind tables is known of one of them or was known before. -/
theorem get?_tables_addTables (path : Text) (document : Document) {model : Model} {key : Text}
    (absent : model.tables.get? key = none)
    (other : ∀ table ∈ (document.blocksWith "table").filterMap readTable?, table.key ≠ key) :
    (model.addTables path document).tables.get? key = none := by
  rw [tables_addTables, SortedMap.get?_foldl_insert, absent, Option.or_none,
    Option.map_eq_none_iff, List.find?_eq_none]
  intro entry member same
  obtain ⟨block, inside, read⟩ := List.mem_filterMap.mp (List.mem_reverse.mp member)
  obtain ⟨table, found, rfl⟩ := Option.map_eq_some_iff.mp read
  exact other table (List.mem_filterMap.mpr ⟨block, inside, found⟩) (by simpa using same)

/-- Relationships under new keys are entered in their order. -/
theorem foldl_addRelationship_ok (path : Text) {relationships : List Relationship} {model : Model}
    (distinct : ((model.relationships ++ relationships).map (·.key)).Nodup) :
    ((relationships.map .ok).foldl (addRelationship path) model).relationships =
        model.relationships ++ relationships ∧
      ((relationships.map .ok).foldl (addRelationship path) model).warnings = model.warnings := by
  induction relationships generalizing model with
  | nil => exact ⟨(List.append_nil _).symm, rfl⟩
  | cons relationship relationships ih =>
      have different : ∀ other ∈ model.relationships, other.key ≠ relationship.key := by
        intro other member
        rw [List.map_append, List.nodup_append] at distinct
        exact distinct.2.2 _ (List.mem_map.mpr ⟨other, member, rfl⟩) _
          (List.mem_map.mpr ⟨relationship, List.mem_cons_self, rfl⟩)
      have unknown : model.relationship? relationship.key = none := by
        rw [relationship?, List.find?_eq_none]
        intro other member
        simpa using different other member
      have kept : model.relationships.filter (·.key != relationship.key) = model.relationships := by
        rw [List.filter_eq_self]
        intro other member
        simpa using different other member
      have added : addRelationship path model (.ok relationship) =
          { model with relationships := model.relationships ++ [relationship] } := by
        rw [addRelationship, unknown, kept]
        rfl
      have again : (((model.relationships ++ [relationship]) ++ relationships).map (·.key)).Nodup := by
        rwa [List.append_assoc]
      obtain ⟨all, none⟩ := @ih { model with relationships := model.relationships ++ [relationship] }
        again
      rw [List.map_cons, List.foldl_cons, added]
      exact ⟨all.trans (List.append_assoc _ _ _), none⟩

end Model

/-- The tables in a file. -/
def fileTables (file : Text × Text) : List Table :=
  if Path.isInTablesFolder file.1 then
    ((Document.ofText file.2).blocksWith "table").filterMap readTable?
  else []

/-- The file of relationships is read as the given ones, under different keys. -/
structure GivesRelationships (text : Text) (relationships : List Relationship) : Prop where
  read : ((Document.ofText text).blocksWith "relationship").mapIdx readRelationship =
    relationships.map .ok
  distinct : (relationships.map (·.key)).Nodup

/-- Files that can be read in full. -/
structure AreClear (files : List (Text × Text)) : Prop where
  paths : (files.map (·.1)).Nodup
  present : ∀ file ∈ files, Path.isInTablesFolder file.1 = true ->
    (Document.ofText file.2).blocksWith "table" ≠ []
  tables : ((files.flatMap fileTables).map (·.key)).Nodup
  relationships : ∀ file ∈ files, file.1 = Path.relationships ->
    ∃ relationships, GivesRelationships file.2 relationships

namespace Model

theorem addFile_table {model : Model} {path : Text} (text : Text)
    (isTable : Path.isInTablesFolder path = true) :
    model.addFile path text = model.addTables path (.ofText text) := by
  rw [addFile, if_pos isTable]

theorem addFile_relationships (model : Model) (text : Text) :
    model.addFile Path.relationships text =
      model.addRelationships Path.relationships (.ofText text) := by
  have path : Path.isInTablesFolder Path.relationships = false := by decide
  rw [addFile, path, if_neg Bool.false_ne_true, if_pos rfl]

theorem addFile_other {model : Model} {path : Text} (text : Text)
    (notTable : Path.isInTablesFolder path = false) (other : path ≠ Path.relationships) :
    (model.addFile path text).warnings = model.warnings ∧
      (model.addFile path text).tables = model.tables ∧
      (model.addFile path text).relationships = model.relationships := by
  rw [addFile, notTable, if_neg Bool.false_ne_true, if_neg other]
  split <;> exact ⟨rfl, rfl, rfl⟩

/-- Clear files add no warning to a model that knows nothing of their keys. -/
theorem warnings_foldl_addFile {files : List (Text × Text)} (clear : AreClear files)
    {model : Model} (tables : ∀ table ∈ files.flatMap fileTables, model.tables.get? table.key = none)
    (relationships : Path.relationships ∈ files.map (·.1) -> model.relationships = []) :
    (files.foldl (fun model file => model.addFile file.1 file.2) model).warnings =
      model.warnings := by
  induction files generalizing model with
  | nil => rfl
  | cons file files ih =>
      obtain ⟨different, paths⟩ := List.nodup_cons.mp clear.paths
      have parts := clear.tables
      rw [List.flatMap_cons, List.map_append, List.nodup_append] at parts
      have rest : AreClear files :=
        ⟨paths, fun other member => clear.present other (List.mem_cons_of_mem file member), parts.2.1,
          fun other member => clear.relationships other (List.mem_cons_of_mem file member)⟩
      have known : ∀ table ∈ files.flatMap fileTables, model.tables.get? table.key = none :=
        fun table member => tables table (List.mem_append_right _ member)
      have later (member : Path.relationships ∈ files.map (·.1)) : model.relationships = [] :=
        relationships (List.mem_cons_of_mem _ member)
      rw [List.foldl_cons]
      by_cases isTable : Path.isInTablesFolder file.1 = true
      · have own : fileTables file =
            ((Document.ofText file.2).blocksWith "table").filterMap readTable? := if_pos isTable
        rw [own] at parts
        rw [addFile_table file.2 isTable, ih rest]
        · refine warnings_addTables file.1 (clear.present file List.mem_cons_self isTable)
            parts.1 fun table member => tables table ?_
          exact List.mem_append_left _ (own ▸ member)
        · intro table member
          refine get?_tables_addTables _ _ (known table member) fun other inside same => ?_
          exact parts.2.2 other.key (List.mem_map.mpr ⟨other, inside, rfl⟩) table.key
            (List.mem_map.mpr ⟨table, member, rfl⟩) same
        · intro member
          rw [(others_addTables _ _ model).1]
          exact later member
      · by_cases isRelationships : file.1 = Path.relationships
        · obtain ⟨read, gives⟩ := clear.relationships file List.mem_cons_self isRelationships
          have none : model.relationships = [] := by
            refine relationships ?_
            rw [← isRelationships]
            exact List.mem_cons_self
          rw [isRelationships, addFile_relationships, addRelationships, gives.read, ih rest]
          · exact (foldl_addRelationship_ok _ (by rw [none]; exact gives.distinct)).2
          · intro table member
            rw [← gives.read]
            exact (congrArg (·.get? table.key) (tables_addRelationships _ _ model)).trans
              (known table member)
          · intro member
            rw [← isRelationships] at member
            exact absurd member different
        · obtain ⟨warnings, sameTables, same⟩ :=
            @addFile_other model file.1 file.2 (by simpa using isTable) isRelationships
          rw [ih rest, warnings]
          · exact sameTables.symm ▸ known
          · exact same.symm ▸ later

/-- Nothing is reported about clear files. -/
theorem warnings_ofDefinitions {definitions : DefinitionSet}
    (clear : AreClear definitions.entries) : (ofDefinitions definitions).warnings = [] :=
  warnings_foldl_addFile clear (fun _ _ => rfl) fun _ => rfl

/-- The tables of a set are those of its files, each under its key. -/
theorem tables_ofDefinitions_eq (definitions : DefinitionSet) :
    (ofDefinitions definitions).tables =
      .ofList ((definitions.entries.flatMap fileTables).map fun table => (table.key, table)) := by
  have each (files : List (Text × Text)) :
      ((files.filter fun file => Path.isInTablesFolder file.1).flatMap fun file =>
          (Document.ofText file.2).blocksWith "table").filterMap keyedTable? =
        (files.flatMap fileTables).map fun table => (table.key, table) := by
    induction files with
    | nil => rfl
    | cons file files ih =>
        rw [List.filter_cons, List.flatMap_cons, List.map_append, ← ih, fileTables]
        split
        · rw [List.flatMap_cons, List.filterMap_append, List.map_filterMap]
          rfl
        · rfl
  rw [tables_ofDefinitions, tableBlocks, each]

/-- The relationships of a set are those of their file. -/
theorem relationships_ofDefinitions (definitions : DefinitionSet) :
    (ofDefinitions definitions).relationships =
      (definitions.get? Path.relationships).elim [] fun text =>
        (empty.addRelationships Path.relationships (.ofText text)).relationships := by
  have parts := part_ofDefinitions Model.relationships Path.relationships ?_ ?_ definitions
  · simp only [addFile_relationships] at parts
    exact parts
  · intro model other text different
    by_cases isTable : Path.isInTablesFolder other = true
    · rw [addFile_table text isTable, (others_addTables _ _ model).1]
    · exact (addFile_other text (by simpa using isTable) different).2.2
  · intro left right text same
    rw [addFile_relationships, addFile_relationships, addRelationships, addRelationships]
    generalize ((Document.ofText text).blocksWith "relationship").mapIdx readRelationship = reads
    induction reads generalizing left right with
    | nil => exact same
    | cons read reads ih =>
        refine ih _ _ ?_
        cases read with
        | error name => exact same
        | ok relationship => rw [relationships_addRelationship, relationships_addRelationship, same]

theorem relationships_ofDefinitions_of_gives {definitions : DefinitionSet} {text : Text}
    (found : definitions.get? Path.relationships = some text) {relationships : List Relationship}
    (gives : GivesRelationships text relationships) :
    (ofDefinitions definitions).relationships = relationships := by
  rw [relationships_ofDefinitions, found, Option.elim_some, addRelationships, gives.read]
  exact (@foldl_addRelationship_ok _ relationships empty gives.distinct).1

end Model

end Prior

end TabularModel
