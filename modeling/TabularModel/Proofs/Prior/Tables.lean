import TabularModel.Prior.Merge
import TabularModel.Proofs.Prior.Merging
import TabularModel.Proofs.SortedMap

/-!
# The tables of earlier definitions

The tables that are recovered from a definition set are those of the table
blocks in its table files, each under its key. Of several blocks with one key
the last counts; a key without blocks is unknown. What is recovered from blocks
that were read can be written again: tags are words, values stand on one line,
and blocks that are kept are nested below their tables.
-/

set_option autoImplicit false

namespace TabularModel

namespace SortedMap

variable {α β : Type}

/-- A map of readings gives the last reading under each key. -/
theorem get?_ofList_filterMap (read : β -> Option (Text × α)) (items : List β) (key : Text) :
    (ofList (items.filterMap read)).get? key =
      ((items.filter fun item => (read item).map (·.1) == some key).getLast?.bind read).map (·.2) := by
  rw [get?_ofList]
  induction items using List.reverseRecOn with
  | nil => rfl
  | append_singleton items item ih =>
      rw [List.filterMap_append, List.reverse_append, List.filter_append]
      cases found : read item with
      | none => simpa [found] using ih
      | some entry =>
          by_cases same : entry.1 = key
          · simp [found, same]
          · simpa [found, same] using ih

end SortedMap

namespace Prior

/-! ## Blocks by their keys -/

/-- The table blocks in the table files of a definition set. -/
def tableBlocks (definitions : DefinitionSet) : List Block :=
  (definitions.entries.filter fun file => Path.isInTablesFolder file.1).flatMap fun file =>
    (Document.ofText file.2).blocksWith "table"

/-- Those that are known by a key. -/
def tableBlocksFor (definitions : DefinitionSet) (key : Text) : List Block :=
  (tableBlocks definitions).filter fun block => tableKey? block == some key

/-- The column blocks of a table that come from a source. -/
def columnBlocksFor (table : Block) (source : Text) : List Block :=
  (table.childrenWith "column").filter fun block => columnSource? block == some source

/-- A table as it is entered under its key. -/
def keyedTable? (block : Block) : Option (Text × Table) :=
  (readTable? block).map fun table => (table.key, table)

/-! ## Reading whole definition sets -/

namespace Model

theorem tables_warn (model : Model) (path : Text) (problem : Problem) :
    (model.warn path problem).tables = model.tables := rfl

theorem tables_addTable (path : Text) (model : Model) (table : Table) :
    (addTable path model table).tables = model.tables.insert table.key table := by
  rw [addTable]
  split <;> rfl

theorem tables_foldl_addTable (path : Text) (tables : List Table) (model : Model) :
    (tables.foldl (addTable path) model).tables =
      (tables.map fun table => (table.key, table)).foldl
        (fun known entry => known.insert entry.1 entry.2) model.tables := by
  induction tables generalizing model with
  | nil => rfl
  | cons table tables ih => rw [List.foldl_cons, ih, tables_addTable, List.map_cons, List.foldl_cons]

theorem tables_addTables (path : Text) (document : Document) (model : Model) :
    (model.addTables path document).tables =
      ((document.blocksWith "table").filterMap keyedTable?).foldl
        (fun known entry => known.insert entry.1 entry.2) model.tables := by
  have keyed (blocks : List Block) : (blocks.filterMap readTable?).map
      (fun table => (table.key, table)) = blocks.filterMap keyedTable? := by
    rw [List.map_filterMap]
    rfl
  rw [addTables]
  split
  · next none =>
      rw [List.isEmpty_iff.mp none, tables_warn]
      rfl
  · rw [tables_foldl_addTable, keyed]

/-- Tables do not change what else is known. -/
theorem others_addTables (path : Text) (document : Document) (model : Model) :
    (model.addTables path document).relationships = model.relationships ∧
      (model.addTables path document).expressionTags = model.expressionTags := by
  have step (table : Table) (model : Model) :
      (addTable path model table).relationships = model.relationships ∧
        (addTable path model table).expressionTags = model.expressionTags := by
    rw [addTable]
    split <;> exact ⟨rfl, rfl⟩
  have fold (tables : List Table) (model : Model) :
      (tables.foldl (addTable path) model).relationships = model.relationships ∧
        (tables.foldl (addTable path) model).expressionTags = model.expressionTags := by
    induction tables generalizing model with
    | nil => exact ⟨rfl, rfl⟩
    | cons table tables ih =>
        obtain ⟨relationships, tags⟩ := ih (addTable path model table)
        exact ⟨relationships.trans (step table model).1, tags.trans (step table model).2⟩
  rw [addTables]
  split
  · exact ⟨rfl, rfl⟩
  · exact fold _ model

theorem tables_addRelationship (path : Text) (model : Model) (read : Except Text Relationship) :
    (addRelationship path model read).tables = model.tables := by
  cases read with
  | error name => rfl
  | ok relationship =>
      rw [addRelationship]
      split <;> rfl

theorem tables_addRelationships (path : Text) (document : Document) (model : Model) :
    (model.addRelationships path document).tables = model.tables := by
  rw [addRelationships]
  generalize (document.blocksWith "relationship").mapIdx readRelationship = reads
  induction reads generalizing model with
  | nil => rfl
  | cons read reads ih => rw [List.foldl_cons, ih, tables_addRelationship]

theorem tables_addFile (model : Model) (file : Text × Text) :
    (model.addFile file.1 file.2).tables =
      ((if Path.isInTablesFolder file.1 then (Document.ofText file.2).blocksWith "table"
        else []).filterMap keyedTable?).foldl
          (fun known entry => known.insert entry.1 entry.2) model.tables := by
  rw [addFile]
  split
  · exact tables_addTables _ _ model
  · split
    · exact tables_addRelationships _ _ model
    · split
      · rfl
      · rfl

/-- A part of a model that comes from the file at one path alone is read from
that file. -/
theorem part_ofDefinitions {β : Type} (part : Model -> β) (path : Text)
    (others : ∀ (model : Model) (other text : Text), other ≠ path ->
      part (model.addFile other text) = part model)
    (only : ∀ (left right : Model) (text : Text), part left = part right ->
      part (left.addFile path text) = part (right.addFile path text))
    (definitions : DefinitionSet) :
    part (ofDefinitions definitions) =
      (definitions.get? path).elim (part empty) fun text => part (empty.addFile path text) := by
  have step (files : List (Text × Text)) (distinct : (files.map (·.1)).Nodup) (model : Model) :
      part (files.foldl (fun model file => model.addFile file.1 file.2) model) =
        ((files.find? (·.1 == path)).map (·.2)).elim (part model) fun text =>
          part (model.addFile path text) := by
    induction files generalizing model with
    | nil => rfl
    | cons file files ih =>
        rw [List.map_cons, List.nodup_cons] at distinct
        rw [List.foldl_cons, ih distinct.2]
        by_cases same : file.1 = path
        · have absent : files.find? (·.1 == path) = none := by
            rw [List.find?_eq_none]
            intro other member found
            have sameKey : other.1 = path := by simpa using found
            exact distinct.1 (List.mem_map.mpr ⟨other, member, sameKey.trans same.symm⟩)
          rw [absent, List.find?_cons_of_pos (by simp [same])]
          subst same
          rfl
        · rw [List.find?_cons_of_neg (by simpa using same)]
          have unchanged := others model file.1 file.2 same
          cases files.find? (·.1 == path) with
          | none => exact unchanged
          | some found => exact only _ _ found.2 unchanged
  exact step definitions.entries definitions.keys_nodup empty

/-- The tables of a definition set are those of its table blocks. -/
theorem tables_ofDefinitions (definitions : DefinitionSet) :
    (ofDefinitions definitions).tables =
      .ofList ((tableBlocks definitions).filterMap keyedTable?) := by
  have step (files : List (Text × Text)) (model : Model) :
      (files.foldl (fun model file => model.addFile file.1 file.2) model).tables =
        (((files.filter fun file => Path.isInTablesFolder file.1).flatMap fun file =>
            (Document.ofText file.2).blocksWith "table").filterMap keyedTable?).foldl
          (fun known entry => known.insert entry.1 entry.2) model.tables := by
    induction files generalizing model with
    | nil => rfl
    | cons file files ih =>
        rw [List.foldl_cons, ih, tables_addFile, List.filter_cons]
        split
        · rw [List.flatMap_cons, List.filterMap_append, List.foldl_append]
        · rw [List.filterMap_nil, List.foldl_nil]
  exact step definitions.entries empty

end Model

/-! ## Reading a table -/

/-- What a table is that is read from a block. -/
structure IsReadFrom (block : Block) (table : Table) : Prop where
  name : name? "table" block = some table.name
  key : tableKey? block = some table.key
  tag : table.tag = lineageTag? block
  columnTags : table.columnTags = childTags block "column" columnSource?
  measureTags : table.measureTags = childTags block "measure" (name? "measure")
  columns : table.columns = .ofList (((block.childrenWith "column").filterMap readColumn?).map
    fun column => (column.source, column))
  measures : table.measures =
    (block.childrenWith "measure").filterMap (readMeasure? table.name)

theorem isReadFrom_of_readTable? {block : Block} {table : Table}
    (read : readTable? block = some table) : IsReadFrom block table := by
  rw [readTable?, tableKey?] at read
  cases named : name? "table" block with
  | none =>
      rw [named] at read
      cases read
  | some name =>
      rw [named] at read
      cases read
      have key : tableKey? block = some ((logicalName? block).getD name) := by
        rw [tableKey?, named]
        rfl
      exact ⟨named, key, rfl, rfl, rfl, rfl, rfl⟩

theorem hasHeader_of_tableKey? {block : Block} {key : Text} (known : tableKey? block = some key) :
    block.hasHeader "table" = true := by
  obtain ⟨name, named, _⟩ := Option.map_eq_some_iff.mp known
  obtain ⟨found, read, _⟩ := Option.map_eq_some_iff.mp named
  obtain ⟨rest, header, _⟩ := Option.map_eq_some_iff.mp read
  rw [Block.hasHeader, header]
  rfl

theorem exists_readTable? {block : Block} {key : Text} (known : tableKey? block = some key) :
    ∃ table, readTable? block = some table ∧ table.key = key := by
  rw [tableKey?] at known
  rw [readTable?, tableKey?]
  cases named : name? "table" block with
  | none =>
      rw [named] at known
      cases known
  | some name =>
      rw [named] at known
      exact ⟨_, rfl, Option.some.inj known⟩

theorem map_key_readTable? (block : Block) : (readTable? block).map (·.key) = tableKey? block := by
  cases known : tableKey? block with
  | some key =>
      obtain ⟨table, read, same⟩ := exists_readTable? known
      rw [read, Option.map_some, same]
  | none =>
      cases read : readTable? block with
      | none => rfl
      | some table =>
          rw [(isReadFrom_of_readTable? read).key] at known
          cases known

/-- The table under a key is that of the last block with this key. -/
theorem get?_tables (definitions : DefinitionSet) (key : Text) :
    (Model.ofDefinitions definitions).tables.get? key =
      (tableBlocksFor definitions key).getLast?.bind readTable? := by
  have keys (block : Block) : (keyedTable? block).map (·.1) = tableKey? block := by
    rw [keyedTable?, Option.map_map, ← map_key_readTable?]
    rfl
  have second (block : Block) : (keyedTable? block).map (·.2) = readTable? block := by
    rw [keyedTable?, Option.map_map]
    exact Option.map_id'
  rw [Model.tables_ofDefinitions, SortedMap.get?_ofList_filterMap, Option.map_bind, tableBlocksFor]
  simp only [keys]
  congr 1
  funext block
  exact second block

theorem exists_mem_of_get?_tables {definitions : DefinitionSet} {key : Text} {table : Table}
    (found : (Model.ofDefinitions definitions).tables.get? key = some table) :
    ∃ block ∈ tableBlocksFor definitions key, readTable? block = some table := by
  rw [get?_tables] at found
  obtain ⟨block, last, read⟩ := Option.bind_eq_some_iff.mp found
  exact ⟨block, List.mem_of_getLast? last, read⟩

/-- Without blocks under a key nothing is known under it. -/
theorem get?_tables_eq_none {definitions : DefinitionSet} {key : Text}
    (absent : tableBlocksFor definitions key = []) :
    (Model.ofDefinitions definitions).tables.get? key = none := by
  rw [get?_tables, absent]
  rfl

/-- A single block under a key is what is known under it. -/
theorem exists_get?_tables {definitions : DefinitionSet} {key : Text} {block : Block}
    (single : tableBlocksFor definitions key = [block]) :
    ∃ table, (Model.ofDefinitions definitions).tables.get? key = some table ∧
      readTable? block = some table := by
  have inside : block ∈ tableBlocksFor definitions key := single ▸ List.mem_singleton_self block
  have known : tableKey? block = some key := by simpa using (List.mem_filter.mp inside).2
  obtain ⟨table, read, _⟩ := exists_readTable? known
  refine ⟨table, ?_, read⟩
  rw [get?_tables, single]
  exact read

/-! ## Tags of children -/

/-- The tag of a child as it is entered under its key. -/
def keyedTag? (keyOf : Block -> Option Text) (child : Block) : Option (Text × Text) := do
  return (<- keyOf child, <- lineageTag? child)

theorem keyedTag?_of_lineageTag? {keyOf : Block -> Option Text} {child : Block} {tag : Text}
    (tagged : lineageTag? child = some tag) :
    keyedTag? keyOf child = (keyOf child).map fun key => (key, tag) := by
  rw [keyedTag?, tagged]
  cases keyOf child <;> rfl

/-- A tag is found among the children with its key. -/
theorem get?_childTags (block : Block) (keyword key : Text) (keyOf : Block -> Option Text) :
    (childTags block keyword keyOf).get? key =
      (((((block.childrenWith keyword).filter fun child => keyOf child == some key).filter
        fun child => (keyedTag? keyOf child).map (·.1) == some key).getLast?.bind
          (keyedTag? keyOf)).map (·.2)) := by
  have whole : childTags block keyword keyOf =
      .ofList ((block.childrenWith keyword).filterMap (keyedTag? keyOf)) := rfl
  have both (child : Block) : ((keyedTag? keyOf child).map (·.1) == some key) =
      ((keyedTag? keyOf child).map (·.1) == some key && keyOf child == some key) := by
    rw [keyedTag?]
    cases known : keyOf child with
    | none => rfl
    | some other =>
        cases lineageTag? child with
        | none => rfl
        | some tag => exact (Bool.and_self _).symm
  rw [whole, SortedMap.get?_ofList_filterMap, List.filter_filter]
  simp only [← both]

/-- The tag under a key is that of the only child with this key. -/
theorem get?_childTags_of_single {block child : Block} {keyword key tag : Text}
    {keyOf : Block -> Option Text}
    (single : ((block.childrenWith keyword).filter fun child => keyOf child == some key) = [child])
    (tagged : lineageTag? child = some tag) :
    (childTags block keyword keyOf).get? key = some tag := by
  have inside : child ∈ (block.childrenWith keyword).filter fun child => keyOf child == some key :=
    single ▸ List.mem_singleton_self child
  have known : keyOf child = some key := by simpa using (List.mem_filter.mp inside).2
  have read : keyedTag? keyOf child = some (key, tag) := by
    rw [keyedTag?_of_lineageTag? tagged, known]
    rfl
  rw [get?_childTags, single, List.filter_cons_of_pos (by simp [read])]
  simp [read]

/-- Without a child with the key there is no tag under it. -/
theorem get?_childTags_of_absent {block : Block} {keyword key : Text} {keyOf : Block -> Option Text}
    (absent : ((block.childrenWith keyword).filter fun child => keyOf child == some key) = []) :
    (childTags block keyword keyOf).get? key = none := by
  rw [get?_childTags, absent]
  rfl

theorem map_source_readColumn? (block : Block) :
    (readColumn? block).map (·.source) = columnSource? block := by
  rw [readColumn?, columnSource?]
  cases name? "column" block <;> rfl

/-- The column under a source is that of the last block with this source. -/
theorem get?_columns {block : Block} {table : Table} (parts : IsReadFrom block table)
    (source : Text) :
    table.columns.get? source = (columnBlocksFor block source).getLast?.bind readColumn? := by
  have keyed (blocks : List Block) : (blocks.filterMap readColumn?).map
      (fun column => (column.source, column)) =
      blocks.filterMap fun child => (readColumn? child).map fun column => (column.source, column) := by
    rw [List.map_filterMap]
  have sources (child : Block) : ((readColumn? child).map fun column => (column.source, column)).map
      (·.1) = columnSource? child := by
    rw [Option.map_map, ← map_source_readColumn?]
    rfl
  have columns (child : Block) : ((readColumn? child).map fun column => (column.source, column)).map
      (·.2) = readColumn? child := by
    rw [Option.map_map]
    exact Option.map_id'
  rw [parts.columns, keyed, SortedMap.get?_ofList_filterMap, Option.map_bind, columnBlocksFor]
  simp only [sources]
  congr 1
  funext child
  exact columns child

/-- Every tag under a key is one that a child bears. -/
theorem isTag_of_get?_childTags {block : Block} {keyword key tag : Text}
    {keyOf : Block -> Option Text} (found : (childTags block keyword keyOf).get? key = some tag) :
    IsTag tag := by
  have inside := SortedMap.mem_of_mem_ofList (SortedMap.mem_of_get? found)
  obtain ⟨child, _, read⟩ := List.mem_filterMap.mp inside
  obtain ⟨other, _, read⟩ := Option.bind_eq_some_iff.mp read
  obtain ⟨tagged, found, read⟩ := Option.bind_eq_some_iff.mp read
  have same : tagged = tag := congrArg Prod.snd (Option.some.inj read)
  exact same ▸ isTag_of_lineageTag? found

end Prior

/-! ## Children of nested blocks -/

namespace Block

open Document (Entry)

theorem allBlank_of_hasHeader {keyword : Text} (visible : BeginsVisibly keyword) {block : Block}
    (found : block.hasHeader keyword = true) : Text.allBlank block.line = false := by
  obtain ⟨rest, shape⟩ := begins_of_hasHeader found
  obtain ⟨c, others, rfl, _⟩ := visible.exists_cons
  by_contra blank
  have all : Text.allBlank block.line = true := by simpa using blank
  rw [text, Text.trim_of_allBlank _ all] at shape
  exact List.cons_ne_nil c _ shape.symm

theorem not_isDoc_of_hasHeader {keyword : Text} (isContent : IsContent keyword) {block : Block}
    (found : block.hasHeader keyword = true) : Document.isDoc block.line = false := by
  obtain ⟨rest, shape⟩ := begins_of_hasHeader found
  obtain ⟨c, others, rfl, _, notSlash⟩ := isContent.exists_cons
  rcases Text.trimLeft_eq_nil_or_cons block.line with ⟨left, _⟩ | ⟨d, after, left, visible⟩
  · rw [Document.isDoc, left]
    rfl
  · rw [text, Text.trim, left, Text.trimRight, Text.dropRightWhile_cons _ after d visible,
      List.cons_append] at shape
    have same : d = c := (List.cons.inj shape).1
    rw [Document.isDoc, left, same]
    simp [List.isPrefixOf, Ne.symm notSlash]

/-- A child of a nested block is a blank line or a nested block that is deeper. -/
theorem IsNested.child {block child : Block} (nested : block.IsNested)
    (member : child ∈ block.children) :
    Document.IsBlankLine child.line ∨ (child.IsNested ∧ block.depth < child.depth) := by
  cases nested with
  | intro entry kids valid deeper descending each =>
      rcases List.mem_append.mp member with blank | kid
      · obtain ⟨line, inside, rfl⟩ := List.mem_map.mp blank
        exact Or.inl (valid.blanks line inside)
      · exact Or.inr ⟨each child kid, deeper child kid⟩

theorem IsNested.child_of_hasHeader {block child : Block} (nested : block.IsNested)
    {keyword : Text} (visible : BeginsVisibly keyword)
    (member : child ∈ block.childrenWith keyword) :
    child.IsNested ∧ block.depth < child.depth := by
  obtain ⟨inside, found⟩ := List.mem_filter.mp member
  rcases nested.child inside with blank | deeper
  · have notBlank := allBlank_of_hasHeader visible found
    rw [blank.blank] at notBlank
    exact Bool.noConfusion notBlank
  · exact deeper

/-- The properties of a nested block stand on one line. -/
theorem IsNested.property? {block : Block} (nested : block.IsNested) {name value : Text}
    (found : block.property? name = some value) :
    Text.IsTrimmed value ∧ Text.IsSingleLine value := by
  obtain ⟨child, member, read⟩ := List.exists_of_findSome?_eq_some found
  refine valueOf?_eq_some read ?_
  rcases nested.child member with blank | ⟨kid, _⟩
  · exact blank.single
  · exact kid.header.single

end Block

namespace Prior

/-! ## What is recovered can be written again -/

/-- The formatting of a column stands inside a column. -/
structure Column.IsWritable (column : Column) : Prop where
  format : ∀ text ∈ column.formatString, Text.IsTrimmed text ∧ Text.IsSingleLine text
  summary : ∀ text ∈ column.summarizeBy, Text.IsTrimmed text ∧ Text.IsSingleLine text
  annotations : ∀ annotation ∈ column.annotations, annotation.block.IsNested ∧
    2 ≤ annotation.block.depth ∧ annotation.block.hasHeader "annotation" = true

/-- What is known of a table is in the form of a written one. -/
structure Table.IsWritable (table : Table) : Prop where
  tag : ∀ tag ∈ table.tag, IsTag tag
  columnTags : ∀ source tag, table.columnTags.get? source = some tag -> IsTag tag
  measureTags : ∀ name tag, table.measureTags.get? name = some tag -> IsTag tag
  columns : ∀ source column, table.columns.get? source = some column -> column.IsWritable
  measures : ∀ measure ∈ table.measures, measure.block.IsNested ∧
    1 ≤ measure.block.depth ∧ measure.block.hasHeader "measure" = true

theorem isWritable_of_readColumn? {block : Block} {column : Column} (nested : block.IsNested)
    (deep : 1 ≤ block.depth) (read : readColumn? block = some column) : column.IsWritable := by
  obtain ⟨name, _, read⟩ := Option.bind_eq_some_iff.mp read
  obtain ⟨source, _, read⟩ := Option.bind_eq_some_iff.mp read
  cases read
  refine ⟨fun text found => nested.property? found, fun text found => nested.property? found, ?_⟩
  intro annotation member
  obtain ⟨child, inside, read⟩ := List.mem_filterMap.mp member
  obtain ⟨found, _, rfl⟩ := Option.map_eq_some_iff.mp read
  obtain ⟨childNested, deeper⟩ :=
    nested.child_of_hasHeader (by decide : BeginsVisibly "annotation") inside
  exact ⟨childNested, by simp only; omega, (List.mem_filter.mp inside).2⟩

theorem isWritable_of_readTable? {block : Block} {table : Table} (nested : block.IsNested)
    (read : readTable? block = some table) : table.IsWritable := by
  have parts := isReadFrom_of_readTable? read
  refine ⟨?_, ?_, ?_, ?_, ?_⟩
  · intro found member
    rw [parts.tag] at member
    exact isTag_of_lineageTag? member
  · intro source found known
    rw [parts.columnTags] at known
    exact isTag_of_get?_childTags known
  · intro name found known
    rw [parts.measureTags] at known
    exact isTag_of_get?_childTags known
  · intro source column known
    rw [parts.columns] at known
    obtain ⟨entry, inside, same⟩ :=
      List.mem_map.mp (SortedMap.mem_of_mem_ofList (SortedMap.mem_of_get? known))
    obtain ⟨child, childInside, childRead⟩ := List.mem_filterMap.mp inside
    obtain ⟨childNested, deeper⟩ :=
      nested.child_of_hasHeader (by decide : BeginsVisibly "column") childInside
    cases same
    exact isWritable_of_readColumn? childNested (by omega) childRead
  · intro measure member
    rw [parts.measures] at member
    obtain ⟨child, inside, childRead⟩ := List.mem_filterMap.mp member
    obtain ⟨found, _, rfl⟩ := Option.map_eq_some_iff.mp childRead
    obtain ⟨childNested, deeper⟩ :=
      nested.child_of_hasHeader (by decide : BeginsVisibly "measure") inside
    exact ⟨childNested, by simp only; omega, (List.mem_filter.mp inside).2⟩

/-- Whatever the files of a definition set hold, its tables can be written. -/
theorem isWritable_of_get?_tables {definitions : DefinitionSet} {key : Text} {table : Table}
    (found : (Model.ofDefinitions definitions).tables.get? key = some table) : table.IsWritable := by
  obtain ⟨block, member, read⟩ := exists_mem_of_get?_tables found
  obtain ⟨file, _, inside⟩ := List.mem_flatMap.mp (List.mem_filter.mp member).1
  obtain ⟨inside, header⟩ := List.mem_filter.mp inside
  have visible := Block.allBlank_of_hasHeader (by decide) header
  have notDoc : Document.isDoc block.line = false :=
    Block.not_isDoc_of_hasHeader ⟨by decide, by decide⟩ header
  exact isWritable_of_readTable? (Document.isNested_of_mem_ofText inside visible notDoc) read

end Prior

end TabularModel
