import TabularModel.Proofs.Prior.Expressions
import TabularModel.Proofs.Prior.Relationships
import TabularModel.Proofs.Prior.Warnings

/-!
# Tables and columns that people add

People add tables without a logical name and columns without a source column,
anywhere among the written blocks. These are known by their names. As long as the
names are not keys of what is written, nothing that a merge takes over depends on
them.
-/

set_option autoImplicit false

namespace TabularModel

/-- The second list holds the items of the first one in their order, each as far
as it is kept, and further items anywhere between them. -/
inductive Extends {α : Type} (keeps : α -> α -> Prop) (adds : α -> Prop) : List α -> List α -> Prop where
  | nil : Extends keeps adds [] []
  | keep {first second : α} {rest more : List α} (kept : keeps first second)
      (others : Extends keeps adds rest more) : Extends keeps adds (first :: rest) (second :: more)
  | add {added : α} {rest more : List α} (isAdded : adds added)
      (others : Extends keeps adds rest more) : Extends keeps adds rest (added :: more)

namespace Extends

variable {α β : Type} {keeps : α -> α -> Prop} {adds : α -> Prop} {first second : List α}

theorem append {others more : List α} (front : Extends keeps adds first second)
    (back : Extends keeps adds others more) :
    Extends keeps adds (first ++ others) (second ++ more) := by
  induction front with
  | nil => exact back
  | keep kept _ ih => exact .keep kept ih
  | add isAdded _ ih => exact .add isAdded ih

theorem of_adds {more : List α} (all : ∀ item ∈ more, adds item) : Extends keeps adds [] more := by
  induction more with
  | nil => exact .nil
  | cons item more ih =>
      refine .add (all item List.mem_cons_self) (ih ?_)
      exact fun other member => all other (List.mem_cons_of_mem item member)

/-- A test that kept items pass alike. -/
theorem filter {test : α -> Bool} (extension : Extends keeps adds first second)
    (same : ∀ item other, keeps item other -> test item = test other) :
    Extends keeps (fun item => adds item ∧ test item = true) (first.filter test)
      (second.filter test) := by
  induction extension with
  | nil => exact .nil
  | @keep item other rest more kept _ ih =>
      rw [List.filter_cons, List.filter_cons, same item other kept]
      split
      · exact .keep kept ih
      · exact ih
  | @add added rest more isAdded _ ih =>
      rw [List.filter_cons]
      split
      · next passed => exact .add ⟨isAdded, passed⟩ ih
      · exact ih

theorem mono {more : α -> Prop} (extension : Extends keeps adds first second)
    (each : ∀ item, adds item -> more item) : Extends keeps more first second := by
  induction extension with
  | nil => exact .nil
  | keep kept _ ih => exact .keep kept ih
  | add isAdded _ ih => exact .add (each _ isAdded) ih

/-- Without added items there are the kept ones alone. -/
theorem forall₂ (extension : Extends keeps adds first second) (none : ∀ item, ¬ adds item) :
    List.Forall₂ keeps first second := by
  induction extension with
  | nil => exact .nil
  | keep kept _ ih => exact .cons kept ih
  | add isAdded _ _ => exact absurd isAdded (none _)

theorem filter_eq {test : α -> Bool} (extension : Extends Eq adds first second)
    (none : ∀ item, adds item -> test item = false) : first.filter test = second.filter test := by
  induction extension with
  | nil => rfl
  | keep kept _ ih =>
      rw [kept, List.filter_cons, List.filter_cons, ih]
  | add isAdded _ ih => rw [ih, List.filter_cons_of_neg (by simp [none _ isAdded])]

theorem findSome?_eq {read : α -> Option β} (extension : Extends Eq adds first second)
    (none : ∀ item, adds item -> read item = none) :
    first.findSome? read = second.findSome? read := by
  induction extension with
  | nil => rfl
  | keep kept _ ih => rw [kept, List.findSome?_cons, List.findSome?_cons, ih]
  | add isAdded _ ih => rw [ih, List.findSome?_cons, none _ isAdded]

end Extends

/-- The last items of lists that agree item by item. -/
theorem cases_getLast?_of_forall₂ {α β : Type} {related : α -> β -> Prop} {first : List α}
    {second : List β} (each : List.Forall₂ related first second) :
    (first.getLast? = none ∧ second.getLast? = none) ∨
      ∃ item other, first.getLast? = some item ∧ second.getLast? = some other ∧
        related item other := by
  have turned := List.rel_reverse each
  rw [List.getLast?_eq_head?_reverse, List.getLast?_eq_head?_reverse]
  generalize first.reverse = firsts at turned ⊢
  generalize second.reverse = seconds at turned ⊢
  cases turned with
  | nil => exact Or.inl ⟨rfl, rfl⟩
  | cons item _ => exact Or.inr ⟨_, _, rfl, rfl, item⟩

namespace Prior

open Block (changeFirst)

/-! ## What people add -/

/-- Which names a person gives to tables, and to columns of the table under a key. -/
structure Naming where
  table : Text -> Prop
  column : Text -> Text -> Prop

namespace Naming

/-- Any names at all. -/
def any : Naming := ⟨fun _ => True, fun _ _ => True⟩

/-- Names that are no keys of fresh definitions. -/
def besides (fresh : DefinitionSet) : Naming where
  table name := ∀ block ∈ tableBlocks fresh, tableKey? block ≠ some name
  column key name := ∀ block ∈ tableBlocks fresh, tableKey? block = some key ->
    ∀ column ∈ block.childrenWith "column", columnSource? column ≠ some name

variable (naming : Naming)

structure IsUserTable (block : Block) : Prop where
  named : ∃ name, name? "table" block = some name ∧ naming.table name
  unmarked : logicalName? block = none

structure IsUserColumn (key : Text) (block : Block) : Prop where
  named : ∃ name, name? "column" block = some name ∧ naming.column key name
  unsourced : block.property? "sourceColumn" = none

/-- A block that is kept, with columns added if it is a table with a logical name. -/
def KeepsTable (block later : Block) : Prop :=
  block = later ∨ ∃ key children, tableKey? block = some key ∧ (logicalName? block).isSome = true ∧
    later = { block with children := children } ∧
    Extends Eq (naming.IsUserColumn key) block.children children

/-- A file that is kept, with tables and columns added if it is a table file. -/
structure KeepsFile (file later : Text × Text) : Prop where
  path : file.1 = later.1
  blocks : Path.isInTablesFolder file.1 = true -> Extends naming.KeepsTable naming.IsUserTable
    (Document.ofText file.2).blocks (Document.ofText later.2).blocks
  text : Path.isInTablesFolder file.1 = false -> file.2 = later.2

/-- A further table file. -/
structure IsUserFile (file : Text × Text) : Prop where
  path : Path.isInTablesFolder file.1 = true
  blocks : ∀ block ∈ (Document.ofText file.2).blocksWith "table", naming.IsUserTable block

/-- A definition set to which people have added tables and columns. -/
def AddsBlocks (earlier later : DefinitionSet) : Prop :=
  Extends naming.KeepsFile naming.IsUserFile earlier.entries later.entries

end Naming

/-! ## Tables that people extend -/

section

variable {naming : Naming} {key : Text} {block : Block}

theorem Naming.IsUserColumn.begins (added : naming.IsUserColumn key block) :
    block.Begins "column" := by
  obtain ⟨name, named, _⟩ := added.named
  refine Block.begins_of_hasHeader ?_
  obtain ⟨split, header, _⟩ := Option.map_eq_some_iff.mp named
  obtain ⟨rest, found, _⟩ := Option.map_eq_some_iff.mp header
  rw [Block.hasHeader, found]
  rfl

theorem Naming.IsUserColumn.columnSource? (added : naming.IsUserColumn key block) :
    ∃ name, columnSource? block = some name ∧ naming.column key name := by
  obtain ⟨name, named, free⟩ := added.named
  refine ⟨name, ?_, free⟩
  rw [Prior.columnSource?, named, added.unsourced]
  rfl

/-- Columns that are added to a table are neither its tag nor its annotations or
measures. -/
structure SameBesidesColumns (block later : Block) : Prop where
  line : later.line = block.line
  tag : lineageTag? block = lineageTag? later
  annotations : block.childrenWith "annotation" = later.childrenWith "annotation"
  measures : block.childrenWith "measure" = later.childrenWith "measure"

theorem sameBesidesColumns_of_extends {children : List Block}
    (extension : Extends Eq (naming.IsUserColumn key) block.children children) :
    SameBesidesColumns block { block with children := children } where
  line := rfl
  tag := extension.findSome?_eq fun _ added => added.begins.tagOf? (by decide)
  annotations := extension.filter_eq fun _ added => added.begins.hasHeader (by decide)
  measures := extension.filter_eq fun _ added => added.begins.hasHeader (by decide)

theorem Naming.KeepsTable.same {later : Block} (kept : naming.KeepsTable block later) :
    SameBesidesColumns block later := by
  rcases kept with rfl | ⟨key, children, _, _, rfl, extension⟩
  · exact ⟨rfl, rfl, rfl, rfl⟩
  · exact sameBesidesColumns_of_extends extension

theorem SameBesidesColumns.names {later : Block} (same : SameBesidesColumns block later) :
    name? "table" block = name? "table" later ∧ logicalName? block = logicalName? later ∧
      tableKey? block = tableKey? later := by
  have text : later.text = block.text := congrArg Text.trim same.line
  have name : name? "table" block = name? "table" later := by
    rw [name?, name?, nameAndRest?, nameAndRest?, Block.header?, Block.header?, text]
  have logicalName : logicalName? block = logicalName? later := by
    rw [logicalName?, logicalName?, annotationsOf, annotationsOf, same.annotations]
  refine ⟨name, logicalName, ?_⟩
  rw [tableKey?, tableKey?, name, logicalName]

/-- Under a source that is no name of an added column there are the same columns. -/
theorem Naming.KeepsTable.columnBlocksFor {later : Block} (kept : naming.KeepsTable block later)
    (known : tableKey? block = some key) {source : Text} (taken : ¬ naming.column key source) :
    columnBlocksFor block source = columnBlocksFor later source := by
  rcases kept with rfl | ⟨other, children, otherKnown, _, rfl, extension⟩
  · rfl
  · rw [known] at otherKnown
    cases otherKnown
    rw [Prior.columnBlocksFor, Prior.columnBlocksFor, Block.childrenWith, Block.childrenWith,
      List.filter_filter, List.filter_filter]
    refine extension.filter_eq fun column added => ?_
    obtain ⟨name, known, free⟩ := added.columnSource?
    have different : name ≠ source := by
      rintro rfl
      exact taken free
    rw [known]
    simp [different]

/-- Tables from which a merge takes the same over for columns from some sources. -/
structure Table.AgreesOn (sources : Text -> Prop) (table later : Table) : Prop where
  tag : table.tag = later.tag
  columnTags : ∀ source, sources source ->
    table.columnTags.get? source = later.columnTags.get? source
  columns : ∀ source, sources source -> table.columns.get? source = later.columns.get? source
  measureTags : table.measureTags = later.measureTags
  measures : table.measures = later.measures

theorem Naming.KeepsTable.agreesOn {later : Block} (kept : naming.KeepsTable block later)
    (known : tableKey? block = some key) {table other : Table} (read : readTable? block = some table)
    (readLater : readTable? later = some other) :
    table.AgreesOn (fun source => ¬ naming.column key source) other := by
  have parts := isReadFrom_of_readTable? read
  have laterParts := isReadFrom_of_readTable? readLater
  have same := kept.same
  have name : table.name = other.name := by
    have names := same.names.1
    rw [parts.name, laterParts.name] at names
    exact Option.some.inj names
  refine ⟨?_, fun source taken => ?_, fun source taken => ?_, ?_, ?_⟩
  · rw [parts.tag, laterParts.tag, same.tag]
  · have columns := kept.columnBlocksFor known taken
    rw [Prior.columnBlocksFor, Prior.columnBlocksFor] at columns
    rw [parts.columnTags, laterParts.columnTags, get?_childTags, get?_childTags, columns]
  · rw [get?_columns parts, get?_columns laterParts, kept.columnBlocksFor known taken]
  · rw [parts.measureTags, laterParts.measureTags, childTags, childTags, same.measures]
  · rw [parts.measures, laterParts.measures, same.measures, name]

end

/-! ## What a merge takes over -/

theorem filter_changeFirst {test keep : Block -> Bool} {change : Block -> Block}
    (apart : ∀ block, test block = true -> keep block = false ∧ keep (change block) = false)
    (blocks : List Block) :
    (Block.changeFirst test change blocks).filter keep = blocks.filter keep := by
  induction blocks with
  | nil => rfl
  | cons block blocks ih =>
      rw [Block.changeFirst]
      split
      · next found =>
          obtain ⟨before, after⟩ := apart block found
          rw [List.filter_cons_of_neg (Bool.eq_false_iff.mp before),
            List.filter_cons_of_neg (Bool.eq_false_iff.mp after)]
      · rw [List.filter_cons, List.filter_cons, ih]

/-- A tag that is taken over leaves the other members as they are. -/
theorem childrenWith_takeTag (tag : Option Text) (block : Block) {keyword : Text}
    (other : Text.differ keyword "lineageTag" = true) :
    (takeTag tag block).childrenWith keyword = block.childrenWith keyword := by
  cases tag with
  | none => rfl
  | some tag =>
      refine filter_changeFirst (fun child found => ⟨?_, ?_⟩) block.children
      · exact (begins_of_isProperty found).hasHeader other
      · have begins : Block.Begins "lineageTag"
            { child with line := Block.propertyLine child.depth "lineageTag" tag } := by
          obtain ⟨rest, shape⟩ :=
            Block.begins_property "lineageTag" child.depth tag [] [] (by decide)
          have line : Block.propertyLine child.depth "lineageTag" tag =
              Line.tabs child.depth ++ propertyContent "lineageTag" tag := by
            rw [Block.propertyLine, propertyContent, List.append_assoc, List.append_assoc]
          exact ⟨rest, (congrArg Text.trim line).trans shape⟩
        exact begins.hasHeader other

theorem Table.AgreesOn.mergeColumn {sources : Text -> Prop} {table later : Table}
    (agrees : table.AgreesOn sources later) {column : Block}
    (used : ∀ source, columnSource? column = some source -> sources source) :
    mergeColumn table column = mergeColumn later column := by
  rw [Prior.mergeColumn, Prior.mergeColumn]
  cases known : columnSource? column with
  | none => rfl
  | some source =>
      simp only
      rw [agrees.columnTags source (used source known), agrees.columns source (used source known)]

theorem Table.AgreesOn.mergeTable {sources : Text -> Prop} {table later : Table}
    (agrees : table.AgreesOn sources later) {fresh : Block}
    (used : ∀ column ∈ fresh.childrenWith "column", ∀ source,
      columnSource? column = some source -> sources source) :
    mergeTable table fresh = mergeTable later fresh := by
  have measure : mergeMeasure table = mergeMeasure later := by
    funext block
    rw [mergeMeasure, mergeMeasure, agrees.measureTags]
  have kept : keptMeasures table fresh = keptMeasures later fresh := by
    rw [keptMeasures, keptMeasures, Table.userMeasures, Table.userMeasures, agrees.measures]
  have columns : (takeTag later.tag fresh).changeWith "column" (Prior.mergeColumn table) =
      (takeTag later.tag fresh).changeWith "column" (Prior.mergeColumn later) := by
    rw [Block.changeWith, Block.changeWith]
    congr 1
    refine List.map_congr_left fun child member => ?_
    split
    · next header =>
        have inside : child ∈ (takeTag later.tag fresh).childrenWith "column" :=
          List.mem_filter.mpr ⟨member, header⟩
        rw [childrenWith_takeTag _ _ (by decide)] at inside
        exact agrees.mergeColumn (used child inside)
    · rfl
  rw [Prior.mergeTable, Prior.mergeTable, measure, kept, agrees.tag, columns]

section

variable {naming : Naming} {prior later : DefinitionSet}

/-- Table blocks are kept, and tables of people come between them. -/
theorem Naming.AddsBlocks.tableBlocks (adds : naming.AddsBlocks prior later) :
    Extends naming.KeepsTable naming.IsUserTable (tableBlocks prior) (tableBlocks later) := by
  have header {block other : Block} (kept : naming.KeepsTable block other) :
      block.hasHeader "table" = other.hasHeader "table" := by
    rw [Block.hasHeader, Block.hasHeader, Block.header?, Block.header?, Block.text, Block.text,
      kept.same.line]
  have step (files more : List (Text × Text))
      (extension : Extends naming.KeepsFile naming.IsUserFile files more) :
      Extends naming.KeepsTable naming.IsUserTable
        ((files.filter fun file => Path.isInTablesFolder file.1).flatMap fun file =>
          (Document.ofText file.2).blocksWith "table")
        ((more.filter fun file => Path.isInTablesFolder file.1).flatMap fun file =>
          (Document.ofText file.2).blocksWith "table") := by
    induction extension with
    | nil => exact .nil
    | @keep file other rest more kept _ ih =>
        rw [List.filter_cons, List.filter_cons, ← kept.path]
        split
        · next isTable =>
            rw [List.flatMap_cons, List.flatMap_cons]
            have blocks := (kept.blocks isTable).filter fun _ _ => header
            exact (blocks.mono fun _ isAdded => isAdded.1).append ih
        · exact ih
    | @add file rest more isAdded _ ih =>
        rw [List.filter_cons, if_pos isAdded.path, List.flatMap_cons]
        exact (Extends.of_adds isAdded.blocks).append ih
  exact step _ _ adds

theorem Naming.IsUserTable.tableKey? {block : Block} (added : naming.IsUserTable block) :
    ∃ name, tableKey? block = some name ∧ naming.table name := by
  obtain ⟨name, named, free⟩ := added.named
  refine ⟨name, ?_, free⟩
  rw [Prior.tableKey?, named, added.unmarked]
  rfl

/-- Under a key that is no name of an added table there are tables that agree. -/
theorem Naming.AddsBlocks.get?_tables (adds : naming.AddsBlocks prior later) {key : Text}
    (taken : ¬ naming.table key) :
    ((Model.ofDefinitions prior).tables.get? key = none ∧
        (Model.ofDefinitions later).tables.get? key = none) ∨
      ∃ table other, (Model.ofDefinitions prior).tables.get? key = some table ∧
        (Model.ofDefinitions later).tables.get? key = some other ∧
        table.AgreesOn (fun source => ¬ naming.column key source) other := by
  have each : List.Forall₂ naming.KeepsTable (tableBlocksFor prior key)
      (tableBlocksFor later key) := by
    refine (adds.tableBlocks.filter fun _ _ kept => ?_).forall₂ ?_
    · rw [kept.same.names.2.2]
    · rintro block ⟨added, known⟩
      obtain ⟨name, named, free⟩ := added.tableKey?
      rw [named] at known
      have same : name = key := by simpa using known
      exact taken (same ▸ free)
  rw [Prior.get?_tables, Prior.get?_tables]
  rcases cases_getLast?_of_forall₂ each with ⟨none, laterNone⟩ | ⟨block, other, last, laterLast, kept⟩
  · rw [none, laterNone]
    exact Or.inl ⟨rfl, rfl⟩
  · have known : tableKey? block = some key := by
      simpa using (List.mem_filter.mp (List.mem_of_getLast? last)).2
    obtain ⟨table, read, _⟩ := exists_readTable? known
    obtain ⟨found, readLater, _⟩ := exists_readTable? (kept.same.names.2.2 ▸ known)
    rw [last, laterLast]
    exact Or.inr ⟨table, found, read, readLater, kept.agreesOn known read readLater⟩

/-- Files besides the table files are the same. -/
theorem Naming.AddsBlocks.get?_other (adds : naming.AddsBlocks prior later) {path : Text}
    (other : Path.isInTablesFolder path = false) : prior.get? path = later.get? path := by
  rw [SortedMap.get?, SortedMap.get?]
  have step (files more : List (Text × Text))
      (extension : Extends naming.KeepsFile naming.IsUserFile files more) :
      (files.find? (·.1 == path)).map (·.2) = (more.find? (·.1 == path)).map (·.2) := by
    induction extension with
    | nil => rfl
    | @keep file changed rest more kept _ ih =>
        by_cases same : file.1 = path
        · rw [List.find?_cons_of_pos (by simpa using same),
            List.find?_cons_of_pos (by simpa [← kept.path] using same)]
          exact congrArg some (kept.text (same ▸ other))
        · rw [List.find?_cons_of_neg (by simpa using same),
            List.find?_cons_of_neg (by simpa [← kept.path] using same), ih]
    | @add file rest more isAdded _ ih =>
        have different : ¬ file.1 = path := by
          rintro rfl
          rw [isAdded.path] at other
          cases other
        rw [ih, List.find?_cons_of_neg (by simpa using different)]
  exact step _ _ adds

end

variable {fresh prior later : DefinitionSet}

/-- Tables of the fresh definitions take over the same. -/
theorem Naming.AddsBlocks.mergeTables
    (adds : (Naming.besides fresh).AddsBlocks prior later) {file : Text × Text}
    (member : file ∈ fresh.entries) (isTable : Path.isInTablesFolder file.1 = true) :
    mergeTables (.ofDefinitions later) (.ofText file.2) =
      mergeTables (.ofDefinitions prior) (.ofText file.2) := by
  rw [Prior.mergeTables, Prior.mergeTables, Document.changeWith, Document.changeWith]
  congr 1
  refine List.map_congr_left fun block inside => ?_
  split
  · next header =>
      have isFresh : block ∈ Prior.tableBlocks fresh :=
        List.mem_flatMap.mpr ⟨file, List.mem_filter.mpr ⟨member, isTable⟩,
          List.mem_filter.mpr ⟨inside, header⟩⟩
      cases known : tableKey? block with
      | none => rfl
      | some key =>
          have taken : ¬ (Naming.besides fresh).table key := fun free => free block isFresh known
          simp only [Option.bind_some]
          rcases adds.get?_tables taken with ⟨none, laterNone⟩ | ⟨table, other, found, laterFound, agrees⟩
          · rw [none, laterNone]
          · rw [found, laterFound]
            refine (agrees.mergeTable ?_).symm
            intro column columnInside source sourced free
            exact free block isFresh known column columnInside sourced
  · rfl

theorem mergeRelationships_congr {earlier other : Model}
    (same : earlier.relationships = other.relationships) (document : Document) :
    mergeRelationships earlier document = mergeRelationships other document := by
  have named : mergeRelationship earlier = mergeRelationship other := by
    funext block
    have known : earlier.relationship? = other.relationship? := by
      funext key
      rw [Model.relationship?, Model.relationship?, same]
    rw [mergeRelationship, mergeRelationship, known]
  rw [mergeRelationships, mergeRelationships, named, Model.userRelationships,
    Model.userRelationships, same]

theorem Naming.AddsBlocks.relationships {naming : Naming} (adds : naming.AddsBlocks prior later) :
    (Model.ofDefinitions later).relationships = (Model.ofDefinitions prior).relationships := by
  rw [Model.relationships_ofDefinitions, Model.relationships_ofDefinitions,
    adds.get?_other (by decide)]

theorem Naming.AddsBlocks.expressionTags {naming : Naming} (adds : naming.AddsBlocks prior later) :
    (Model.ofDefinitions later).expressionTags = (Model.ofDefinitions prior).expressionTags := by
  rw [Model.expressionTags_ofDefinitions, Model.expressionTags_ofDefinitions,
    adds.get?_other (by decide)]

theorem Naming.AddsBlocks.mergeFile (adds : (Naming.besides fresh).AddsBlocks prior later)
    {file : Text × Text} (member : file ∈ fresh.entries) :
    mergeFile (.ofDefinitions later) file.1 file.2 =
      mergeFile (.ofDefinitions prior) file.1 file.2 := by
  rw [Prior.mergeFile, Prior.mergeFile]
  split
  · next isTable => rw [adds.mergeTables member isTable]
  · rw [mergeRelationships_congr adds.relationships, mergeExpressions, mergeExpressions,
      adds.expressionTags]

end Prior

open Prior (Naming)

/-- Tables and columns that people add under names that are no keys of the fresh
definitions change nothing in the result of a merge. -/
theorem merge_eq_of_addsBlocks {fresh prior later : DefinitionSet}
    (adds : (Naming.besides fresh).AddsBlocks prior later) :
    merge fresh (.ofDefinitions later) = merge fresh (.ofDefinitions prior) := by
  have files : fresh.mapValues (Prior.mergeFile (.ofDefinitions later)) =
      fresh.mapValues (Prior.mergeFile (.ofDefinitions prior)) := by
    refine SortedMap.ext_entries (List.map_congr_left fun file member => ?_)
    rw [adds.mergeFile member]
  rw [merge, merge, files, Prior.mergeRelationships_congr adds.relationships]

/-- A column of a person in a table of its own source columns. -/
theorem merge_eq_of_addsBlocks_margin :
    let path : Text := "definition/tables/A.tmdl"
    let table (tag user : Text) : Text := "table A\n\tcolumn R\n\t\tlineageTag: " ++ tag ++
      "\n\t\tsourceColumn: r\n" ++ user ++ "\tannotation SemforgeLogicalName = a\n"
    let fresh : DefinitionSet := .ofList [(path, table "new" "")]
    let prior : DefinitionSet := .ofList [(path, table "old" "")]
    let later : DefinitionSet := .ofList [(path, table "old" "\tcolumn M\n\t\tlineageTag: mine\n")]
    (Naming.besides fresh).AddsBlocks prior later ∧
      merge fresh (.ofDefinitions later) = merge fresh (.ofDefinitions prior) := by
  intro path table fresh prior later
  have read : (Document.ofText (table "old" "")).blocks =
      [⟨[], "table A", [⟨[], "\tcolumn R", [⟨[], "\t\tlineageTag: old", []⟩,
        ⟨[], "\t\tsourceColumn: r", []⟩]⟩, ⟨[], "\tannotation SemforgeLogicalName = a", []⟩]⟩] := by
    set_option maxRecDepth 20000 in rfl
  have readLater : (Document.ofText (table "old" "\tcolumn M\n\t\tlineageTag: mine\n")).blocks =
      [⟨[], "table A", [⟨[], "\tcolumn R", [⟨[], "\t\tlineageTag: old", []⟩,
        ⟨[], "\t\tsourceColumn: r", []⟩]⟩, ⟨[], "\tcolumn M", [⟨[], "\t\tlineageTag: mine", []⟩]⟩,
        ⟨[], "\tannotation SemforgeLogicalName = a", []⟩]⟩] := by
    set_option maxRecDepth 20000 in rfl
  have free : (Naming.besides fresh).column "a" "M" := by
    show ∀ block ∈ Prior.tableBlocks fresh, Prior.tableKey? block = some "a" ->
      ∀ column ∈ block.childrenWith "column", Prior.columnSource? column ≠ some "M"
    decide +kernel
  have adds : (Naming.besides fresh).AddsBlocks prior later := by
    refine .keep ⟨rfl, fun _ => ?_, fun other => ?_⟩ .nil
    · rw [read, readLater]
      refine .keep (Or.inr ⟨"a", _, by decide +kernel, by decide +kernel, rfl, ?_⟩) .nil
      refine .keep rfl (.add ⟨⟨"M", by decide +kernel, free⟩, by decide +kernel⟩ (.keep rfl .nil))
    · cases other
  exact ⟨adds, merge_eq_of_addsBlocks adds⟩

/-- A column of a person takes the place of the one whose source it is named like. -/
theorem merge_ne_of_addsBlocks :
    let path : Text := "definition/tables/A.tmdl"
    let table (tag user : Text) : Text := "table A\n\tcolumn R\n\t\tlineageTag: " ++ tag ++
      "\n\t\tsourceColumn: r\n" ++ user ++ "\tannotation SemforgeLogicalName = a\n"
    let fresh : DefinitionSet := .ofList [(path, table "new" "")]
    let prior : DefinitionSet := .ofList [(path, table "old" "")]
    let later : DefinitionSet := .ofList [(path, table "old" "\tcolumn r\n\t\tlineageTag: mine\n")]
    Naming.any.AddsBlocks prior later ∧
      (merge fresh (.ofDefinitions prior)).get? path = some (table "old" "") ∧
      (merge fresh (.ofDefinitions later)).get? path = some (table "mine" "") := by
  intro path table fresh prior later
  have read : (Document.ofText (table "old" "")).blocks =
      [⟨[], "table A", [⟨[], "\tcolumn R", [⟨[], "\t\tlineageTag: old", []⟩,
        ⟨[], "\t\tsourceColumn: r", []⟩]⟩, ⟨[], "\tannotation SemforgeLogicalName = a", []⟩]⟩] := by
    set_option maxRecDepth 20000 in rfl
  have readLater : (Document.ofText (table "old" "\tcolumn r\n\t\tlineageTag: mine\n")).blocks =
      [⟨[], "table A", [⟨[], "\tcolumn R", [⟨[], "\t\tlineageTag: old", []⟩,
        ⟨[], "\t\tsourceColumn: r", []⟩]⟩, ⟨[], "\tcolumn r", [⟨[], "\t\tlineageTag: mine", []⟩]⟩,
        ⟨[], "\tannotation SemforgeLogicalName = a", []⟩]⟩] := by
    set_option maxRecDepth 20000 in rfl
  refine ⟨.keep ⟨rfl, fun _ => ?_, fun other => ?_⟩ .nil, by decide +kernel, by decide +kernel⟩
  · rw [read, readLater]
    refine .keep (Or.inr ⟨"a", _, by decide +kernel, by decide +kernel, rfl, ?_⟩) .nil
    exact .keep rfl
      (.add ⟨⟨"r", by decide +kernel, trivial⟩, by decide +kernel⟩ (.keep rfl .nil))
  · cases other

end TabularModel
