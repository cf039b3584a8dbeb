import TabularModel.Proofs.Generation.Files
import TabularModel.Proofs.Prior.Rereading
import TabularModel.Proofs.Prior.Tables

/-!
# Identity over regenerations

A table is known by its logical name and a column by its column in the row
source, whatever the earlier files are called and whatever else stands in them.
A merged table file is read again, and the tags that are found there are those
of the earlier blocks under these keys; what had no earlier block keeps its
fresh tag.
-/

set_option autoImplicit false

namespace TabularModel

open Prior (IsTag Annotation annotationOf? lineageTag? tableKey? columnSource? tableBlocksFor columnBlocksFor mergeTable)

namespace Definition

/-! ## Merged states are written -/

theorem ColumnState.mem_foldl_takeAmong {earlier : List Annotation} {annotations : List Block}
    {block : Block} (member : block ∈ earlier.foldl takeAmong annotations) :
    block ∈ annotations ∨ ∃ annotation ∈ earlier, annotation.block = block := by
  induction earlier generalizing annotations with
  | nil => exact Or.inl member
  | cons annotation earlier ih =>
      rcases ih member with taken | ⟨found, inside, same⟩
      · have mine : block ∈ annotations ∨ annotation.block = block := by
          rw [takeAmong] at taken
          split at taken
          · rcases Block.mem_changeFirst taken with kept | ⟨changed, _, same⟩
            · exact Or.inl kept
            · exact Or.inr same
          · rcases List.mem_append.mp taken with kept | added
            · exact Or.inl kept
            · exact Or.inr (List.mem_singleton.mp added).symm
        rcases mine with kept | same
        · exact Or.inl kept
        · exact Or.inr ⟨_, List.mem_cons_self, same⟩
      · exact Or.inr ⟨found, List.mem_cons_of_mem annotation inside, same⟩

namespace Column

variable {column : Column}

theorem isWritten_freshState (single : column.HasSingleLines) {tag : Text} (isTag : IsTag tag) :
    (column.freshState tag).IsWritten := by
  have summary : Text.IsSingleLine column.summary := by
    rw [Column.summary]
    split <;> decide
  refine ⟨isTag, single.format, summary, ?_⟩
  intro block member
  have level := areAt_summarizationNode block member
  rw [List.mem_singleton.mp member] at level ⊢
  exact ⟨level.1, level.2.ge, Block.hasHeader_annotation 2 _ _ _ _⟩

/-- A merge takes over what can be written. -/
theorem isWritten_merged {state : ColumnState} (written : state.IsWritten) {earlier : Prior.Table}
    (writable : earlier.IsWritable) (source : Text) : (state.merged earlier source).IsWritten := by
  have tag : IsTag ((earlier.columnTags.get? source).getD state.tag) :=
    Prior.isTag_getD (writable.columnTags source) written.tag
  rw [ColumnState.merged]
  cases known : earlier.columns.get? source with
  | none => exact ⟨tag, written.format, written.summary, written.annotations⟩
  | some found =>
      have formatting := writable.columns source found known
      refine ⟨tag, ?_, ?_, ?_⟩
      · intro text member
        simp only [ColumnState.formatted] at member
        cases given : found.formatString with
        | none =>
            rw [given] at member
            exact written.format text member
        | some format =>
            rw [given] at member
            rw [← Option.some.inj member]
            exact (formatting.format format given).2
      · simp only [ColumnState.formatted]
        cases given : found.summarizeBy with
        | none => exact written.summary
        | some summary => exact (formatting.summary summary given).2
      · intro block member
        rcases ColumnState.mem_foldl_takeAmong member with kept | ⟨taken, inside, rfl⟩
        · exact written.annotations block kept
        · exact formatting.annotations taken inside

/-! ## What is read from a column -/

theorem IsReread.columnSource? {state : ColumnState} {block : Block}
    (reread : column.IsReread state block) :
    Prior.columnSource? block = some (Text.trim column.source) := by
  obtain ⟨more, lines⟩ := reread.members
  exact column.columnSource?_of_lines reread.line lines

theorem IsReread.lineageTag? {state : ColumnState} {block : Block} (isTag : IsTag state.tag)
    (reread : column.IsReread state block) : Prior.lineageTag? block = some state.tag := by
  obtain ⟨more, lines⟩ := reread.members
  exact column.lineageTag?_of_lines isTag lines

theorem isReread_block (state : ColumnState) : column.IsReread state (column.block state) :=
  ⟨rfl, state.annotations, rfl⟩

theorem tag_merged (state : ColumnState) (earlier : Prior.Table) (source : Text) :
    (state.merged earlier source).tag = (earlier.columnTags.get? source).getD state.tag := by
  rw [ColumnState.merged]
  cases earlier.columns.get? source <;> rfl

end Column

namespace TableOutline

variable {outline : TableOutline}

theorem IsReread.tableKey? {tag : Text} {states : Column -> ColumnState} {block : Block}
    (reread : outline.IsReread tag states block) :
    Prior.tableKey? block = some (Text.trim outline.logicalName) := by
  obtain ⟨middle, lines, none⟩ := reread.members
  exact outline.tableKey?_of_lines reread.line lines none

theorem IsReread.lineageTag? {tag : Text} (isTag : IsTag tag) {states : Column -> ColumnState}
    {block : Block} (reread : outline.IsReread tag states block) :
    Prior.lineageTag? block = some tag := by
  obtain ⟨middle, lines, _⟩ := reread.members
  rw [List.append_assoc] at lines
  exact outline.lineageTag?_of_lines isTag lines

/-- The state of each column of a written file. -/
def freshColumn (tag : Member -> Text) (column : Column) : ColumnState :=
  column.freshState (tag (.column column.source))

/-- A block in the shape of the outline has its lines. -/
theorem isReread_block (outline : TableOutline) {state : TableState} {states : Column -> ColumnState}
    (columns : state.columns = outline.columns.map fun column => column.block (states column))
    (measures : ∀ block ∈ state.measures, block.hasHeader "measure" = true) :
    outline.IsReread state.tag states (outline.block state) := by
  have isColumn : ∀ block ∈ state.columns, annotationOf? block = none := by
    intro block member
    rw [columns] at member
    exact (begins_of_mem_columns member).annotationOf? (by decide)
  refine ⟨rfl, ⟨outline.countNodes state.countTag ++ state.columns ++ state.measures ++
    [outline.partitionNode], ?_, ?_⟩, ?_, ?_⟩
  · rw [children_block, members]
    simp
  · intro block member
    rw [List.mem_append, List.mem_append, List.mem_append] at member
    rcases member with ((member | member) | member) | member
    · exact (outline.begins_of_mem_countNodes member).annotationOf? (by decide)
    · exact isColumn block member
    · exact (Block.begins_of_hasHeader (measures block member)).annotationOf? (by decide)
    · rw [List.mem_singleton.mp member]
      exact outline.begins_partitionNode.annotationOf? (by decide)
  · rw [childrenWith_column_of_states columns measures, List.forall₂_map_right_iff,
      List.forall₂_same]
    exact fun column _ => column.isReread_block _
  · rw [children_block, members, outline.map_line_countNodes [] state.countTag]
    refine List.map_subset _ fun block member => ?_
    simp [member]

/-- The written block has the lines of a table in its first state. -/
theorem isReread_freshState (outline : TableOutline) (tag : Member -> Text) :
    outline.IsReread (tag .table) (freshColumn tag) (outline.block (outline.freshState tag)) := by
  have none : ∀ block ∈ (outline.freshState tag).measures, block.hasHeader "measure" = true := by
    simp [freshState]
  exact outline.isReread_block rfl none

/-- What becomes of a table that is known. -/
theorem exists_isReread_mergeTable (readable : outline.IsReadable) {tag : Member -> Text}
    (tags : ∀ member, IsTag (tag member)) {earlier : Prior.Table} (writable : earlier.IsWritable) :
    ∃ table, Document.ofText (Document.render
        ⟨[mergeTable earlier (outline.block (outline.freshState tag))], true⟩) = ⟨[table], true⟩ ∧
      outline.IsReread (earlier.tag.getD (tag .table))
        (fun column => (freshColumn tag column).merged earlier (Text.trim column.source)) table := by
  have tableTag : IsTag (earlier.tag.getD (tag .table)) := Prior.isTag_getD writable.tag (tags .table)
  have countTag : IsTag (outline.mergedState earlier tag).countTag :=
    Prior.isTag_getD (writable.measureTags _) (tags _)
  rw [mergeTable_block]
  refine exists_isReread readable (fun column =>
    (freshColumn tag column).merged earlier (Text.trim column.source)) tableTag countTag.isSingleLine
    rfl ?_ ?_
  · intro column member
    exact Column.isWritten_merged (Column.isWritten_freshState (readable.columns column member) (tags _))
      writable _
  · intro block member
    obtain ⟨measure, inside, rfl⟩ := List.mem_map.mp member
    exact writable.measures measure (List.mem_of_mem_filter (List.mem_of_mem_filter inside))

end TableOutline

end Definition

/-! ## Tags over a merge -/

namespace Prior

/-- How a column gets its tag, where `tables` are the earlier blocks of its table:
from the only earlier column of its source, and without one the fresh tag. -/
structure TakesColumnTag (tables : List Block) (source freshTag : Text) (fresh merged : Block) :
    Prop where
  freshColumn : columnSource? fresh = some source ∧ lineageTag? fresh = some freshTag
  sameSource : columnSource? merged = some source
  taken : ∀ table column tag, tables = [table] -> columnBlocksFor table source = [column] ->
    lineageTag? column = some tag -> lineageTag? merged = some tag
  kept : (∀ table ∈ tables, columnBlocksFor table source = []) ->
    lineageTag? merged = some freshTag

/-- How a table gets its tags, where `tables` are the earlier blocks with its key. -/
structure TakesTags (tables : List Block) (key freshTag : Text) (fresh merged : Block) : Prop where
  freshTable : tableKey? fresh = some key ∧ lineageTag? fresh = some freshTag
  sameKey : tableKey? merged = some key
  taken : ∀ table tag, tables = [table] -> lineageTag? table = some tag ->
    lineageTag? merged = some tag
  kept : tables = [] -> lineageTag? merged = some freshTag
  columns : List.Forall₂
    (fun freshColumn column => ∃ source tag, TakesColumnTag tables source tag freshColumn column)
    (fresh.childrenWith "column") (merged.childrenWith "column")

end Prior

/-- What is related to the same elements in the same order is related. -/
theorem forall₂_of_common {α β γ : Type} {first : α -> β -> Prop} {second : α -> γ -> Prop}
    {common : List α} {left : List β} {right : List γ} (ofLeft : List.Forall₂ first common left)
    (ofRight : List.Forall₂ second common right) :
    List.Forall₂ (fun x y => ∃ c ∈ common, first c x ∧ second c y) left right := by
  induction ofLeft generalizing right with
  | nil =>
      cases ofRight
      exact .nil
  | @cons c x common left related _ ih =>
      cases ofRight with
      | cons head tail =>
          refine .cons ⟨c, List.mem_cons_self, related, head⟩ ((ih tail).imp ?_)
          rintro y z ⟨d, inside, both⟩
          exact ⟨d, List.mem_cons_of_mem c inside, both⟩

namespace Definition.TableOutline

variable {outline : TableOutline} {tag : Member -> Text}

/-- A block with the lines of a table takes its tags from an earlier set if its
tags are those under its key and under the sources of its columns. -/
theorem takesTags_of_isReread {definitions : DefinitionSet} {known : Option Prior.Table}
    (found : (Prior.Model.ofDefinitions definitions).tables.get? (Text.trim outline.logicalName) =
      known)
    (tags : ∀ member, IsTag (tag member)) {tableTag : Text} (isTag : IsTag tableTag)
    (ofTable : tableTag = (known.bind (·.tag)).getD (tag .table)) {states : Column -> ColumnState}
    (isTags : ∀ column ∈ outline.columns, IsTag (states column).tag)
    (ofColumns : ∀ column, (states column).tag =
      (known.bind fun table => table.columnTags.get? (Text.trim column.source)).getD
        (tag (.column column.source)))
    {merged : Block} (reread : outline.IsReread tableTag states merged) :
    Prior.TakesTags (tableBlocksFor definitions (Text.trim outline.logicalName))
      (Text.trim outline.logicalName) (tag .table) (outline.block (outline.freshState tag))
      merged := by
  have fresh := isReread_freshState outline tag
  refine ⟨⟨fresh.tableKey?, fresh.lineageTag? (tags .table)⟩, reread.tableKey?, ?_, ?_, ?_⟩
  · intro table tag single tagged
    obtain ⟨earlier, entered, read⟩ := Prior.exists_get?_tables single
    rw [found] at entered
    have same : earlier.tag = some tag := by
      rw [(Prior.isReadFrom_of_readTable? read).tag, tagged]
    rw [reread.lineageTag? isTag, ofTable, entered, Option.bind_some, same, Option.getD_some]
  · intro absent
    have unknown := Prior.get?_tables_eq_none absent
    rw [found] at unknown
    rw [reread.lineageTag? isTag, ofTable, unknown, Option.bind_none, Option.getD_none]
  · refine (forall₂_of_common fresh.columns reread.columns).imp ?_
    rintro freshColumn mergedColumn ⟨column, inside, first, second⟩
    refine ⟨Text.trim column.source, tag (.column column.source),
      ⟨first.columnSource?, first.lineageTag? (tags _)⟩, second.columnSource?, ?_, ?_⟩
    · intro table child childTag single only tagged
      obtain ⟨earlier, entered, read⟩ := Prior.exists_get?_tables single
      rw [found] at entered
      have same : earlier.columnTags.get? (Text.trim column.source) = some childTag := by
        rw [(Prior.isReadFrom_of_readTable? read).columnTags]
        exact Prior.get?_childTags_of_single only tagged
      rw [second.lineageTag? (isTags column inside), ofColumns column, entered, Option.bind_some,
        same, Option.getD_some]
    · intro absent
      have none : (known.bind fun table => table.columnTags.get? (Text.trim column.source)) =
          none := by
        cases entered : known with
        | none => rfl
        | some earlier =>
            rw [entered] at found
            obtain ⟨block, member, read⟩ := Prior.exists_mem_of_get?_tables found
            rw [Option.bind_some, (Prior.isReadFrom_of_readTable? read).columnTags]
            exact Prior.get?_childTags_of_absent (absent block member)
      rw [second.lineageTag? (isTags column inside), ofColumns column, none, Option.getD_none]

/-- A written table file that is merged with an earlier set holds one table
again, which takes its tags from there. -/
theorem exists_takesTags {text : Text} (written : Generation.IsTableText outline tag text)
    (definitions : DefinitionSet) {path : Text} (isTable : Path.isInTablesFolder path = true) :
    ∃ merged, Document.ofText (Prior.mergeFile (.ofDefinitions definitions) path text) =
        ⟨[merged], true⟩ ∧
      Prior.TakesTags (tableBlocksFor definitions (Text.trim outline.logicalName))
        (Text.trim outline.logicalName) (tag .table) (outline.block (outline.freshState tag))
        merged := by
  have fresh := isReread_freshState outline tag
  rw [mergeFile_of_ofText _ isTable written.ofText fresh.tableKey?]
  cases found : (Prior.Model.ofDefinitions definitions).tables.get? (Text.trim outline.logicalName) with
  | none =>
      have nested := isNested_freshState written.readable fun member =>
        (written.tags member).isSingleLine
      exact ⟨_, Document.ofText_render [_] (by simp) (by simpa using nested)
          (List.pairwise_singleton _ _),
        takesTags_of_isReread found written.tags (written.tags .table) rfl
          (fun _ _ => written.tags _) (fun _ => rfl) fresh⟩
  | some earlier =>
      have writable := Prior.isWritable_of_get?_tables found
      obtain ⟨merged, read, reread⟩ :=
        exists_isReread_mergeTable written.readable written.tags writable
      have tableTag : IsTag (earlier.tag.getD (tag .table)) :=
        Prior.isTag_getD writable.tag (written.tags .table)
      refine ⟨merged, read, takesTags_of_isReread found written.tags tableTag rfl ?_ ?_ reread⟩
      · intro column inside
        exact (Column.isWritten_merged (Column.isWritten_freshState
          (written.readable.columns column inside) (written.tags _)) writable _).tag
      · exact fun column => Column.tag_merged _ _ _

end Definition.TableOutline

/-! ## Generated sets -/

/-- Identity is keyed on stable names alone. Every table file of a generated set
holds one table, and so does the file that a merge with any earlier set makes of
it. The table and its columns take their tags from the earlier blocks with the
same key and the same sources, and keep the fresh tags where there are none. -/
theorem Prior.merge_takesTags {options : Generation.Options} {supply : Generation.Supply}
    {selection : Catalog.Selection} {output : Generation.Output}
    (generated : Generation.generate options supply selection = .ok output)
    (names : ∀ plan ∈ Generation.plans options selection, plan.HasSingleLines)
    (tags : ∀ slot, IsTag (supply slot)) (earlier : DefinitionSet) {path text : Text}
    (isTable : Path.isInTablesFolder path = true)
    (isFresh : output.definitions.get? path = some text) :
    ∃ mergedText fresh merged key tag,
      (merge output.definitions (.ofDefinitions earlier)).get? path = some mergedText ∧
      (Document.ofText text).blocksWith "table" = [fresh] ∧
      (Document.ofText mergedText).blocksWith "table" = [merged] ∧
      TakesTags (tableBlocksFor earlier key) key tag fresh merged := by
  obtain ⟨relationships, isGenerated⟩ := Generation.exists_isGenerated generated
  have inside := SortedMap.mem_of_get? isFresh
  rw [isGenerated.definitions] at inside
  obtain ⟨outline, tag, written⟩ := Generation.exists_isTableText names tags
    (SortedMap.mem_of_mem_ofList inside) isTable
  obtain ⟨merged, read, takes⟩ := Definition.TableOutline.exists_takesTags written earlier isTable
  have tables {block : Block} (header : block.hasHeader "table" = true) :
      Document.blocksWith ⟨[block], true⟩ "table" = [block] := by
    rw [Document.blocksWith, List.filter_cons_of_pos header, List.filter_nil]
  refine ⟨mergeFile (.ofDefinitions earlier) path text, outline.block (outline.freshState tag),
    merged, _, _, ?_, ?_, ?_, takes⟩
  · rw [get?_merge_of_ne _ _ (relationships_ne_of_isInTablesFolder isTable), isFresh,
      Option.map_some]
  · rw [written.ofText]
    exact tables (hasHeader_of_tableKey? takes.freshTable.1)
  · rw [read]
    exact tables (hasHeader_of_tableKey? takes.sameKey)

/-- A table that has got another name since the earlier set was written. -/
theorem Prior.merge_takesTags_renamed :
    let selection : Catalog.Selection :=
      { modelName := "Sales"
        tables := [{ Catalog.Table.plain "account" "accountid" with displayName := some "Customer" }]
        edges := []
        calendar := none }
    let supply : Generation.Supply := fun _ => "fresh"
    let earlier : DefinitionSet := .ofList
      [("definition/tables/Account.tmdl",
        "table Account\n\tlineageTag: old\n\n\tannotation SemforgeLogicalName = account\n")]
    ∃ output text mergedText fresh merged key tag,
      Generation.generate .standard supply selection = .ok output ∧
      output.definitions.get? "definition/tables/Customer.tmdl" = some text ∧
      (merge output.definitions (.ofDefinitions earlier)).get?
        "definition/tables/Customer.tmdl" = some mergedText ∧
      (Document.ofText text).blocksWith "table" = [fresh] ∧
      (Document.ofText mergedText).blocksWith "table" = [merged] ∧
      TakesTags (tableBlocksFor earlier key) key tag fresh merged := by
  intro selection supply earlier
  have written : (((Generation.generate .standard supply selection).toOption).bind fun output =>
      output.definitions.get? "definition/tables/Customer.tmdl").isSome = true := by
    decide +kernel
  obtain ⟨text, found⟩ := Option.isSome_iff_exists.mp written
  obtain ⟨output, generated, isFresh⟩ := Option.bind_eq_some_iff.mp found
  have generated := Generation.eq_ok_of_toOption generated
  obtain ⟨mergedText, fresh, merged, key, tag, takes⟩ :=
    Prior.merge_takesTags generated (by decide +kernel) (fun _ => by decide) earlier (by decide) isFresh
  exact ⟨output, text, mergedText, fresh, merged, key, tag, generated, isFresh, takes⟩

end TabularModel
