import TabularModel.Proofs.Prior.Orderly

/-!
# Merged table files

A merge makes one block of the table in a fresh file: the block of the same outline,
in the state that takes over what is known under the key of the table. From an
orderly set it takes over nothing that stands deeper than its place, so that the
merged file is read as the block that was written into it.
-/

set_option autoImplicit false

namespace TabularModel

open Generation (IsTableText)
open Prior (IsTag)

namespace Definition

/-- What an orderly column brings with it stands inside the merged one. -/
theorem Column.isNested_merged {column : Column} (single : column.HasSingleLines) {tag : Text}
    (isTag : IsTag tag) {earlier : Prior.Table} (orderly : IsOrderlyTable earlier) (source : Text) :
    (column.block ((column.freshState tag).merged earlier source)).IsNested ∧
      (column.block ((column.freshState tag).merged earlier source)).depth = 1 := by
  have written := isWritten_merged (isWritten_freshState single isTag) orderly.writable source
  refine isNested_block single written.tag.isSingleLine written.format written.summary ?_
  rw [ColumnState.merged]
  cases found : earlier.columns.get? source with
  | none => exact areAt_summarizationNode
  | some known =>
      intro block member
      rcases ColumnState.mem_foldl_takeAmong member with own | ⟨taken, inside, rfl⟩
      · exact areAt_summarizationNode block own
      · have inOrder := orderly.columns source known found
        exact ⟨(inOrder.writable.annotations taken inside).1,
          (inOrder.annotations taken inside).1⟩

namespace TableOutline

variable {outline : TableOutline} {tag : Member -> Text} {text path : Text}

/-- The block that a merge makes of a table with what is known under its key. -/
def mergedBlock (outline : TableOutline) (tag : Member -> Text) (known : Option Prior.Table) : Block :=
  outline.block ((known.map fun earlier => outline.mergedState earlier tag).getD
    (outline.freshState tag))

theorem mergeFile_eq (written : IsTableText outline tag text) (earlier : Prior.Model)
    (isTable : Path.isInTablesFolder path = true) :
    Prior.mergeFile earlier path text =
      Document.render ⟨[outline.mergedBlock tag
        (earlier.tables.get? (Text.trim outline.logicalName))], true⟩ := by
  rw [mergeFile_of_ofText earlier isTable written.ofText (isReread_freshState outline tag).tableKey?,
    mergedBlock]
  cases earlier.tables.get? (Text.trim outline.logicalName) with
  | none => rfl
  | some table =>
      rw [Option.map_some, Option.getD_some, Option.map_some, Option.getD_some, mergeTable_block]

theorem isNested_mergedBlock (readable : outline.IsReadable) (tags : ∀ member, IsTag (tag member))
    {known : Option Prior.Table} (orderly : ∀ earlier ∈ known, IsOrderlyTable earlier) :
    (outline.mergedBlock tag known).IsNested := by
  cases known with
  | none => exact isNested_freshState readable fun member => (tags member).isSingleLine
  | some earlier =>
      have inOrder := orderly earlier rfl
      have writable := inOrder.writable
      refine isNested_block readable (Prior.isTag_getD writable.tag (tags _)).isSingleLine
        (Prior.isTag_getD (writable.measureTags _) (tags _)).isSingleLine ?_ ?_
      · intro block member
        obtain ⟨column, inside, rfl⟩ := List.mem_map.mp member
        exact Column.isNested_merged (readable.columns column inside) (tags _) inOrder _
      · intro block member
        obtain ⟨measure, inside, rfl⟩ := List.mem_map.mp member
        have kept := List.mem_of_mem_filter (List.mem_of_mem_filter inside)
        exact ⟨(writable.measures measure kept).1, (inOrder.measures measure kept).1⟩

/-- A file that is merged with an orderly set is read as the block in it. -/
theorem ofText_mergedBlock (readable : outline.IsReadable) (tags : ∀ member, IsTag (tag member))
    {known : Option Prior.Table} (orderly : ∀ earlier ∈ known, IsOrderlyTable earlier) :
    Document.ofText (Document.render ⟨[outline.mergedBlock tag known], true⟩) =
      ⟨[outline.mergedBlock tag known], true⟩ :=
  Document.ofText_render [_] (by simp)
    (by simpa using isNested_mergedBlock readable tags orderly) (List.pairwise_singleton _ _)

/-- A file that is merged with nothing is read as the block in it. -/
theorem ofText_mergedBlock_none (readable : outline.IsReadable)
    (tags : ∀ member, IsTag (tag member)) :
    Document.ofText (Document.render ⟨[outline.mergedBlock tag none], true⟩) =
      ⟨[outline.mergedBlock tag none], true⟩ :=
  ofText_mergedBlock readable tags (by simp)

end TableOutline

end Definition

namespace Generation

open Definition (TableOutline)

variable {options : Options} {supply : Supply} {selection : Catalog.Selection} {output : Output}

/-- A file in the tables folder of a generated set is that of an outline, and so is what a
merge makes of it. -/
theorem exists_mergedBlock (generated : generate options supply selection = .ok output)
    (names : ∀ plan ∈ plans options selection, plan.HasSingleLines)
    (tags : ∀ slot, IsTag (supply slot)) {path text : Text}
    (isTable : Path.isInTablesFolder path = true)
    (isFresh : output.definitions.get? path = some text) :
    ∃ outline tag, IsTableText outline tag text ∧ ∀ earlier,
      (merge output.definitions earlier).get? path =
        some (Document.render ⟨[outline.mergedBlock tag
          (earlier.tables.get? (Text.trim outline.logicalName))], true⟩) := by
  obtain ⟨table, member, same⟩ := exists_writtenTable_of_get? generated isTable isFresh
  have written := isTableText_file (isReadable_of_mem_writtenTables names member) tags
  rw [same] at written
  refine ⟨_, _, written, fun earlier => ?_⟩
  rw [get?_merge_of_ne _ _ (relationships_ne_of_isInTablesFolder isTable), isFresh, Option.map_some,
    TableOutline.mergeFile_eq written earlier isTable]

end Generation

end TabularModel
