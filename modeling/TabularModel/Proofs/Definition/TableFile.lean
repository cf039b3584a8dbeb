import TabularModel.Proofs.Definition.Outline

/-!
# Reading table files

The block of an outline is nested as long as its names stand on one line each
and what was put into it stands at its level. The file of an outline is read as
this block, although the lines of its expression are arbitrary: a query may hold
line feeds, and lines of it may be blank or look like documentation.
-/

set_option autoImplicit false

namespace TabularModel

open Block (node)
open Document (Entry group nest IsBlankLine IsHeaderLine)

theorem isContent_property {name value : Text} (isContent : IsContent name)
    (single : Text.IsSingleLine value) : IsContent (propertyContent name value) :=
  isContent.append (Text.isSingleLine_append.mpr ⟨by decide, single⟩)

theorem isContent_annotationContent {name value : Text} (singleName : Text.IsSingleLine name)
    (single : Text.IsSingleLine value) : IsContent (annotationContent name value) := by
  have start : IsContent "annotation " := ⟨by decide, by decide⟩
  refine start.append ?_
  exact Text.isSingleLine_append.mpr ⟨singleName, Text.isSingleLine_append.mpr ⟨by decide, single⟩⟩

theorem isContent_header {keyword rest : Text} (isContent : IsContent keyword)
    (single : Text.IsSingleLine rest) : IsContent (keyword ++ ' ' :: rest) := by
  refine isContent.append ?_
  intro member
  rcases List.mem_cons.mp member with same | later
  · exact absurd same (by decide)
  · exact single later

theorem areBlank_nil : ∀ line ∈ ([] : List Text), IsBlankLine line := by simp

theorem areBlank_single : ∀ line ∈ ([[]] : List Text), IsBlankLine line := by
  intro line member
  rw [List.mem_singleton.mp member]
  exact Document.isBlankLine_nil

/-- The blocks are nested and stand at the level. -/
def AreAt (depth : Nat) (blocks : List Block) : Prop :=
  ∀ block ∈ blocks, block.IsNested ∧ block.depth = depth

theorem AreAt.append {depth : Nat} {left right : List Block} (first : AreAt depth left)
    (second : AreAt depth right) : AreAt depth (left ++ right) := by
  intro block member
  rcases List.mem_append.mp member with member | member
  · exact first block member
  · exact second block member

theorem AreAt.cons {depth : Nat} {block : Block} {blocks : List Block}
    (first : block.IsNested ∧ block.depth = depth) (others : AreAt depth blocks) :
    AreAt depth (block :: blocks) := by
  intro other member
  rcases List.mem_cons.mp member with rfl | member
  · exact first
  · exact others other member

theorem AreAt.nil {depth : Nat} : AreAt depth [] := by
  intro block member
  cases member

theorem AreAt.filter_depth {depth : Nat} {blocks : List Block} (level : AreAt depth blocks) :
    blocks.filter (·.depth == depth) = blocks := by
  rw [List.filter_eq_self]
  intro block member
  simp [(level block member).2]

namespace Definition

namespace Column

/-- What is written about the column stands on one line each. -/
structure HasSingleLines (column : Column) : Prop where
  name : Text.IsSingleLine column.name
  source : Text.IsSingleLine column.source
  format : ∀ text ∈ column.format, Text.IsSingleLine text

variable {column : Column} (single : column.HasSingleLines)

theorem areAt_formatNodes {format : Option Text} (lines : ∀ text ∈ format, Text.IsSingleLine text) :
    AreAt 2 (formatNodes format) := by
  cases format with
  | none => exact AreAt.nil
  | some format =>
      exact AreAt.cons (Block.isNested_leaf
        (isContent_property ⟨by decide, by decide⟩ (lines format rfl)) 2 areBlank_nil) AreAt.nil

theorem areAt_flagNodes (flag : Bool) {name : Text} (isContent : IsContent name) :
    AreAt 2 (flagNodes flag name) := by
  cases flag with
  | false => exact AreAt.nil
  | true => exact AreAt.cons (Block.isNested_leaf isContent 2 areBlank_nil) AreAt.nil

include single

theorem areAt_memberNodes {tag summary : Text} {format : Option Text}
    (singleTag : Text.IsSingleLine tag) (singleFormat : ∀ text ∈ format, Text.IsSingleLine text)
    (singleSummary : Text.IsSingleLine summary) :
    AreAt 2 (column.memberNodes tag format summary) := by
  have typeLine : Text.IsSingleLine column.dataType.name := by
    cases column.dataType <;> decide
  have leaf {name value : Text} {blanks : List Text} (isContent : IsContent name)
      (line : Text.IsSingleLine value) (areBlank : ∀ line ∈ blanks, IsBlankLine line) :=
    Block.isNested_leaf (isContent_property isContent line) 2 areBlank
  have front : AreAt 2 (column.frontNodes format) :=
    AreAt.cons (leaf ⟨by decide, by decide⟩ typeLine areBlank_nil)
      (((areAt_formatNodes singleFormat).append (areAt_flagNodes _ ⟨by decide, by decide⟩)).append
        (areAt_flagNodes _ ⟨by decide, by decide⟩))
  refine front.append ?_
  refine AreAt.cons (leaf ⟨by decide, by decide⟩ singleTag areBlank_nil) ?_
  refine AreAt.cons (leaf ⟨by decide, by decide⟩ singleSummary areBlank_nil) ?_
  exact AreAt.cons (leaf ⟨by decide, by decide⟩ single.source areBlank_single) AreAt.nil

theorem isContent_columnHeader : IsContent ("column" ++ ' ' :: Name.written column.name) :=
  isContent_header ⟨by decide, by decide⟩ (Name.isSingleLine_written single.name)

omit single in
theorem areAt_summarizationNode : AreAt 2 [summarizationNode] :=
  AreAt.cons (Block.isNested_leaf (isContent_annotationContent (by decide) (by decide)) 2 areBlank_single)
    AreAt.nil

/-- A column whose annotations stand at their level is nested. -/
theorem isNested_block {state : ColumnState} (singleTag : Text.IsSingleLine state.tag)
    (singleFormat : ∀ text ∈ state.format, Text.IsSingleLine text)
    (singleSummary : Text.IsSingleLine state.summary) (annotations : AreAt 2 state.annotations) :
    (column.block state).IsNested ∧ (column.block state).depth = 1 := by
  refine ⟨?_, Block.depth_node (isContent_columnHeader single).beginsVisibly 1 _ _⟩
  refine Block.isNested_node_of_level (isContent_columnHeader single) 1 areBlank_nil ?_
  exact (areAt_memberNodes single singleTag singleFormat singleSummary).append annotations

end Column

namespace TableOutline

/-- The first and the last line of the expression begin blocks. -/
def IsEnclosed (expression : Text) : Prop :=
  ∃ first middle last, Text.lines expression = first :: (middle ++ [last]) ∧ IsHeaderLine first ∧
    IsHeaderLine last ∧ ∀ line ∈ middle, Text.IsSingleLine line

/-- What makes the written file of an outline readable. -/
structure IsReadable (outline : TableOutline) : Prop where
  name : Text.IsSingleLine outline.name
  logicalName : Text.IsSingleLine outline.logicalName
  columns : ∀ column ∈ outline.columns, column.HasSingleLines
  expression : IsEnclosed outline.expression

variable {outline : TableOutline}

theorem sourceLines_single (readable : outline.IsReadable) :
    ∀ line ∈ outline.sourceLines, Text.IsSingleLine line := by
  obtain ⟨first, middle, last, shape, isFirst, isLast, between⟩ := readable.expression
  intro line member
  rw [sourceLines, List.mem_append, List.mem_map] at member
  rcases member with ⟨content, inside, rfl⟩ | blank
  · refine Text.isSingleLine_append.mpr ⟨Line.isSingleLine_tabs 4, ?_⟩
    rw [shape, List.mem_cons, List.mem_append, List.mem_singleton] at inside
    rcases inside with rfl | inside | rfl
    · exact isFirst.single
    · exact between content inside
    · exact isLast.single
  · exact (areBlank_single line blank).single

/-- The lines of the expression begin with an entry and end with one. -/
theorem group_sourceLines (readable : outline.IsReadable) :
    ∃ entries, group [] outline.sourceLines = ⟨[], entries, []⟩ ∧
      (∀ entry ∈ entries, entry.IsValid) ∧ ∀ entry ∈ entries, 4 ≤ entry.depth := by
  obtain ⟨first, middle, last, shape, isFirst, isLast, between⟩ := readable.expression
  have lines : outline.sourceLines = (Line.tabs 4 ++ first) ::
      (middle.map (Line.tabs 4 ++ ·) ++ [Line.tabs 4 ++ last, []]) := by
    rw [sourceLines, shape]
    simp
  have begun : (group [] outline.sourceLines).blanks = [] := by
    rw [lines, Document.group_cons_header [] _ _ (isFirst.tabs 4)]
  have closed : (group [] outline.sourceLines).docs = [] := by
    rw [lines, ← List.cons_append]
    refine Document.docs_group_append _ _ [] fun pending => ?_
    rw [Document.group_cons_header pending _ _ (isLast.tabs 4),
      Document.group_cons_blank [] [] [] Document.isBlankLine_nil]
    rfl
  obtain ⟨-, valid, -⟩ := Document.group_valid outline.sourceLines []
    (sourceLines_single readable) (by simp)
  refine ⟨(group [] outline.sourceLines).entries, ?_, valid, ?_⟩
  · cases found : group [] outline.sourceLines with
    | mk blanks entries docs =>
        rw [found] at begun closed
        subst begun closed
        rfl
  · -- An entry of the expression is a line of it, and so stands behind four tabs.
    intro entry member
    have inside := Document.line_mem_of_mem_entries member
    have header := (valid entry member).line
    rw [sourceLines, List.mem_append, List.mem_map] at inside
    rcases inside with ⟨content, _, same⟩ | blank
    · rw [Entry.depth, ← same, Block.depthOf, List.takeWhile_append_of_pos, List.length_append]
      · simp [Line.tabs]
      · intro c member
        simpa using List.eq_of_mem_replicate member
    · have isBlank := (areBlank_single entry.line blank).blank
      rw [header.visible] at isBlank
      exact Bool.noConfusion isBlank

variable (readable : outline.IsReadable)

include readable

theorem isContent_tableHeader : IsContent ("table" ++ ' ' :: Name.written outline.name) :=
  isContent_header ⟨by decide, by decide⟩ (Name.isSingleLine_written readable.name)

omit readable in
theorem areAt_headNodes {tag : Text} (single : Text.IsSingleLine tag) :
    AreAt 1 (outline.headNodes tag) := by
  have tagLine : IsContent (propertyContent "lineageTag" tag) :=
    isContent_property ⟨by decide, by decide⟩ single
  rw [headNodes]
  split
  · refine AreAt.cons (Block.isNested_leaf tagLine 1 areBlank_nil) (AreAt.cons ?_ AreAt.nil)
    exact Block.isNested_leaf (isContent_property ⟨by decide, by decide⟩ (by decide)) 1
      areBlank_single
  · exact AreAt.cons (Block.isNested_leaf tagLine 1 areBlank_single) AreAt.nil

theorem isSingleLine_countHeader : Text.IsSingleLine outline.countHeader := by
  have measure : Text.IsSingleLine (Convention.countMeasure outline.name) :=
    Text.isSingleLine_append.mpr ⟨readable.name, by decide⟩
  have quoted : Text.IsSingleLine (Name.quoted outline.name) := by
    simpa [Name.quoted, Text.IsSingleLine, Text.mem_doubling_iff] using readable.name
  refine Text.isSingleLine_append.mpr ⟨Name.isSingleLine_written measure, ?_⟩
  exact Text.isSingleLine_append.mpr ⟨by decide, Text.isSingleLine_append.mpr ⟨quoted, by decide⟩⟩

theorem areAt_countNodes {tag : Text} (single : Text.IsSingleLine tag) :
    AreAt 1 (outline.countNodes tag) := by
  rw [countNodes]
  split
  · have header : IsContent ("measure" ++ ' ' :: outline.countHeader) :=
      isContent_header ⟨by decide, by decide⟩ (isSingleLine_countHeader readable)
    refine AreAt.cons ⟨?_, Block.depth_node header.beginsVisibly 1 _ _⟩ AreAt.nil
    refine Block.isNested_node_of_level header 1 areBlank_nil ?_
    refine AreAt.cons (Block.isNested_leaf
      (isContent_property ⟨by decide, by decide⟩ (by decide)) 2 areBlank_nil) ?_
    exact AreAt.cons (Block.isNested_leaf
      (isContent_property ⟨by decide, by decide⟩ single) 2 areBlank_single) AreAt.nil
  · exact AreAt.nil

theorem isContent_partitionHeader : IsContent ("partition" ++ ' ' :: outline.partitionHeader) := by
  have kindLine : Text.IsSingleLine outline.kind.name := by
    cases outline.kind <;> decide
  refine isContent_header ⟨by decide, by decide⟩ (Text.isSingleLine_append.mpr
    ⟨Name.isSingleLine_written readable.name, Text.isSingleLine_append.mpr ⟨by decide, kindLine⟩⟩)

omit readable in
theorem isContent_modeLine (mode : Catalog.StorageMode) :
    IsContent (propertyContent "mode" mode.name) := by
  have modeLine : Text.IsSingleLine mode.name := by
    cases mode <;> decide
  exact isContent_property ⟨by decide, by decide⟩ modeLine

omit readable in
theorem isContent_sourceLine : IsContent "source =" := ⟨by decide, by decide⟩

theorem isNested_partitionNode :
    outline.partitionNode.IsNested ∧ outline.partitionNode.depth = 1 := by
  have header := isContent_partitionHeader readable
  obtain ⟨entries, read, valid, bound⟩ := group_sourceLines readable
  obtain ⟨nested, descending⟩ := Document.nest_isNested entries valid
  have deep : ∀ kid ∈ nest entries, 2 < kid.depth := by
    intro kid member
    obtain ⟨entry, inside, same⟩ := Document.exists_mem_depth_of_mem_nest member
    have atLeast := bound entry inside
    rw [Entry.depth, same] at atLeast
    rw [Block.depth]
    omega
  refine ⟨?_, Block.depth_node header.beginsVisibly 1 _ _⟩
  refine Block.isNested_node_of_level header 1 areBlank_nil ?_
  refine AreAt.cons (Block.isNested_leaf (isContent_modeLine outline.mode) 2 areBlank_nil)
    (AreAt.cons ?_ AreAt.nil)
  rw [sourceNodes, read]
  exact ⟨Block.isNested_node isContent_sourceLine 2 areBlank_nil nested deep descending,
    Block.depth_node isContent_sourceLine.beginsVisibly 2 _ _⟩

theorem areAt_closingNodes : AreAt 1 outline.closingNodes := by
  refine AreAt.cons (Block.isNested_leaf
    (isContent_annotationContent (by decide) readable.logicalName) 1 areBlank_single) (AreAt.cons ?_ AreAt.nil)
  exact Block.isNested_leaf (isContent_annotationContent (by decide) (by decide)) 1 areBlank_nil

/-- A table whose columns and measures stand at their level is nested. -/
theorem isNested_block {state : TableState} (singleTag : Text.IsSingleLine state.tag)
    (singleCount : Text.IsSingleLine state.countTag) (columns : AreAt 1 state.columns)
    (measures : AreAt 1 state.measures) : (outline.block state).IsNested := by
  refine Block.isNested_node_of_level (isContent_tableHeader readable) 0 areBlank_nil ?_
  refine ((((areAt_headNodes singleTag).append (areAt_countNodes readable singleCount)).append
    columns).append measures).append ?_
  exact AreAt.cons (isNested_partitionNode readable) (areAt_closingNodes readable)

theorem fileLines_single {tag : Member -> Text}
    (nested : (outline.block (outline.freshState tag)).IsNested) :
    ∀ line ∈ outline.fileLines tag, Text.IsSingleLine line := by
  obtain ⟨entry, inner, entered⟩ := nested.exists_entered
  have ofBlock := entered.spells.lines_single
  rw [Block.linesOfEach, Block.linesOfEach, List.append_nil, lines_block] at ofBlock
  intro line member
  rw [fileLines, List.mem_append, List.mem_append] at member
  rcases member with (opening | inside) | closing
  · exact ofBlock line (List.mem_append_left _ (List.mem_append_left _ opening))
  · exact sourceLines_single readable line inside
  · exact ofBlock line (List.mem_append_right _ closing)

/-- The file of an outline is read as the block in its first state. -/
theorem ofText_fileLines {tag : Member -> Text}
    (nested : (outline.block (outline.freshState tag)).IsNested) :
    Document.ofText (Block.textOfLines (outline.fileLines tag)) =
      ⟨[outline.block (outline.freshState tag)], true⟩ := by
  obtain ⟨entries, read, valid, -⟩ := group_sourceLines readable
  have sameLines : Block.linesOfEach outline.sourceNodes = entries.flatMap Entry.lines := by
    rw [sourceNodes, read, Document.linesOfEach_nest]
  have same : group [] outline.sourceLines = group [] (Block.linesOfEach outline.sourceNodes) := by
    rw [read, sameLines, Document.group_flatMap_lines entries valid]
  have opened : (group [] (outline.openingLines tag)).docs = [] := by
    rw [openingLines]
    refine Document.docs_group_append _ _ [] fun pending => ?_
    rw [Document.group_cons_header pending _ _ ((isContent_partitionHeader readable).isHeaderLine 1),
      Document.group_cons_header [] _ _ ((isContent_modeLine outline.mode).isHeaderLine 2),
      Document.group_cons_header [] _ _ (isContent_sourceLine.isHeaderLine 2)]
    rfl
  have begun : (group [] (Block.linesOfEach outline.closingNodes)).blanks = [] := by
    have logical : IsContent (annotationContent Convention.logicalName outline.logicalName) :=
      isContent_annotationContent (by decide) readable.logicalName
    rw [closingNodes, Block.linesOfEach, Block.lines_node, List.cons_append,
      Document.group_cons_header [] _ _ (logical.isHeaderLine 1)]
  have regrouped : group [] (outline.fileLines tag) =
      group [] (outline.block (outline.freshState tag)).lines := by
    rw [lines_block, fileLines]
    exact Document.group_append_append same opened (by rw [read]) (by rw [read]) begun
  have blocks : Document.blocksOfLines (outline.fileLines tag) =
      [outline.block (outline.freshState tag)] := by
    have whole := Block.blocksOfLines_linesOfEach [outline.block (outline.freshState tag)]
      (by simpa using nested) (List.pairwise_singleton _ _)
    rw [Block.linesOfEach, Block.linesOfEach, List.append_nil, Document.blocksOfLines,
      ← regrouped] at whole
    exact whole
  rw [Document.ofText_textOfLines _ (by simp [fileLines, openingLines])
    (fileLines_single readable nested), blocks]

end TableOutline

/-! ## The first state -/

namespace TableOutline

variable {outline : TableOutline} (readable : outline.IsReadable)

include readable

theorem areAt_freshColumns {tag : Member -> Text} (single : ∀ member, Text.IsSingleLine (tag member)) :
    AreAt 1 (outline.freshState tag).columns := by
  intro block member
  obtain ⟨column, inside, rfl⟩ := List.mem_map.mp member
  have lines := readable.columns column inside
  have summary : Text.IsSingleLine column.summary := by
    rw [Column.summary]
    split <;> decide
  exact Column.isNested_block lines (single _) lines.format summary Column.areAt_summarizationNode

theorem isNested_freshState {tag : Member -> Text} (single : ∀ member, Text.IsSingleLine (tag member)) :
    (outline.block (outline.freshState tag)).IsNested :=
  isNested_block readable (single _) (single _) (areAt_freshColumns readable single) AreAt.nil

/-- The written file of an outline is read as the block in its first state. -/
theorem ofText_file {tag : Member -> Text} (single : ∀ member, Text.IsSingleLine (tag member)) :
    Document.ofText (Block.textOfLines (outline.fileLines tag)) =
      ⟨[outline.block (outline.freshState tag)], true⟩ :=
  ofText_fileLines readable (isNested_freshState readable single)

end TableOutline

end Definition

end TabularModel
