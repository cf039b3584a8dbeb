import TabularModel.Proofs.Prior.Recovery
import TabularModel.Proofs.SortedMap

/-!
# Merging keeps the outline

A merge changes the state of a table and nothing else about its block. The tag
of a column, its format, its summary and its annotations are taken from the
earlier column of the same source, tags of tables and measures from the earlier
table, and added measures stand in front of the partition.
-/

set_option autoImplicit false

namespace TabularModel

open Block (node changeFirst isProperty)

namespace Block

theorem changeFirst_append_of_none {test : Block -> Bool} (change : Block -> Block)
    {front : List Block} (back : List Block) (none : ∀ block ∈ front, test block = false) :
    changeFirst test change (front ++ back) = front ++ changeFirst test change back := by
  induction front with
  | nil => rfl
  | cons block front ih =>
      have first : ¬ test block = true := by simp [none block List.mem_cons_self]
      rw [List.cons_append, changeFirst, if_neg first,
        ih fun other member => none other (List.mem_cons_of_mem block member), List.cons_append]

theorem changeFirst_cons_of_pos {test : Block -> Bool} (change : Block -> Block) {block : Block}
    (rest : List Block) (found : test block = true) :
    changeFirst test change (block :: rest) = change block :: rest := by
  rw [changeFirst, if_pos found]

theorem mem_changeFirst {test : Block -> Bool} {change : Block -> Block} {blocks : List Block}
    {block : Block} (member : block ∈ changeFirst test change blocks) :
    block ∈ blocks ∨ ∃ changed ∈ blocks, change changed = block := by
  induction blocks with
  | nil => cases member
  | cons first blocks ih =>
      rw [changeFirst] at member
      split at member
      · rcases List.mem_cons.mp member with same | later
        · exact Or.inr ⟨first, List.mem_cons_self, same.symm⟩
        · exact Or.inl (List.mem_cons_of_mem first later)
      · rcases List.mem_cons.mp member with rfl | later
        · exact Or.inl List.mem_cons_self
        · rcases ih later with kept | ⟨changed, inside, same⟩
          · exact Or.inl (List.mem_cons_of_mem first kept)
          · exact Or.inr ⟨changed, List.mem_cons_of_mem first inside, same⟩

theorem isProperty_property (name value : Text) (depth : Nat) (blanks : List Text)
    (kids : List Block) (visible : BeginsVisibly name) :
    isProperty name (node depth (propertyContent name value) blanks kids) = true := by
  rw [isProperty, valueOf?_property name depth value blanks kids visible]
  rfl

/-- Setting a property that stands behind others changes its value. -/
theorem setProperty_node {content : Text} (front : List Block) {back kids : List Block}
    {blanks : List Text} (level depth : Nat) (name value fresh : Text) (visible : BeginsVisibly name)
    (none : ∀ block ∈ front, isProperty name block = false) :
    (node level content []
        (front ++ node depth (propertyContent name value) blanks kids :: back)).setProperty name fresh =
      node level content []
        (front ++ node depth (propertyContent name fresh) blanks kids :: back) := by
  have step := node_with_propertyLine (beginsVisibly_append visible (": " ++ value)) depth name fresh
    blanks kids
  have changed : changeFirst (isProperty name)
      (fun child => { child with line := propertyLine child.depth name fresh })
      (front ++ node depth (propertyContent name value) blanks kids :: back) =
      front ++ node depth (propertyContent name fresh) blanks kids :: back := by
    rw [changeFirst_append_of_none _ _ none,
      changeFirst_cons_of_pos _ _ (isProperty_property name value depth blanks kids visible)]
    exact congrArg (fun child => front ++ child :: back) step
  exact congrArg (fun children => { node level content [] [] with children := children }) changed

/-- A property is added behind the first child if that is the anchor. -/
theorem insertProperty_node {content : Text} {first : Block} {rest : List Block} (level : Nat)
    (anchor name value : Text) (visible : BeginsVisibly content)
    (found : isProperty anchor first = true) :
    (node level content [] (first :: rest)).insertProperty anchor name value =
      node level content []
        (first :: node (level + 1) (propertyContent name value) [] [] :: rest) := by
  have same := depth_node visible level [] (first :: rest)
  have added : ofLine (propertyLine ((node level content [] (first :: rest)).depth + 1) name value) =
      node (level + 1) (propertyContent name value) [] [] := by
    rw [same]
    simp [ofLine, propertyLine, propertyContent, node, entryAt, Document.Entry.toBlock]
  have place : (first :: rest).findIdx? (isProperty anchor) = some 0 := by
    rw [List.findIdx?_cons, if_pos found]
  have inserted : insertAfter (isProperty anchor)
      (node (level + 1) (propertyContent name value) [] []) (first :: rest) =
      first :: node (level + 1) (propertyContent name value) [] [] :: rest := by
    rw [insertAfter, place]
    rfl
  rw [insertProperty, added]
  exact congrArg (fun children => { node level content [] [] with children := children }) inserted

end Block

open Prior

namespace Definition

namespace ColumnState

/-- The annotations after one more has been taken over. -/
def takeAmong (annotations : List Block) (earlier : Annotation) : List Block :=
  if annotations.any (annotatesAs earlier.name) then
    changeFirst (annotatesAs earlier.name) (fun _ => earlier.block) annotations
  else annotations ++ [earlier.block]

/-- The state with the formatting of an earlier column. -/
def formatted (state : ColumnState) (earlier : Prior.Column) : ColumnState where
  tag := state.tag
  format := earlier.formatString <|> state.format
  summary := earlier.summarizeBy.getD state.summary
  annotations := earlier.annotations.foldl takeAmong state.annotations

/-- The state after a merge, for a column that comes from `source`. -/
def merged (state : ColumnState) (earlier : Prior.Table) (source : Text) : ColumnState :=
  let tagged := { state with tag := (earlier.columnTags.get? source).getD state.tag }
  match earlier.columns.get? source with
  | some column => tagged.formatted column
  | none => tagged

end ColumnState

namespace Column

variable (column : Column)

theorem isProperty_frontNodes {name : Text} {format : Option Text}
    (different : ∀ word ∈ frontWords, Text.differ name word = true) :
    ∀ block ∈ column.frontNodes format, isProperty name block = false := by
  intro block member
  obtain ⟨word, found, begins⟩ := column.begins_of_mem_frontNodes member
  exact begins.isProperty (different word found)

theorem takeTag_block (tag : Option Text) (state : ColumnState) :
    takeTag tag (column.block state) = column.block { state with tag := tag.getD state.tag } := by
  cases tag with
  | none => rfl
  | some tag =>
      rw [takeTag, block, memberNodes, List.append_assoc]
      refine (Block.setProperty_node _ 1 2 "lineageTag" state.tag tag (by decide)
        (column.isProperty_frontNodes (by decide))).trans ?_
      rw [block, memberNodes, List.append_assoc]
      rfl

theorem takeSummary_block (summary : Option Text) (state : ColumnState) :
    takeSummary summary (column.block state) =
      column.block { state with summary := summary.getD state.summary } := by
  cases summary with
  | none => rfl
  | some summary =>
      have none : ∀ block ∈ column.frontNodes state.format ++
          [node 2 (propertyContent "lineageTag" state.tag) [] []],
          isProperty "summarizeBy" block = false := by
        intro block member
        rcases List.mem_append.mp member with member | member
        · exact column.isProperty_frontNodes (by decide) block member
        · rw [List.mem_singleton.mp member]
          exact (Block.begins_property "lineageTag" 2 state.tag [] [] (by decide)).isProperty
            (by decide)
      have shape (text : Text) : column.block { state with summary := text } =
          node 1 ("column" ++ ' ' :: Name.written column.name) []
            ((column.frontNodes state.format ++
                [node 2 (propertyContent "lineageTag" state.tag) [] []]) ++
              node 2 (propertyContent "summarizeBy" text) [] [] ::
                (node 2 (propertyContent "sourceColumn" column.source) [[]] [] ::
                  state.annotations)) := by
        rw [block, memberNodes, List.append_assoc, List.append_assoc]
        rfl
      rw [takeSummary, Option.getD_some, shape summary, ← Block.setProperty_node _ 1 2 "summarizeBy"
        state.summary summary (by decide) none, ← shape state.summary]

/-- The annotations of a state are annotations. -/
def HasAnnotations (state : ColumnState) : Prop :=
  ∀ block ∈ state.annotations, block.hasHeader "annotation" = true

/-- How the members of a column begin from its tag on. -/
def backWords : List Text :=
  ["lineageTag", "summarizeBy", "sourceColumn"]

theorem begins_of_mem_memberNodes {tag summary : Text} {format : Option Text} {block : Block}
    (member : block ∈ column.memberNodes tag format summary) :
    ∃ word ∈ frontWords ++ backWords, block.Begins word := by
  rw [memberNodes, List.mem_append] at member
  rcases member with front | back
  · obtain ⟨word, found, begins⟩ := column.begins_of_mem_frontNodes front
    exact ⟨word, List.mem_append_left _ found, begins⟩
  · simp only [List.mem_cons, List.not_mem_nil, or_false] at back
    rcases back with rfl | rfl | rfl
    · exact ⟨"lineageTag", by decide, Block.begins_property _ 2 _ _ _ (by decide)⟩
    · exact ⟨"summarizeBy", by decide, Block.begins_property _ 2 _ _ _ (by decide)⟩
    · exact ⟨"sourceColumn", by decide, Block.begins_property _ 2 _ _ _ (by decide)⟩

/-- No member of a column is an annotation. -/
theorem hasHeader_annotation_memberNodes {tag summary : Text} {format : Option Text} :
    ∀ block ∈ column.memberNodes tag format summary, block.hasHeader "annotation" = false := by
  intro block member
  have words : ∀ word ∈ frontWords ++ backWords, Text.differ "annotation" word = true := by decide
  obtain ⟨word, found, begins⟩ := column.begins_of_mem_memberNodes member
  exact begins.hasHeader (words word found)

/-- The members of a column and its annotations are told apart by their words. -/
theorem begins_of_mem_children {state : ColumnState} (annotations : HasAnnotations state)
    {block : Block} (member : block ∈ (column.block state).children) :
    block ∈ column.frontNodes state.format ∨
      (∃ word ∈ backWords, block.Begins word) ∨ block.Begins "annotation" := by
  have children : (column.block state).children =
      column.memberNodes state.tag state.format state.summary ++ state.annotations := rfl
  rw [children, memberNodes, List.mem_append, List.mem_append] at member
  simp only [List.mem_cons, List.not_mem_nil, or_false] at member
  rcases member with (front | rfl | rfl | rfl) | back
  · exact Or.inl front
  · exact Or.inr (Or.inl ⟨"lineageTag", by decide, Block.begins_property _ 2 _ _ _ (by decide)⟩)
  · exact Or.inr (Or.inl ⟨"summarizeBy", by decide, Block.begins_property _ 2 _ _ _ (by decide)⟩)
  · exact Or.inr (Or.inl ⟨"sourceColumn", by decide, Block.begins_property _ 2 _ _ _ (by decide)⟩)
  · exact Or.inr (Or.inr (Block.begins_of_hasHeader (annotations block back)))

/-- The members of a column behind its format. -/
def laterNodes (state : ColumnState) : List Block :=
  flagNodes column.isHidden "isHidden" ++ flagNodes column.isKey "isKey" ++
    [ node 2 (propertyContent "lineageTag" state.tag) [] [],
      node 2 (propertyContent "summarizeBy" state.summary) [] [],
      node 2 (propertyContent "sourceColumn" column.source) [[]] [] ] ++ state.annotations

theorem block_eq (state : ColumnState) :
    column.block state =
      node 1 ("column" ++ ' ' :: Name.written column.name) []
        (node 2 (propertyContent "dataType" column.dataType.name) [] [] ::
          (formatNodes state.format ++ column.laterNodes state)) := by
  rw [block, memberNodes, frontNodes, laterNodes, List.cons_append, List.cons_append]
  simp only [List.append_assoc]

/-- The format of a column is that of its state. -/
theorem property?_formatString {state : ColumnState} (annotations : HasAnnotations state) :
    (column.block state).property? "formatString" = state.format.map Text.trim := by
  have typeNode := Block.begins_property "dataType" 2 column.dataType.name [] [] (by decide)
  cases format : state.format with
  | none =>
      rw [Block.property?, List.findSome?_eq_none_iff.mpr, Option.map_none]
      intro block member
      rcases column.begins_of_mem_children annotations member with front | ⟨word, found, begins⟩ | begins
      · rw [format] at front
        obtain ⟨word, found, begins⟩ := column.begins_of_mem_frontNodes_none front
        have words : ∀ word ∈ plainWords, Text.differ "formatString" word = true := by decide
        exact begins.valueOf? (words word found)
      · have words : ∀ word ∈ backWords, Text.differ "formatString" word = true := by decide
        exact begins.valueOf? (words word found)
      · exact begins.valueOf? (by decide)
  | some text =>
      have children : (column.block state).children =
          node 2 (propertyContent "dataType" column.dataType.name) [] [] ::
            node 2 (propertyContent "formatString" text) [] [] :: column.laterNodes state := by
        rw [block_eq, format]
        rfl
      rw [Block.property?, children, List.findSome?_cons, typeNode.valueOf? (by decide),
        List.findSome?_cons, Block.valueOf?_property "formatString" 2 _ _ _ (by decide),
        Option.map_some]

theorem property?_summarizeBy (state : ColumnState) :
    (column.block state).property? "summarizeBy" = some (Text.trim state.summary) := by
  have front : ∀ block ∈ column.frontNodes state.format, block.valueOf? "summarizeBy" = none := by
    intro block member
    have words : ∀ word ∈ frontWords, Text.differ "summarizeBy" word = true := by decide
    obtain ⟨word, found, begins⟩ := column.begins_of_mem_frontNodes member
    exact begins.valueOf? (words word found)
  have tagNode := Block.begins_property "lineageTag" 2 state.tag [] [] (by decide)
  have children : (column.block state).children =
      column.memberNodes state.tag state.format state.summary ++ state.annotations := rfl
  rw [Block.property?, children, memberNodes, List.append_assoc, findSome?_append_of_none _ front,
    List.cons_append, List.findSome?_cons, tagNode.valueOf? (by decide), List.cons_append,
    List.findSome?_cons, Block.valueOf?_property "summarizeBy" 2 _ _ _ (by decide)]

theorem takeFormat_block (format : Option Text) {state : ColumnState}
    (annotations : HasAnnotations state) :
    takeFormat format (column.block state) =
      column.block { state with format := format <|> state.format } := by
  cases format with
  | none => rfl
  | some format =>
      have changed : column.block { state with format := some format <|> state.format } =
          node 1 ("column" ++ ' ' :: Name.written column.name) []
            (node 2 (propertyContent "dataType" column.dataType.name) [] [] ::
              node 2 (propertyContent "formatString" format) [] [] :: column.laterNodes state) := by
        rw [block_eq]
        rfl
      rw [takeFormat, hasProperty, column.property?_formatString annotations, changed, block_eq]
      cases known : state.format with
      | none =>
          have header : BeginsVisibly ("column" ++ ' ' :: Name.written column.name) :=
            beginsVisibly_append (by decide) _
          rw [Option.map_none, Option.isSome_none, if_neg Bool.false_ne_true]
          exact Block.insertProperty_node 1 "dataType" "formatString" format header
            (Block.isProperty_property "dataType" _ 2 [] [] (by decide))
      | some earlier =>
          have typeNode : ∀ block ∈ [node 2 (propertyContent "dataType" column.dataType.name) [] []],
              isProperty "formatString" block = false := by
            intro block member
            rw [List.mem_singleton.mp member]
            exact (Block.begins_property "dataType" 2 _ [] [] (by decide)).isProperty (by decide)
          rw [Option.map_some, Option.isSome_some, if_pos rfl]
          exact Block.setProperty_node [_] 1 2 "formatString" earlier format (by decide) typeNode

/-- One annotation is taken over among the annotations. -/
theorem takeAnnotation_block (earlier : Annotation) (state : ColumnState) :
    takeAnnotation (column.block state) earlier =
      column.block { state with annotations := ColumnState.takeAmong state.annotations earlier } := by
  have members : ∀ block ∈ column.memberNodes state.tag state.format state.summary,
      annotatesAs earlier.name block = false := by
    intro block member
    rw [annotatesAs, column.hasHeader_annotation_memberNodes block member, Bool.false_and]
  have children : (column.block state).children =
      column.memberNodes state.tag state.format state.summary ++ state.annotations := rfl
  have found : (column.block state).children.any (annotatesAs earlier.name) =
      state.annotations.any (annotatesAs earlier.name) := by
    have none : (column.memberNodes state.tag state.format state.summary).any
        (annotatesAs earlier.name) = false := by
      rw [List.any_eq_false]
      intro block member
      simp [members block member]
    rw [children, List.any_append, none, Bool.false_or]
  unfold takeAnnotation
  rw [found, children, Block.changeFirst_append_of_none _ _ members,
    ColumnState.takeAmong]
  split
  · rfl
  · rw [List.append_assoc]
    rfl

theorem foldl_takeAnnotation_block (earlier : List Annotation) (state : ColumnState) :
    earlier.foldl takeAnnotation (column.block state) =
      column.block
        { state with annotations := earlier.foldl ColumnState.takeAmong state.annotations } := by
  induction earlier generalizing state with
  | nil => rfl
  | cons annotation earlier ih =>
      rw [List.foldl_cons, takeAnnotation_block, ih, List.foldl_cons]

theorem takeFormatting_block (earlier : Prior.Column) {state : ColumnState}
    (annotations : HasAnnotations state) :
    takeFormatting earlier (column.block state) = column.block (state.formatted earlier) := by
  rw [takeFormatting, takeFormat_block column _ annotations, takeSummary_block,
    foldl_takeAnnotation_block]
  rfl

theorem hasHeader_block (state : ColumnState) :
    (column.block state).hasHeader "column" = true := by
  rw [Block.hasHeader, block,
    Block.header?_header "column" 1 _ _ (by decide) (Name.hasVisibleEnds_written column.name)]
  rfl

theorem begins_block (state : ColumnState) : (column.block state).Begins "column" :=
  Block.begins_header "column" 1 _ _ (by decide) (Name.hasVisibleEnds_written column.name)

/-- The source of a column is read from its block. -/
theorem columnSource?_block (state : ColumnState) :
    columnSource? (column.block state) = some (Text.trim column.source) := by
  have lines : (column.block state).children.map Block.line =
      (column.memberNodes state.tag state.format state.summary ++ state.annotations).map
        Block.line := rfl
  exact column.columnSource?_of_lines rfl lines

/-- A merge changes the state of a column. -/
theorem mergeColumn_block (earlier : Prior.Table) {state : ColumnState}
    (annotations : HasAnnotations state) :
    mergeColumn earlier (column.block state) =
      column.block (state.merged earlier (Text.trim column.source)) := by
  rw [mergeColumn, columnSource?_block, ColumnState.merged]
  simp only [takeTag_block]
  cases found : earlier.columns.get? (Text.trim column.source) with
  | none => rfl
  | some known => exact column.takeFormatting_block known annotations

end Column

/-! ## Tables -/

namespace TableOutline

variable (outline : TableOutline)

/-- The names of the measures that are written with the table. -/
def countNames : List Text :=
  if outline.isCounted then [Convention.countMeasure outline.name] else []

/-- The state after a merge. -/
def mergedState (earlier : Prior.Table) (tag : Member -> Text) : TableState where
  tag := earlier.tag.getD (tag .table)
  countTag := (earlier.measureTags.get? (Convention.countMeasure outline.name)).getD
    (tag (.measure (Convention.countMeasure outline.name)))
  columns := outline.columns.map fun column =>
    column.block ((column.freshState (tag (.column column.source))).merged earlier
      (Text.trim column.source))
  measures := ((earlier.userMeasures).filter fun measure =>
    !outline.countNames.contains measure.name).map (·.block)

/-! ### Members and their words -/

theorem hasVisibleEnds_countHeader : HasVisibleEnds outline.countHeader :=
  (Name.hasVisibleEnds_written _).append
    ⟨" = COUNTROWS(" ++ Name.quoted outline.name, ')', by simp, rfl⟩

theorem hasVisibleEnds_partitionHeader : HasVisibleEnds outline.partitionHeader := by
  refine (Name.hasVisibleEnds_written _).append ?_
  cases outline.kind with
  | query => exact ⟨" = ", 'm', rfl, rfl⟩
  | calculated => exact ⟨" = calculate", 'd', rfl, rfl⟩

theorem begins_of_mem_headNodes {tag : Text} {block : Block}
    (member : block ∈ outline.headNodes tag) :
    ∃ word ∈ (["lineageTag", "dataCategory"] : List Text), block.Begins word := by
  rw [headNodes] at member
  split at member
  · rcases List.mem_cons.mp member with rfl | member
    · exact ⟨"lineageTag", by decide, Block.begins_property _ 1 _ _ _ (by decide)⟩
    · rw [List.mem_singleton.mp member]
      exact ⟨"dataCategory", by decide, Block.begins_property _ 1 _ _ _ (by decide)⟩
  · rw [List.mem_singleton.mp member]
    exact ⟨"lineageTag", by decide, Block.begins_property _ 1 _ _ _ (by decide)⟩

theorem begins_of_mem_countNodes {tag : Text} {block : Block}
    (member : block ∈ outline.countNodes tag) : block.Begins "measure" := by
  rw [countNodes] at member
  split at member
  · rw [List.mem_singleton.mp member]
    exact Block.begins_header "measure" 1 _ _ (by decide) outline.hasVisibleEnds_countHeader
  · cases member

theorem begins_partitionNode : outline.partitionNode.Begins "partition" :=
  Block.begins_header "partition" 1 _ _ (by decide) outline.hasVisibleEnds_partitionHeader

theorem begins_of_mem_closingNodes {block : Block} (member : block ∈ outline.closingNodes) :
    block.Begins "annotation" := by
  rw [closingNodes] at member
  rcases List.mem_cons.mp member with rfl | member
  · exact Block.begins_annotation 1 _ _ _ _
  · rw [List.mem_singleton.mp member]
    exact Block.begins_annotation 1 _ _ _ _

theorem header?_countNode (blanks : List Text) (kids : List Block) :
    (node 1 ("measure" ++ ' ' :: outline.countHeader) blanks kids).header? "measure" =
      some outline.countHeader :=
  Block.header?_header "measure" 1 _ _ (by decide) outline.hasVisibleEnds_countHeader

theorem name?_countNode (blanks : List Text) (kids : List Block) :
    name? "measure" (node 1 ("measure" ++ ' ' :: outline.countHeader) blanks kids) =
      some (Convention.countMeasure outline.name) := by
  have shape : outline.countHeader = Name.written (Convention.countMeasure outline.name) ++
      ' ' :: ("= COUNTROWS(" ++ (Name.quoted outline.name ++ ")")) := rfl
  rw [name?, nameAndRest?, header?_countNode, shape, Option.map_some, Name.split_written_blank]
  rfl

/-! ### Changes of the state -/

theorem takeTag_block (tag : Option Text) (state : TableState) :
    takeTag tag (outline.block state) = outline.block { state with tag := tag.getD state.tag } := by
  cases tag with
  | none => rfl
  | some tag =>
      rw [takeTag, block, block, members, members, headNodes, headNodes]
      cases outline.isCalendar with
      | false =>
          simp only [Bool.false_eq_true, if_false, List.append_assoc, List.singleton_append,
            Option.getD_some]
          exact Block.setProperty_node [] 0 1 "lineageTag" state.tag tag (by decide) (by simp)
      | true =>
          simp only [if_true, List.append_assoc, List.cons_append, Option.getD_some]
          exact Block.setProperty_node [] 0 1 "lineageTag" state.tag tag (by decide) (by simp)

/-- What is no block of the keyword stays. -/
theorem map_changeWith_of_none {keyword : Text} (change : Block -> Block) {blocks : List Block}
    (none : ∀ block ∈ blocks, block.hasHeader keyword = false) :
    blocks.map (fun child => if child.hasHeader keyword then change child else child) = blocks := by
  refine (List.map_congr_left fun block member => ?_).trans (List.map_id _)
  rw [none block member, if_neg Bool.false_ne_true]
  rfl

theorem map_changeWith_of_all {keyword : Text} (change : Block -> Block) {blocks : List Block}
    (all : ∀ block ∈ blocks, block.hasHeader keyword = true) :
    blocks.map (fun child => if child.hasHeader keyword then change child else child) =
      blocks.map change :=
  List.map_congr_left fun block member => by rw [all block member, if_pos rfl]

theorem filter_hasHeader_of_none {keyword : Text} {blocks : List Block}
    (none : ∀ block ∈ blocks, block.hasHeader keyword = false) :
    blocks.filter (Block.hasHeader keyword) = [] := by
  rw [List.filter_eq_nil_iff]
  intro block member
  rw [none block member]
  exact Bool.false_ne_true

theorem hasHeader_headNodes {keyword tag : Text}
    (different : ∀ word ∈ (["lineageTag", "dataCategory"] : List Text),
      Text.differ keyword word = true) :
    ∀ block ∈ outline.headNodes tag, block.hasHeader keyword = false := by
  intro block member
  obtain ⟨word, found, begins⟩ := outline.begins_of_mem_headNodes member
  exact begins.hasHeader (different word found)

theorem hasHeader_lastNodes {keyword : Text}
    (different : ∀ word ∈ (["partition", "annotation"] : List Text),
      Text.differ keyword word = true) :
    ∀ block ∈ outline.partitionNode :: outline.closingNodes, block.hasHeader keyword = false := by
  intro block member
  rcases List.mem_cons.mp member with rfl | member
  · exact outline.begins_partitionNode.hasHeader (different "partition" (by decide))
  · exact (outline.begins_of_mem_closingNodes member).hasHeader (different "annotation" (by decide))

theorem hasHeader_partitionNode : outline.partitionNode.hasHeader "partition" = true := by
  rw [Block.hasHeader, partitionNode,
    Block.header?_header "partition" 1 _ _ (by decide) outline.hasVisibleEnds_partitionHeader]
  rfl

theorem hasHeader_countNodes {tag : Text} :
    ∀ block ∈ outline.countNodes tag, block.hasHeader "measure" = true := by
  intro block member
  rw [countNodes] at member
  split at member
  · rw [List.mem_singleton.mp member, Block.hasHeader, header?_countNode]
    rfl
  · cases member

variable {outline} in
theorem begins_of_mem_columns {states : Column -> ColumnState} {block : Block}
    (member : block ∈ outline.columns.map fun column => column.block (states column)) :
    block.Begins "column" := by
  obtain ⟨column, _, rfl⟩ := List.mem_map.mp member
  exact column.begins_block _

theorem children_block (state : TableState) :
    (outline.block state).children = outline.members state := rfl

variable {outline} in
/-- The measures of a table are the written one and those of its state. -/
theorem childrenWith_measure_block {state : TableState}
    (columns : ∀ block ∈ state.columns, block.hasHeader "measure" = false)
    (measures : ∀ block ∈ state.measures, block.hasHeader "measure" = true) :
    (outline.block state).childrenWith "measure" =
      outline.countNodes state.countTag ++ state.measures := by
  rw [Block.childrenWith, children_block, members, List.filter_append, List.filter_append,
    List.filter_append, List.filter_append,
    filter_hasHeader_of_none (outline.hasHeader_headNodes (by decide)),
    List.filter_eq_self.mpr outline.hasHeader_countNodes, filter_hasHeader_of_none columns,
    List.filter_eq_self.mpr measures,
    filter_hasHeader_of_none (outline.hasHeader_lastNodes (by decide)), List.nil_append,
    List.append_nil, List.append_nil]

theorem changeWith_column_block (change : Block -> Block) {state : TableState}
    (columns : ∀ block ∈ state.columns, block.hasHeader "column" = true)
    (measures : state.measures = []) :
    (outline.block state).changeWith "column" change =
      outline.block { state with columns := state.columns.map change } := by
  have count : ∀ block ∈ outline.countNodes state.countTag, block.hasHeader "column" = false :=
    fun block member => (outline.begins_of_mem_countNodes member).hasHeader (by decide)
  have children : (outline.members state).map
      (fun child => if child.hasHeader "column" then change child else child) =
      outline.members { state with columns := state.columns.map change } := by
    rw [members, members, measures, List.map_append, List.map_append, List.map_append,
      List.map_append, map_changeWith_of_none change (outline.hasHeader_headNodes (by decide)),
      map_changeWith_of_none change count, map_changeWith_of_all change columns,
      map_changeWith_of_none change (outline.hasHeader_lastNodes (by decide)), List.map_nil]
  exact congrArg (fun members => { outline.block state with children := members }) children

theorem changeWith_measure_block (change : Block -> Block) {state : TableState} {tag : Text}
    (columns : ∀ block ∈ state.columns, block.hasHeader "measure" = false)
    (measures : state.measures = [])
    (changed : (outline.countNodes state.countTag).map change = outline.countNodes tag) :
    (outline.block state).changeWith "measure" change =
      outline.block { state with countTag := tag } := by
  have children : (outline.members state).map
      (fun child => if child.hasHeader "measure" then change child else child) =
      outline.members { state with countTag := tag } := by
    rw [members, members, measures, List.map_append, List.map_append, List.map_append,
      List.map_append, map_changeWith_of_none change (outline.hasHeader_headNodes (by decide)),
      map_changeWith_of_all change outline.hasHeader_countNodes, changed,
      map_changeWith_of_none change columns,
      map_changeWith_of_none change (outline.hasHeader_lastNodes (by decide)), List.map_nil]
  exact congrArg (fun members => { outline.block state with children := members }) children

/-- The measure that is written with the table takes its tag by its name. -/
theorem map_mergeMeasure_countNodes (earlier : Prior.Table) (tag : Text) :
    (outline.countNodes tag).map (mergeMeasure earlier) =
      outline.countNodes
        ((earlier.measureTags.get? (Convention.countMeasure outline.name)).getD tag) := by
  rw [countNodes, countNodes]
  split
  · rw [List.map_singleton, mergeMeasure, name?_countNode]
    simp only
    cases found : earlier.measureTags.get? (Convention.countMeasure outline.name) with
    | none => rfl
    | some known =>
        have format : ∀ block ∈ [node 2 (propertyContent "formatString" "#,0") [] []],
            isProperty "lineageTag" block = false := by
          intro block member
          rw [List.mem_singleton.mp member]
          exact (Block.begins_property "formatString" 2 "#,0" [] [] (by decide)).isProperty
            (by decide)
        rw [takeTag]
        exact congrArg (fun block => [block])
          (Block.setProperty_node [_] 1 2 "lineageTag" tag known (by decide) format)
  · rfl

/-- The fresh measures are those that are written with the table. -/
theorem filterMap_name?_measures {state : TableState}
    (columns : ∀ block ∈ state.columns, block.hasHeader "measure" = false)
    (measures : state.measures = []) :
    ((outline.block state).childrenWith "measure").filterMap (name? "measure") =
      outline.countNames := by
  rw [childrenWith_measure_block columns (by simp [measures]), measures, List.append_nil, countNodes,
    countNames]
  split
  · rw [List.filterMap_cons, name?_countNode]
    rfl
  · rfl

/-- Measures are put in front of the partition. -/
theorem insertMeasures_members (added : List Block) (state : TableState)
    (columns : ∀ block ∈ state.columns, block.hasHeader "partition" = false)
    (measures : state.measures = []) :
    insertMeasures added (outline.members state) =
      outline.members { state with measures := added } := by
  have count : ∀ block ∈ outline.countNodes state.countTag, block.hasHeader "partition" = false :=
    fun block member => (outline.begins_of_mem_countNodes member).hasHeader (by decide)
  have front : ∀ block ∈ outline.headNodes state.tag ++ outline.countNodes state.countTag ++
      state.columns, block.hasHeader "partition" = false := by
    intro block member
    rw [List.mem_append, List.mem_append] at member
    rcases member with (member | member) | member
    · exact outline.hasHeader_headNodes (by decide) block member
    · exact count block member
    · exact columns block member
  have shape : outline.members state =
      (outline.headNodes state.tag ++ outline.countNodes state.countTag ++ state.columns) ++
        outline.partitionNode :: outline.closingNodes := by
    rw [members, measures, List.append_nil]
  have place : (outline.members state).findIdx? (Block.hasHeader "partition") =
      some (outline.headNodes state.tag ++ outline.countNodes state.countTag ++
        state.columns).length := by
    rw [shape, List.findIdx?_append, List.findIdx?_eq_none_iff.mpr front, List.findIdx?_cons,
      if_pos outline.hasHeader_partitionNode]
    simp
  rw [insertMeasures, place]
  simp only [Option.orElse_some, Option.getD_some]
  rw [shape, List.take_left, List.drop_left, members, List.append_assoc]

theorem keptMeasures_block (earlier : Prior.Table) (state : TableState)
    (columns : ∀ block ∈ state.columns, block.hasHeader "measure" = false)
    (measures : state.measures = []) :
    keptMeasures earlier (outline.block state) =
      ((earlier.userMeasures).filter fun measure =>
        !outline.countNames.contains measure.name).map (·.block) := by
  rw [keptMeasures, outline.filterMap_name?_measures columns measures]

/-- A merge changes the state of a table, from the first one to the merged one. -/
theorem mergeTable_block (earlier : Prior.Table) (tag : Member -> Text) :
    mergeTable earlier (outline.block (outline.freshState tag)) =
      outline.block (outline.mergedState earlier tag) := by
  have isColumn (state : Column -> ColumnState) :
      ∀ block ∈ outline.columns.map (fun column => column.block (state column)),
        block.Begins "column" ∧ block.hasHeader "column" = true := by
    intro block member
    obtain ⟨column, _, rfl⟩ := List.mem_map.mp member
    exact ⟨column.begins_block _, column.hasHeader_block _⟩
  have freshColumns := isColumn fun column => column.freshState (tag (.column column.source))
  have mergedColumns := isColumn fun column =>
    (column.freshState (tag (.column column.source))).merged earlier (Text.trim column.source)
  have notMeasure {blocks : List Block}
      (each : ∀ block ∈ blocks, block.Begins "column" ∧ block.hasHeader "column" = true) :
      ∀ block ∈ blocks, block.hasHeader "measure" = false :=
    fun block member => (each block member).1.hasHeader (by decide)
  have columns : (outline.freshState tag).columns.map (mergeColumn earlier) =
      (outline.mergedState earlier tag).columns := by
    rw [freshState, mergedState, List.map_map]
    refine List.map_congr_left fun column _ => ?_
    refine column.mergeColumn_block earlier ?_
    intro block member
    rw [List.mem_singleton.mp member]
    exact Block.hasHeader_annotation 2 _ _ _ _
  have merged : ((takeTag earlier.tag (outline.block (outline.freshState tag))).changeWith "column"
      (mergeColumn earlier)).changeWith "measure" (mergeMeasure earlier) =
      outline.block { outline.mergedState earlier tag with measures := [] } := by
    rw [takeTag_block, outline.changeWith_column_block (mergeColumn earlier)
      (fun block member => (freshColumns block member).2) rfl, columns,
      outline.changeWith_measure_block (mergeMeasure earlier) (notMeasure mergedColumns) rfl
        (outline.map_mergeMeasure_countNodes earlier _)]
    rfl
  have kept := outline.keptMeasures_block earlier (outline.freshState tag)
    (notMeasure freshColumns) rfl
  rw [mergeTable, merged, kept]
  split
  · next none =>
      have state : { outline.mergedState earlier tag with measures := [] } =
          outline.mergedState earlier tag := by
        rw [mergedState, none]
      rw [state]
  · next measures _ =>
      have notPartition : ∀ block ∈ (outline.mergedState earlier tag).columns,
          block.hasHeader "partition" = false :=
        fun block member => (mergedColumns block member).1.hasHeader (by decide)
      have inserted := outline.insertMeasures_members (outline.mergedState earlier tag).measures
        { outline.mergedState earlier tag with measures := [] } notPartition rfl
      exact congrArg (fun members => { outline.block (outline.mergedState earlier tag) with
        children := members }) inserted

end TableOutline

end Definition

/-! ## Definition sets -/

/-- Every file but that of the relationships is merged on its own. -/
theorem get?_merge_of_ne (fresh : DefinitionSet) (earlier : Model) {path : Text}
    (other : Path.relationships ≠ path) :
    (merge fresh earlier).get? path = (fresh.get? path).map (mergeFile earlier path) := by
  rw [merge]
  split
  · rw [SortedMap.get?_mapValues]
  · split
    · rw [SortedMap.get?_mapValues]
    · rw [SortedMap.get?_insert, if_neg other, SortedMap.get?_mapValues]

/-- Files that hold no tables, relationships or parameters stay as they are. -/
theorem mergeFile_of_other (earlier : Model) {path : Text} (text : Text)
    (notTable : Path.isInTablesFolder path = false) (notRelationships : path ≠ Path.relationships)
    (notExpressions : path ≠ Path.expressions) : mergeFile earlier path text = text := by
  unfold mergeFile
  rw [notTable, if_neg Bool.false_ne_true, if_neg notRelationships, if_neg notExpressions]

theorem get?_merge_of_other {fresh : DefinitionSet} (earlier : Model) {path : Text}
    (notTable : Path.isInTablesFolder path = false) (notRelationships : path ≠ Path.relationships)
    (notExpressions : path ≠ Path.expressions) :
    (merge fresh earlier).get? path = fresh.get? path := by
  rw [get?_merge_of_ne _ _ (Ne.symm notRelationships)]
  cases fresh.get? path with
  | none => rfl
  | some text =>
      rw [Option.map_some, mergeFile_of_other earlier text notTable notRelationships notExpressions]

theorem relationships_ne_of_isInTablesFolder {path : Text}
    (isTable : Path.isInTablesFolder path = true) : Path.relationships ≠ path := by
  rintro rfl
  exact absurd isTable (by decide)

/-- The file of one table is merged with what is known under its key. -/
theorem mergeFile_of_ofText {outline : Definition.TableOutline} {tag : Definition.Member -> Text}
    (earlier : Model) {path text : Text} (isTable : Path.isInTablesFolder path = true)
    (read : Document.ofText text = ⟨[outline.block (outline.freshState tag)], true⟩)
    {key : Text} (known : tableKey? (outline.block (outline.freshState tag)) = some key) :
    mergeFile earlier path text =
      Document.render ⟨[((earlier.tables.get? key).map fun table =>
        mergeTable table (outline.block (outline.freshState tag))).getD
          (outline.block (outline.freshState tag))], true⟩ := by
  have header : (outline.block (outline.freshState tag)).hasHeader "table" = true := by
    rw [Block.hasHeader, Definition.TableOutline.block,
      Block.header?_header "table" 0 _ _ (by decide) (Name.hasVisibleEnds_written outline.name)]
    rfl
  rw [mergeFile, if_pos isTable, read, mergeTables, Document.changeWith]
  simp only [List.map_cons, List.map_nil, header, if_true, known, Option.bind_some]
  cases earlier.tables.get? key <;> rfl

end TabularModel
