import TabularModel.Proofs.Prior.Expressions
import TabularModel.Proofs.Prior.KeptRelationships
import TabularModel.Proofs.Prior.Measures

/-!
# What a merge leaves alone

Fresh definitions decide what they state. A merge changes tags, the names of
relationships and the formatting of columns, and adds measures and relationships.
Everything else stands in the merged files at its place.
-/

set_option autoImplicit false

namespace TabularModel

open Block (changeFirst isProperty node)

namespace Prior

/-! ## Blocks that differ in their tags -/

/-- A block is unchanged, unless it is a tag, which may get another value. -/
def SameButTag (fresh merged : Block) : Prop :=
  merged = fresh ∨
    isProperty "lineageTag" fresh = true ∧ ∃ tag, IsTag tag ∧
      merged = { fresh with line := Block.propertyLine fresh.depth "lineageTag" tag }

/-- A block and its members are unchanged, but for the values of tags. -/
structure KeepsMembers (fresh merged : Block) : Prop where
  own : merged.docs = fresh.docs ∧ merged.line = fresh.line
  members : List.Forall₂ SameButTag fresh.children merged.children

/-- The members of a column that no earlier formatting reaches. -/
def isDecided (member : Block) : Bool :=
  !isProperty "formatString" member && !isProperty "summarizeBy" member &&
    !member.hasHeader "annotation"

/-- A column is unchanged but for its tag, its format, its summary and its annotations.
So it says the same of its type, its source and its flags. -/
structure KeepsColumn (fresh merged : Block) : Prop where
  own : merged.docs = fresh.docs ∧ merged.line = fresh.line
  members : List.Forall₂ SameButTag (fresh.children.filter isDecided)
    (merged.children.filter isDecided)
  values : ∀ name ∈ (["dataType", "sourceColumn"] : List Text),
    merged.property? name = fresh.property? name
  flags : ∀ name ∈ (["isKey", "isHidden"] : List Text), merged.hasFlag name = fresh.hasFlag name

def KeepsMember (fresh merged : Block) : Prop :=
  if fresh.hasHeader "column" then KeepsColumn fresh merged
  else if fresh.hasHeader "measure" then KeepsMembers fresh merged
  else SameButTag fresh merged

/-- A table keeps its members at their places. In front of its partition there may be
more measures. -/
structure KeepsTable (fresh merged : Block) : Prop where
  own : merged.docs = fresh.docs ∧ merged.line = fresh.line
  members : ∃ front changed added partition closing,
    fresh.children = front ++ partition :: closing ∧
    merged.children = changed ++ added ++ partition :: closing ∧
    partition.hasHeader "partition" = true ∧
    List.Forall₂ KeepsMember front changed ∧
    ∀ measure ∈ added, measure.hasHeader "measure" = true

theorem SameButTag.refl (block : Block) : SameButTag block block := Or.inl rfl

theorem forall₂_changeFirst {test : Block -> Bool} {change : Block -> Block}
    {related : Block -> Block -> Prop} (same : ∀ block, related block block)
    (changed : ∀ block, test block = true -> related block (change block)) (blocks : List Block) :
    List.Forall₂ related blocks (changeFirst test change blocks) := by
  induction blocks with
  | nil => exact .nil
  | cons block blocks ih =>
      rw [changeFirst]
      split
      · next found => exact .cons (changed block found) (List.forall₂_same.mpr fun other _ => same other)
      · exact .cons (same block) ih

theorem map_changeFirst {α : Type} {test : Block -> Bool} {change : Block -> Block} {view : Block -> α}
    (same : ∀ block, test block = true -> view (change block) = view block) (blocks : List Block) :
    (changeFirst test change blocks).map view = blocks.map view := by
  induction blocks with
  | nil => rfl
  | cons block blocks ih =>
      rw [changeFirst]
      split
      · next found => rw [List.map_cons, List.map_cons, same block found]
      · rw [List.map_cons, List.map_cons, ih]

theorem keepsMembers_takeTag {tag : Option Text} (isTag : ∀ text ∈ tag, IsTag text) (block : Block) :
    KeepsMembers block (takeTag tag block) := by
  cases tag with
  | none => exact ⟨⟨rfl, rfl⟩, List.forall₂_same.mpr fun member _ => .refl member⟩
  | some tag =>
      refine ⟨⟨rfl, rfl⟩, forall₂_changeFirst SameButTag.refl ?_ block.children⟩
      intro member found
      exact Or.inr ⟨found, tag, isTag tag rfl, rfl⟩

/-! ## Reading decided members -/

variable {α : Type} {read : Block -> Option α}

/-- A reading that neither formatting nor tags can be taken for. -/
def IsDecidedBy (read : Block -> Option α) : Prop :=
  ∀ block, isDecided block = false ∨ isProperty "lineageTag" block = true -> read block = none

theorem findSome?_filter_isDecided (apart : IsDecidedBy read) (blocks : List Block) :
    (blocks.filter isDecided).findSome? read = blocks.findSome? read := by
  induction blocks with
  | nil => rfl
  | cons block blocks ih =>
      by_cases decided : isDecided block = true
      · rw [List.filter_cons_of_pos decided, List.findSome?_cons, List.findSome?_cons, ih]
      · have none : read block = none := apart block (Or.inl (by simpa using decided))
        rw [List.filter_cons_of_neg decided, List.findSome?_cons, none, ih]

theorem isProperty_propertyLine {name value : Text} {depth : Nat} {block : Block}
    (visible : BeginsVisibly name) (renewed : block.line = Block.propertyLine depth name value) :
    isProperty name block = true := by
  have own := Block.isProperty_property name value depth [] [] visible
  have line : block.line = (node depth (propertyContent name value) [] []).line := by
    rw [renewed]
    simp [Block.propertyLine, propertyContent, node, Block.entryAt, Document.Entry.toBlock]
  rw [isProperty, Block.valueOf?, Block.text, line]
  exact own

theorem SameButTag.read_eq (apart : IsDecidedBy read) {fresh merged : Block}
    (same : SameButTag fresh merged) : read merged = read fresh := by
  rcases same with equal | ⟨found, tag, -, renewed⟩
  · rw [equal]
  · have line : merged.line = Block.propertyLine fresh.depth "lineageTag" tag := by rw [renewed]
    have again := isProperty_propertyLine (by decide) line
    rw [apart merged (Or.inr again), apart fresh (Or.inr found)]

theorem findSome?_of_forall₂ (apart : IsDecidedBy read) {fresh merged : List Block}
    (same : List.Forall₂ SameButTag fresh merged) : merged.findSome? read = fresh.findSome? read := by
  induction same with
  | nil => rfl
  | cons first _ ih => rw [List.findSome?_cons, List.findSome?_cons, first.read_eq apart, ih]

theorem begins_of_not_isDecided {block : Block}
    (reached : isDecided block = false ∨ isProperty "lineageTag" block = true) :
    ∃ word ∈ (["formatString", "summarizeBy", "annotation", "lineageTag"] : List Text),
      block.Begins word := by
  rcases reached with undecided | tag
  · rw [isDecided, Bool.and_eq_false_iff, Bool.and_eq_false_iff] at undecided
    simp only [Bool.not_eq_false'] at undecided
    rcases undecided with (format | summary) | annotation
    · exact ⟨_, by simp, begins_of_isProperty format⟩
    · exact ⟨_, by simp, begins_of_isProperty summary⟩
    · exact ⟨_, by simp, Block.begins_of_hasHeader annotation⟩
  · exact ⟨_, by simp, begins_of_isProperty tag⟩

theorem isDecidedBy_valueOf? {name : Text}
    (different : ∀ word ∈ (["formatString", "summarizeBy", "annotation", "lineageTag"] : List Text),
      Text.differ name word = true) : IsDecidedBy (Block.valueOf? name) := by
  intro block undecided
  obtain ⟨word, member, begins⟩ := begins_of_not_isDecided undecided
  exact begins.valueOf? (different word member)

/-- The line of a flag, as a reading. -/
def flag? (name : Text) (block : Block) : Option Unit :=
  if block.text == name then some () else none

theorem hasFlag_eq (block : Block) (name : Text) :
    block.hasFlag name = (block.children.findSome? (flag? name)).isSome := by
  rw [Block.hasFlag]
  induction block.children with
  | nil => rfl
  | cons child children ih =>
      rw [List.any_cons, List.findSome?_cons, ih, flag?]
      cases child.text == name <;> rfl

theorem isDecidedBy_flag? {name : Text}
    (different : ∀ word ∈ (["formatString", "summarizeBy", "annotation", "lineageTag"] : List Text),
      Text.differ name word = true) : IsDecidedBy (flag? name) := by
  intro block undecided
  obtain ⟨word, member, rest, text⟩ := begins_of_not_isDecided undecided
  rw [flag?, if_neg]
  intro same
  have none := Text.dropStart?_of_differ rest (different word member)
  have some := Text.dropStart?_append name []
  rw [List.append_nil] at some
  rw [← text, eq_of_beq same, some] at none
  cases none

/-- A column that keeps its decided members is kept. -/
theorem keepsColumn_of_members {fresh merged : Block}
    (own : merged.docs = fresh.docs ∧ merged.line = fresh.line)
    (members : List.Forall₂ SameButTag (fresh.children.filter isDecided)
      (merged.children.filter isDecided)) : KeepsColumn fresh merged := by
  have kept {α : Type} {read : Block -> Option α} (apart : IsDecidedBy read) :
      merged.children.findSome? read = fresh.children.findSome? read := by
    rw [← findSome?_filter_isDecided apart, findSome?_of_forall₂ apart members,
      findSome?_filter_isDecided apart]
  refine ⟨own, members, ?_, ?_⟩
  · intro name member
    have apart : ∀ name ∈ (["dataType", "sourceColumn"] : List Text),
        ∀ word ∈ (["formatString", "summarizeBy", "annotation", "lineageTag"] : List Text),
          Text.differ name word = true := by decide
    exact kept (isDecidedBy_valueOf? (apart name member))
  · intro name member
    have apart : ∀ name ∈ (["isKey", "isHidden"] : List Text),
        ∀ word ∈ (["formatString", "summarizeBy", "annotation", "lineageTag"] : List Text),
          Text.differ name word = true := by decide
    rw [hasFlag_eq, hasFlag_eq, kept (isDecidedBy_flag? (apart name member))]

end Prior

namespace Definition

open Prior (IsTag KeepsColumn KeepsMember KeepsMembers KeepsTable SameButTag isDecided)

/-! ## Columns and tables of an outline -/

theorem sameButTag_node {tag : Text} (isTag : IsTag tag) (fresh : Text) (depth : Nat)
    (blanks : List Text) :
    SameButTag (node depth (propertyContent "lineageTag" fresh) blanks [])
      (node depth (propertyContent "lineageTag" tag) blanks []) := by
  refine Or.inr ⟨Block.isProperty_property _ _ depth blanks [] (by decide), tag, isTag, ?_⟩
  exact (Block.node_with_propertyLine (beginsVisibly_append (by decide) _) depth _ tag blanks []).symm

theorem isDecided_of_begins {block : Block} {word : Text} (begins : block.Begins word)
    (different : ∀ other ∈ (["formatString", "summarizeBy", "annotation"] : List Text),
      Text.differ other word = true) : isDecided block = true := by
  rw [isDecided, begins.isProperty (different _ (by simp)), begins.isProperty (different _ (by simp)),
    begins.hasHeader (different _ (by simp))]
  rfl

namespace Column

variable (column : Column)

/-- The members of a column that no earlier formatting reaches. -/
def decidedNodes (tag : Text) : List Block :=
  column.frontNodes none ++
    [ node 2 (propertyContent "lineageTag" tag) [] [],
      node 2 (propertyContent "sourceColumn" column.source) [[]] [] ]

theorem filter_isDecided_block {state : ColumnState} (annotations : HasAnnotations state) :
    (column.block state).children.filter isDecided = column.decidedNodes state.tag := by
  have property (name value : Text) (blanks : List Text) (visible : BeginsVisibly name)
      (different : ∀ other ∈ (["formatString", "summarizeBy", "annotation"] : List Text),
        Text.differ other name = true) :
      isDecided (node 2 (propertyContent name value) blanks []) = true :=
    isDecided_of_begins (Block.begins_property name 2 value blanks [] visible) different
  have flags (flag : Bool) (name : Text) (ends : HasVisibleEnds name)
      (different : ∀ other ∈ (["formatString", "summarizeBy", "annotation"] : List Text),
        Text.differ other name = true) :
      (flagNodes flag name).filter isDecided = flagNodes flag name := by
    cases flag with
    | false => rfl
    | true =>
        exact List.filter_cons_of_pos (isDecided_of_begins (Block.begins_self ends 2 [] []) different)
  have format : (formatNodes state.format).filter isDecided = [] := by
    cases state.format with
    | none => rfl
    | some format =>
        refine List.filter_cons_of_neg ?_
        rw [isDecided, Block.isProperty_property "formatString" format 2 [] [] (by decide)]
        simp
  have summary : isDecided (node 2 (propertyContent "summarizeBy" state.summary) [] []) = false := by
    rw [isDecided, Block.isProperty_property "summarizeBy" state.summary 2 [] [] (by decide)]
    simp
  have others : state.annotations.filter isDecided = [] := by
    refine List.filter_eq_nil_iff.mpr fun block member => ?_
    rw [isDecided, annotations block member]
    simp
  have children : (column.block state).children =
      node 2 (propertyContent "dataType" column.dataType.name) [] [] ::
        (formatNodes state.format ++ column.laterNodes state) := by
    rw [column.block_eq state]
    rfl
  rw [children, laterNodes, List.filter_cons_of_pos (property "dataType" _ _ (by decide) (by decide)),
    List.filter_append, format, List.nil_append, List.filter_append, List.filter_append,
    List.filter_append, flags _ "isHidden" (.of_isTrimmed (by decide) (by decide)) (by decide),
    flags _ "isKey" (.of_isTrimmed (by decide) (by decide)) (by decide), others,
    List.filter_cons_of_pos (property "lineageTag" _ _ (by decide) (by decide)),
    List.filter_cons_of_neg (by rw [summary]; decide),
    List.filter_cons_of_pos (property "sourceColumn" _ _ (by decide) (by decide))]
  simp [decidedNodes, frontNodes, formatNodes]

theorem keepsColumn_block {fresh merged : ColumnState} (written : fresh.IsWritten)
    (other : merged.IsWritten) : KeepsColumn (column.block fresh) (column.block merged) := by
  have annotations {state : ColumnState} (written : state.IsWritten) : HasAnnotations state :=
    fun block member => (written.annotations block member).2.2
  refine Prior.keepsColumn_of_members ⟨rfl, rfl⟩ ?_
  rw [column.filter_isDecided_block (annotations written),
    column.filter_isDecided_block (annotations other)]
  refine List.rel_append (List.forall₂_same.mpr fun block _ => .refl block) ?_
  exact .cons (sameButTag_node other.tag fresh.tag 2 []) (.cons (.refl _) .nil)

end Column

namespace TableOutline

variable (outline : TableOutline)

theorem keepsMember_headNodes {tag : Text} (isTag : IsTag tag) (fresh : Text) :
    List.Forall₂ KeepsMember (outline.headNodes fresh) (outline.headNodes tag) := by
  have same : List.Forall₂ SameButTag (outline.headNodes fresh) (outline.headNodes tag) := by
    rw [headNodes, headNodes]
    split
    · exact .cons (sameButTag_node isTag fresh 1 []) (.cons (.refl _) .nil)
    · exact .cons (sameButTag_node isTag fresh 1 [[]]) .nil
  have apart : ∀ block ∈ outline.headNodes fresh,
      block.hasHeader "column" = false ∧ block.hasHeader "measure" = false := fun block member =>
    ⟨outline.hasHeader_headNodes (by decide) block member,
      outline.hasHeader_headNodes (by decide) block member⟩
  refine List.Forall₂.imp ?_ ((List.forall₂_and_left _ _).mpr ⟨apart, same⟩)
  rintro block other ⟨⟨notColumn, notMeasure⟩, related⟩
  rw [KeepsMember, notColumn, notMeasure]
  exact related

theorem keepsMember_countNodes {tag : Text} (isTag : IsTag tag) (fresh : Text) :
    List.Forall₂ KeepsMember (outline.countNodes fresh) (outline.countNodes tag) := by
  rw [countNodes, countNodes]
  split
  · refine .cons ?_ .nil
    have begins := Block.begins_header "measure" 1 []
      [ node 2 (propertyContent "formatString" "#,0") [] [],
        node 2 (propertyContent "lineageTag" fresh) [[]] [] ] (by decide)
      outline.hasVisibleEnds_countHeader
    rw [KeepsMember, begins.hasHeader (by decide), Block.hasHeader, outline.header?_countNode]
    exact ⟨⟨rfl, rfl⟩, .cons (.refl _) (.cons (sameButTag_node isTag fresh 2 [[]]) .nil)⟩
  · exact .nil

theorem keepsTable_block (fresh : Member -> Text) {state : TableState} (isTag : IsTag state.tag)
    (isCountTag : IsTag state.countTag)
    (columns : List.Forall₂ KeepsMember (outline.freshState fresh).columns state.columns)
    (measures : ∀ block ∈ state.measures, block.hasHeader "measure" = true) :
    KeepsTable (outline.block (outline.freshState fresh)) (outline.block state) := by
  have written : (outline.block (outline.freshState fresh)).children =
      outline.headNodes (outline.freshState fresh).tag ++
        outline.countNodes (outline.freshState fresh).countTag ++
        (outline.freshState fresh).columns ++ outline.partitionNode :: outline.closingNodes :=
    congrArg (· ++ _) (List.append_nil _)
  have kept := List.rel_append (List.rel_append
    (outline.keepsMember_headNodes isTag (outline.freshState fresh).tag)
    (outline.keepsMember_countNodes isCountTag (outline.freshState fresh).countTag)) columns
  exact ⟨⟨rfl, rfl⟩, _, _, _, _, _, written, rfl, outline.hasHeader_partitionNode, kept, measures⟩

theorem keepsMember_columns (readable : outline.IsReadable) {tag : Member -> Text}
    (tags : ∀ member, IsTag (tag member)) {states : Column -> ColumnState}
    (written : ∀ column ∈ outline.columns, (states column).IsWritten) :
    List.Forall₂ KeepsMember (outline.freshState tag).columns
      (outline.columns.map fun column => column.block (states column)) := by
  refine List.forall₂_map_left_iff.mpr (List.forall₂_map_right_iff.mpr
    (List.forall₂_same.mpr fun column member => ?_))
  rw [KeepsMember, column.hasHeader_block, if_pos rfl]
  exact column.keepsColumn_block
    (Column.isWritten_freshState (readable.columns column member) (tags _)) (written column member)

/-- Whatever is known of a table, its merged block keeps what was written anew. -/
theorem keepsTable_mergedBlock (readable : outline.IsReadable) {tag : Member -> Text}
    (tags : ∀ member, IsTag (tag member)) {known : Option Prior.Table}
    (writable : ∀ earlier ∈ known, earlier.IsWritable) :
    KeepsTable (outline.block (outline.freshState tag)) (outline.mergedBlock tag known) := by
  have written (column : Column) (member : column ∈ outline.columns) :=
    Column.isWritten_freshState (readable.columns column member) (tags (.column column.source))
  cases known with
  | none =>
      refine outline.keepsTable_block tag (tags _) (tags _) ?_ (by simp [freshState])
      exact outline.keepsMember_columns readable tags written
  | some earlier =>
      have inOrder := writable earlier rfl
      refine outline.keepsTable_block tag (Prior.isTag_getD inOrder.tag (tags _))
        (Prior.isTag_getD (inOrder.measureTags _) (tags _)) ?_ ?_
      · exact outline.keepsMember_columns readable tags fun column member =>
          Column.isWritten_merged (written column member) inOrder _
      · intro block member
        obtain ⟨measure, inside, rfl⟩ := List.mem_map.mp member
        exact (inOrder.measures measure
          (List.mem_of_mem_filter (List.mem_of_mem_filter inside))).2.2

end TableOutline

end Definition

namespace Prior

/-! ## Relationships -/

/-- A relationship is unchanged but for its name. -/
structure KeepsRelationship (fresh merged : Block) : Prop where
  members : merged.docs = fresh.docs ∧ merged.children = fresh.children
  name : merged.line = fresh.line ∨
    fresh.hasHeader "relationship" = true ∧ ∃ name, merged.line = "relationship " ++ name

variable {definitions : DefinitionSet}

theorem keepsRelationship_merge (block : Block) :
    KeepsRelationship block
      (if block.hasHeader "relationship" then mergeRelationship (.ofDefinitions definitions) block
      else block) := by
  by_cases header : block.hasHeader "relationship" = true
  · rw [if_pos header]
    rcases mergeRelationship_eq definitions block with same | ⟨prior, _, _, _, _, same⟩
    · rw [same]
      exact ⟨⟨rfl, rfl⟩, Or.inl rfl⟩
    · rw [same]
      exact ⟨⟨rfl, rfl⟩, Or.inr ⟨header, _, rfl⟩⟩
  · rw [if_neg header]
    exact ⟨⟨rfl, rfl⟩, Or.inl rfl⟩

/-- Merged relationships are the fresh ones and earlier ones that people have added. -/
theorem exists_blocks_mergeRelationships (definitions : DefinitionSet) (blocks : List Block) :
    ∃ changed added,
      (mergeRelationships (.ofDefinitions definitions) ⟨blocks, true⟩).blocks = changed ++ added ∧
      List.Forall₂ KeepsRelationship blocks changed ∧
      ∀ block ∈ added, ∃ prior ∈ relationshipBlocks definitions,
        isAdded (freshKeys ⟨blocks, true⟩) prior = true ∧ LosesDescriptions prior block := by
  refine ⟨_, _, rfl, ?_, ?_⟩
  · exact List.forall₂_map_right_iff.mpr
      (List.forall₂_same.mpr fun block _ => keepsRelationship_merge block)
  · intro block member
    obtain ⟨added, inside, rfl⟩ := List.mem_map.mp member
    obtain ⟨prior, priorMember, same, kept⟩ := exists_of_mem_userRelationships inside
    refine ⟨prior, priorMember, kept, ?_⟩
    rw [same]
    exact losesDescriptions_withoutDescriptions prior

/-! ## Parameters -/

variable {name value : Text} (begins : IsContent name) (single : Text.IsSingleLine value)
include begins single

/-- The line of a property stands at the depth that it was written for. -/
theorem isHeaderLine_propertyLine (depth : Nat) :
    Document.IsHeaderLine (Block.propertyLine depth name value) ∧
      Block.depthOf (Block.propertyLine depth name value) = depth := by
  have content : IsContent (propertyContent name value) := isContent_property begins single
  have line : Block.propertyLine depth name value = Line.tabs depth ++ propertyContent name value := by
    simp [Block.propertyLine, propertyContent]
  rw [line]
  exact ⟨content.isHeaderLine depth, content.beginsVisibly.depthOf depth⟩

theorem isNested_setProperty {block : Block} (nested : block.IsNested) :
    (block.setProperty name value).IsNested := by
  cases nested with
  | intro entry kids valid deeper descending each =>
      have blanks : ∀ blank ∈ entry.blanks.map Block.ofLine, isProperty name blank = false := by
        intro blank member
        obtain ⟨line, inside, rfl⟩ := List.mem_map.mp member
        exact not_isProperty_of_isBlankLine begins.beginsVisibly (valid.blanks line inside)
      let renew := fun kid : Block => { kid with line := Block.propertyLine kid.depth name value }
      have shape : (entry.toBlock kids).setProperty name value =
          entry.toBlock (changeFirst (isProperty name) renew kids) := by
        rw [Block.setProperty, Document.Entry.toBlock, Block.changeFirst_append_of_none _ _ blanks]
        rfl
      have depths : (changeFirst (isProperty name) renew kids).map Block.depth = kids.map Block.depth :=
        map_changeFirst (fun kid _ => (isHeaderLine_propertyLine begins single kid.depth).2) kids
      rw [shape]
      refine .intro entry _ valid ?_ ?_ ?_
      · intro kid member
        rcases Block.mem_changeFirst member with own | ⟨other, inside, rfl⟩
        · exact deeper kid own
        · rw [Block.depth, (isHeaderLine_propertyLine begins single other.depth).2]
          exact deeper other inside
      · rw [← List.pairwise_map (f := Block.depth) (R := fun left right => right ≤ left), depths, List.pairwise_map]
        exact descending
      · intro kid member
        rcases Block.mem_changeFirst member with own | ⟨other, inside, rfl⟩
        · exact each kid own
        · obtain ⟨header, same⟩ := isHeaderLine_propertyLine begins single other.depth
          exact isNested_withLine (each other inside) header same

omit begins single

theorem isNested_takeTag {tag : Option Text} (isTag : ∀ text ∈ tag, IsTag text) {block : Block}
    (nested : block.IsNested) : (takeTag tag block).IsNested := by
  cases tag with
  | none => exact nested
  | some tag => exact isNested_setProperty ⟨by decide, by decide⟩ (isTag tag rfl).isSingleLine nested

/-- Parameters keep everything but their tags. -/
theorem exists_blocks_mergeExpressions (definitions : DefinitionSet) {blocks : List Block}
    (nested : ∀ block ∈ blocks, block.IsNested ∧ block.depth = 0) :
    ∃ changed, mergeExpressions (.ofDefinitions definitions) ⟨blocks, true⟩ = ⟨changed, true⟩ ∧
      List.Forall₂ KeepsMembers blocks changed ∧
      ∀ block ∈ changed, block.IsNested ∧ block.depth = 0 := by
  have tags (block : Block) : ∀ tag ∈ (name? "expression" block).bind
      (Model.ofDefinitions definitions).expressionTags.get?, IsTag tag := by
    intro tag found
    obtain ⟨name, -, known⟩ := Option.bind_eq_some_iff.mp found
    exact isTag_of_get?_expressionTags known
  refine ⟨_, rfl, ?_, ?_⟩
  · refine List.forall₂_map_right_iff.mpr (List.forall₂_same.mpr fun block _ => ?_)
    split
    · exact keepsMembers_takeTag (tags block) block
    · exact ⟨⟨rfl, rfl⟩, List.forall₂_same.mpr fun member _ => .refl member⟩
  · intro block member
    obtain ⟨own, inside, rfl⟩ := List.mem_map.mp member
    obtain ⟨isNested, start⟩ := nested own inside
    split
    · refine ⟨isNested_takeTag (tags own) isNested, ?_⟩
      rw [Block.depth, (keepsMembers_takeTag (tags own) own).own.2]
      exact start
    · exact ⟨isNested, start⟩

/-- The file of parameters is read as nested blocks, whatever their values are. -/
theorem exists_ofText_parametersText (connection : Catalog.Connection) (tag : Text -> Text) :
    ∃ blocks, Document.ofText (Definition.parametersText connection tag) = ⟨blocks, true⟩ ∧
      blocks ≠ [] ∧ ∀ block ∈ blocks, block.IsNested ∧ block.depth = 0 := by
  have begins : IsContent "expression " := ⟨by decide, by decide⟩
  have ends : IsContent "annotation PBI_ResultType = Text" := ⟨by decide, by decide⟩
  have closing : ∃ front, connection.parameters.flatMap (Definition.parameterLines tag) =
      front ++ [.text 1 "annotation PBI_ResultType = Text", .blank] := by
    rw [Catalog.Connection.parameters]
    cases connection.type with
    | dataverse =>
        exact ⟨(Definition.parameterLines tag ("DataverseURL", connection.dataverseUrl)).take 3, rfl⟩
    | fabricLink =>
        exact ⟨Definition.parameterLines tag ("FabricSQLEndpoint", connection.fabricEndpoint) ++
          (Definition.parameterLines tag ("FabricLakehouse", connection.fabricLakehouse)).take 3, rfl⟩
  refine Document.exists_ofText_fileText begins ends ?_ closing
  rw [Catalog.Connection.parameters]
  cases connection.type <;> exact ⟨_, _, rfl⟩

/-! ## Generated sets -/

/-- A merged set states what the fresh one states: there are the same files, apart from
one for relationships that people have added, and in each file the same blocks. -/
structure KeepsFresh (earlier fresh merged : DefinitionSet) : Prop where
  files : ∀ path, path ≠ Path.relationships -> merged.contains path = fresh.contains path
  tables : ∀ path, Path.isInTablesFolder path = true -> fresh.contains path = true ->
    ∃ table other, fileBlocks fresh path = [table] ∧ fileBlocks merged path = [other] ∧
      KeepsTable table other
  relationships : ∃ changed added,
    fileBlocks merged Path.relationships = changed ++ added ∧
    List.Forall₂ KeepsRelationship (fileBlocks fresh Path.relationships) changed ∧
    (∀ block ∈ added, ∃ prior ∈ relationshipBlocks earlier,
      isAdded (relationshipKeys fresh) prior = true ∧ LosesDescriptions prior block) ∧
    (fresh.contains Path.relationships = true -> merged.contains Path.relationships = true) ∧
    (merged.contains Path.relationships = true ->
      fresh.contains Path.relationships = true ∨ added ≠ [])
  parameters : List.Forall₂ KeepsMembers (fileBlocks fresh Path.expressions)
    (fileBlocks merged Path.expressions)
  others : ∀ path, Path.isInTablesFolder path = false -> path ≠ Path.relationships ->
    path ≠ Path.expressions -> merged.get? path = fresh.get? path

theorem contains_relationships_merge (fresh : DefinitionSet) (earlier : Model)
    (contained : fresh.contains Path.relationships = true) :
    (merge fresh earlier).contains Path.relationships = true := by
  rw [merge, if_pos contained, SortedMap.contains_eq, SortedMap.get?_mapValues, Option.isSome_map,
    ← SortedMap.contains_eq]
  exact contained

theorem fileBlocks_eq_nil {definitions : DefinitionSet} {path : Text}
    (absent : definitions.contains path = false) : fileBlocks definitions path = [] := by
  rw [SortedMap.contains_eq, Option.isSome_eq_false_iff, Option.isNone_iff_eq_none] at absent
  rw [fileBlocks, absent]
  rfl

section

variable {options : Generation.Options} {supply : Generation.Supply} {selection : Catalog.Selection}
variable {relationships : List Definition.Relationship} {output : Generation.Output}
variable {earlier : DefinitionSet}

theorem exists_keepsTable (generated : Generation.generate options supply selection = .ok output)
    (names : ∀ plan ∈ Generation.plans options selection, plan.HasSingleLines)
    (tags : ∀ slot, IsTag (supply slot)) (orderly : IsOrderly earlier) {path : Text}
    (isTable : Path.isInTablesFolder path = true)
    (contained : output.definitions.contains path = true) :
    ∃ table other, fileBlocks output.definitions path = [table] ∧
      fileBlocks (merge output.definitions (.ofDefinitions earlier)) path = [other] ∧
      KeepsTable table other := by
  rw [SortedMap.contains_eq, Option.isSome_iff_exists] at contained
  obtain ⟨text, isFresh⟩ := contained
  obtain ⟨outline, tag, written, merged⟩ :=
    Generation.exists_mergedBlock generated names tags isTable isFresh
  have kept : KeepsTable (outline.block (outline.freshState tag))
      (outline.mergedBlock tag
        ((Model.ofDefinitions earlier).tables.get? (Text.trim outline.logicalName))) :=
    outline.keepsTable_mergedBlock written.readable written.tags fun _ found =>
      isWritable_of_get?_tables found
  refine ⟨_, _, ?_, ?_, kept⟩
  · rw [fileBlocks, isFresh, Option.elim_some, written.ofText]
  · rw [fileBlocks, merged, Option.elim_some, Definition.TableOutline.ofText_mergedBlock
      written.readable written.tags fun _ found => isOrderlyTable_of_get?_tables orderly found]

theorem exists_keepsRelationship
    (generated : Generation.IsGenerated options supply selection relationships output)
    (orderly : IsOrderly earlier) :
    ∃ changed added,
      fileBlocks (merge output.definitions (.ofDefinitions earlier)) Path.relationships =
        changed ++ added ∧
      List.Forall₂ KeepsRelationship (fileBlocks output.definitions Path.relationships) changed ∧
      (∀ block ∈ added, ∃ prior ∈ relationshipBlocks earlier,
        isAdded (relationshipKeys output.definitions) prior = true ∧
        LosesDescriptions prior block) ∧
      ((merge output.definitions (.ofDefinitions earlier)).contains Path.relationships = true ->
        output.definitions.contains Path.relationships = true ∨ added ≠ []) := by
  obtain ⟨nested, written⟩ := get?_relationships_merge generated (.ofDefinitions earlier)
  obtain ⟨changed, added, parts, kept, origin⟩ := exists_blocks_mergeRelationships earlier
    (fileBlocks output.definitions Path.relationships)
  have places : ∀ block ∈ relationshipBlocks earlier, block.depth = 0 := by
    intro block member
    rw [relationshipBlocks] at member
    cases found : earlier.get? Path.relationships with
    | none =>
        rw [found] at member
        cases member
    | some text =>
        rw [found] at member
        exact orderly.relationships text found block member
  have read := fileBlocks_of_relationshipText? written
    (isNested_of_mem_mergeRelationships places nested)
  refine ⟨changed, added, read.trans parts, kept, ?_, ?_⟩
  · rw [relationshipKeys, relationshipBlocks_eq output.definitions]
    exact origin
  · intro contained
    by_contra neither
    obtain ⟨absent, none⟩ := not_or.mp neither
    rw [fileBlocks_eq_nil (by simpa using absent), List.forall₂_nil_left_iff] at kept
    rw [SortedMap.contains_eq, written, parts, kept, not_not.mp none] at contained
    cases contained

/-- The file of parameters and what a merge makes of it. -/
theorem get?_expressions_merge
    (generated : Generation.IsGenerated options supply selection relationships output) :
    fileBlocks output.definitions Path.expressions ≠ [] ∧
      (∀ block ∈ fileBlocks output.definitions Path.expressions,
        block.IsNested ∧ block.depth = 0) ∧
      ∀ earlier, (merge output.definitions earlier).get? Path.expressions =
        some (Document.render (mergeExpressions earlier
          ⟨fileBlocks output.definitions Path.expressions, true⟩)) := by
  have path : Path.isInTablesFolder Path.expressions = false ∧
      Path.relationships ≠ Path.expressions := by decide
  obtain ⟨blocks, read, nonempty, nested⟩ := exists_ofText_parametersText options.connection
    fun name => supply (.parameter name)
  have isFresh := generated.get?_of_mem_others (List.mem_append_right _ List.mem_cons_self)
  have whole : fileBlocks output.definitions Path.expressions = blocks := by
    rw [fileBlocks, isFresh, Option.elim_some, read]
  rw [whole]
  refine ⟨nonempty, nested, fun earlier => ?_⟩
  rw [get?_merge_of_ne _ _ path.2, isFresh, Option.map_some, mergeFile, path.1,
    if_neg Bool.false_ne_true, if_neg (Ne.symm path.2), if_pos rfl, read]

theorem keepsMembers_parameters
    (generated : Generation.IsGenerated options supply selection relationships output) :
    List.Forall₂ KeepsMembers (fileBlocks output.definitions Path.expressions)
      (fileBlocks (merge output.definitions (.ofDefinitions earlier)) Path.expressions) := by
  obtain ⟨nonempty, nested, written⟩ := get?_expressions_merge generated
  obtain ⟨changed, merged, kept, again⟩ := exists_blocks_mergeExpressions earlier nested
  have present : changed ≠ [] := by
    intro empty
    rw [empty] at kept
    exact nonempty (List.forall₂_nil_right_iff.mp kept)
  have read : fileBlocks (merge output.definitions (.ofDefinitions earlier)) Path.expressions =
      changed := by
    rw [fileBlocks, written, merged, Option.elim_some, Document.ofText_render_of_level present again]
  rw [read]
  exact kept

end

/-- A merge with an orderly set overrides nothing that a generated set states. -/
theorem merge_keepsFresh {options : Generation.Options} {supply : Generation.Supply}
    {selection : Catalog.Selection} {output : Generation.Output}
    (generated : Generation.generate options supply selection = .ok output)
    (names : ∀ plan ∈ Generation.plans options selection, plan.HasSingleLines)
    (tags : ∀ slot, IsTag (supply slot)) {earlier : DefinitionSet} (orderly : IsOrderly earlier) :
    KeepsFresh earlier output.definitions
      (merge output.definitions (.ofDefinitions earlier)) := by
  obtain ⟨relationships, isGenerated⟩ := Generation.exists_isGenerated generated
  obtain ⟨changed, added, read, kept, origin, present⟩ :=
    exists_keepsRelationship isGenerated orderly
  refine ⟨?_, ?_, ⟨changed, added, read, kept, origin,
    contains_relationships_merge _ _, present⟩, keepsMembers_parameters isGenerated, ?_⟩
  · intro path other
    rw [SortedMap.contains_eq, SortedMap.contains_eq, get?_merge_of_ne _ _ (Ne.symm other),
      Option.isSome_map]
  · intro path isTable contained
    exact exists_keepsTable generated names tags orderly isTable contained
  · intro path notTable notRelationships notExpressions
    have left (text : Text) : mergeFile (.ofDefinitions earlier) path text = text := by
      rw [mergeFile, notTable, if_neg Bool.false_ne_true, if_neg notRelationships,
        if_neg notExpressions]
    rw [get?_merge_of_ne _ _ (Ne.symm notRelationships)]
    cases output.definitions.get? path with
    | none => rfl
    | some text => rw [Option.map_some, left]

/-- A table whose column has been formatted by hand, beside a measure and a relationship
that people have added, while the fresh set has no relationships. -/
theorem merge_keepsFresh_formatted :
    let selection : Catalog.Selection :=
      { modelName := "Sales"
        tables := [{ Catalog.Table.plain "account" "accountid" with role := .fact }]
        edges := []
        calendar := none }
    let supply : Generation.Supply := fun _ => "fresh"
    let earlier : DefinitionSet := .ofList
      [("definition/tables/Account.tmdl", Block.textOfLines
        ["table Account", "\tlineageTag: old", "", "\tcolumn accountid", "\t\tdataType: int64",
          "\t\tformatString: 0", "\t\tlineageTag: key", "\t\tsummarizeBy: sum",
          "\t\tsourceColumn: accountid", "", "\t\tannotation Note = kept", "",
          "\tmeasure Total = 1", "", "\tannotation SemforgeLogicalName = account", ""]),
        (Path.relationships, Block.textOfLines
          ["relationship mine", "\tfromColumn: account.ownerid", "\ttoColumn: person.personid", ""])]
    ∃ output, Generation.generate .standard supply selection = .ok output ∧
      output.definitions.contains Path.relationships = false ∧
      KeepsFresh earlier output.definitions
        (merge output.definitions (.ofDefinitions earlier)) := by
  intro selection supply earlier
  have written : (Generation.generate .standard supply selection).toOption.map (fun output =>
      output.definitions.contains Path.relationships) = some false := by
    decide +kernel
  obtain ⟨output, found, absent⟩ := Option.map_eq_some_iff.mp written
  have generated := Generation.eq_ok_of_toOption found
  exact ⟨output, generated, absent, merge_keepsFresh generated (by decide +kernel)
    (fun _ => by decide) (show IsOrderly earlier by decide +kernel)⟩

end Prior

end TabularModel
