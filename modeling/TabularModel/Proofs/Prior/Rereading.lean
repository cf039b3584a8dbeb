import TabularModel.Proofs.Prior.Merging

/-!
# Reading a merged table again

Blocks that people have written may stand deeper than their place, and are then
read as parts of a block in front of them. The lines that an outline settles are
read all the same: the columns in their order, each beginning with its members,
and the members of the table around them.
-/

set_option autoImplicit false

namespace TabularModel

open Block (node entryAt)
open Document (Entry Spells nest rootsAt)
open Prior (IsTag annotationOf?)

namespace Definition

/-- Entries begin as deep as the blocks that they spell. -/
theorem depth_head?_append {front : List Entry} {blocks : List Block} {level : Nat}
    (same : front.head?.map Entry.depth = blocks.head?.map Block.depth)
    (starts : blocks.head?.map Block.depth = some level) (back : List Entry) :
    ∀ entry ∈ (front ++ back).head?, entry.depth = level := by
  rw [starts, Option.map_eq_some_iff] at same
  obtain ⟨entry, found, depth⟩ := same
  intro other member
  rw [List.head?_append, found, Option.some_or, Option.mem_some_iff] at member
  rw [← member, depth]

/-- What was taken over into a column stands inside it. -/
structure ColumnState.IsWritten (state : ColumnState) : Prop where
  tag : IsTag state.tag
  format : ∀ text ∈ state.format, Text.IsSingleLine text
  summary : Text.IsSingleLine state.summary
  annotations : ∀ block ∈ state.annotations,
    block.IsNested ∧ 2 ≤ block.depth ∧ block.hasHeader "annotation" = true

namespace Column

variable (column : Column)

/-- The first line of a column. -/
def entry : Entry :=
  entryAt 1 ("column" ++ ' ' :: Name.written column.name) []

/-- A block that begins with the lines of a column in the given state. -/
structure IsReread (state : ColumnState) (block : Block) : Prop where
  line : block.line = column.entry.line
  members : ∃ more, block.children.map Block.line =
    (column.memberNodes state.tag state.format state.summary ++ more).map Block.line

/-- The entries of a column, which begin it whatever deeper entries come behind. -/
structure HasEntries (state : ColumnState) (inner : List Entry) : Prop where
  spells : Spells (column.entry :: inner) [column.block state]
  deeper : ∀ entry ∈ inner, 1 < entry.depth
  reread : ∀ extra : List Entry, (∀ entry ∈ extra, 1 < entry.depth) ->
    column.IsReread state (column.entry.toBlock (nest (inner ++ extra)))

theorem depth_entry : column.entry.depth = 1 := by
  have visible : BeginsVisibly ("column" ++ ' ' :: Name.written column.name) :=
    beginsVisibly_append (by decide) _
  exact visible.depthOf 1

theorem exists_hasEntries (single : column.HasSingleLines) {state : ColumnState}
    (written : state.IsWritten) : ∃ inner, column.HasEntries state inner := by
  have members := areAt_memberNodes single written.tag.isSingleLine written.format written.summary
  have kids : ∀ block ∈ column.memberNodes state.tag state.format state.summary ++
      state.annotations, block.IsNested ∧ 2 ≤ block.depth := by
    intro block member
    rcases List.mem_append.mp member with member | member
    · exact ⟨(members block member).1, (members block member).2.ge⟩
    · exact ⟨(written.annotations block member).1, (written.annotations block member).2.1⟩
  obtain ⟨inner, spells, deep, lines, first⟩ := Document.exists_spells_at 2 _ kids
  refine ⟨inner, .toBlock (Block.entryAt_valid (isContent_columnHeader single) 1 areBlank_nil) spells,
    ?_, ?_⟩
  · intro entry member
    exact deep entry member
  · intro extra bound
    refine ⟨rfl, ?_⟩
    have whole : ∀ entry ∈ inner ++ extra, 2 ≤ entry.depth := by
      intro entry member
      rcases List.mem_append.mp member with member | member
      · exact deep entry member
      · exact bound entry member
    have typeNode : (column.memberNodes state.tag state.format state.summary ++
        state.annotations).head?.map Block.depth = some 2 := by
      rw [memberNodes, frontNodes]
      exact congrArg some (Block.depth_node (beginsVisibly_append (by decide) _) 2 _ _)
    have head := depth_head?_append first typeNode extra
    have kept : (column.memberNodes state.tag state.format state.summary).filter (·.depth == 2) =
        column.memberNodes state.tag state.format state.summary := by
      rw [List.filter_eq_self]
      intro block member
      simp [(members block member).2]
    refine ⟨(state.annotations.filter (·.depth == 2)) ++
      ((extra.filter (·.depth == 2)).map Entry.line).map Block.ofLine, ?_⟩
    have children : (column.entry.toBlock (nest (inner ++ extra))).children =
        nest (inner ++ extra) := rfl
    rw [children, Document.map_line_nest whole head, List.filter_append, List.map_append, lines,
      List.filter_append, kept]
    simp [Block.ofLine]

end Column

/-! ## The columns of a table -/

/-- Whether an entry begins a column. -/
def isColumnEntry (entry : Entry) : Bool :=
  (Block.ofLine entry.line).hasHeader "column"

/-- The column blocks among the blocks of entries at the first level or deeper. -/
def columnRoots (entries : List Entry) : List Block :=
  ((rootsAt 1 entries).filter fun root => isColumnEntry root.1).map fun root =>
    root.1.toBlock (nest root.2)

/-- Entries at the first level that begin no columns. -/
def NoColumns (entries : List Entry) : Prop :=
  ∀ entry ∈ entries, entry.depth = 1 -> isColumnEntry entry = false

theorem noColumns_of_lines {entries : List Entry} {blocks : List Block}
    (lines : (entries.filter (·.depth == 1)).map Entry.line =
      (blocks.filter (·.depth == 1)).map Block.line)
    (none : ∀ block ∈ blocks, block.hasHeader "column" = false) : NoColumns entries := by
  intro entry member same
  have inside : entry.line ∈ (entries.filter (·.depth == 1)).map Entry.line :=
    List.mem_map.mpr ⟨entry, List.mem_filter.mpr ⟨member, by simp [same]⟩, rfl⟩
  rw [lines] at inside
  obtain ⟨block, found, line⟩ := List.mem_map.mp inside
  have noHeader := none block (List.mem_of_mem_filter found)
  rw [isColumnEntry, ← line]
  exact noHeader

theorem columnRoots_append {front : List Entry} (back : List Entry) (none : NoColumns front) :
    columnRoots (front ++ back) = columnRoots back := by
  rw [columnRoots, Document.filter_rootsAt_append back isColumnEntry none, columnRoots]

theorem columnRoots_of_none {entries : List Entry} (none : NoColumns entries) :
    columnRoots entries = [] := by
  have all := columnRoots_append [] none
  rwa [List.append_nil] at all

theorem isColumnEntry_entry (column : Column) : isColumnEntry column.entry = true :=
  column.hasHeader_block ⟨[], none, [], []⟩

/-- The entries of columns, one column after the other, are read as these columns
in their order, whatever stands behind them. -/
theorem exists_columnEntries (columns : List Column) (states : Column -> ColumnState)
    (single : ∀ column ∈ columns, column.HasSingleLines)
    (written : ∀ column ∈ columns, (states column).IsWritten) :
    ∃ entries, Spells entries (columns.map fun column => column.block (states column)) ∧
      (∀ entry ∈ entries, 1 ≤ entry.depth) ∧
      entries.filter (·.depth == 1) = columns.map Column.entry ∧
      ∀ back, NoColumns back ->
        List.Forall₂ (fun column block => column.IsReread (states column) block) columns
          (columnRoots (entries ++ back)) := by
  induction columns with
  | nil =>
      refine ⟨[], .nil, by simp, rfl, ?_⟩
      intro back none
      rw [List.nil_append, columnRoots_of_none none]
      exact .nil
  | cons column columns ih =>
      obtain ⟨entries, spells, bound, level, reread⟩ :=
        ih (fun other member => single other (List.mem_cons_of_mem column member))
          (fun other member => written other (List.mem_cons_of_mem column member))
      obtain ⟨inner, own⟩ := column.exists_hasEntries (single column List.mem_cons_self)
        (written column List.mem_cons_self)
      have deeper : inner.filter (·.depth == 1) = [] := by
        rw [List.filter_eq_nil_iff]
        intro entry member
        have different : entry.depth ≠ 1 := (own.deeper entry member).ne'
        simpa using different
      refine ⟨(column.entry :: inner) ++ entries, own.spells.append spells, ?_, ?_, ?_⟩
      · intro entry member
        rw [List.mem_append, List.mem_cons] at member
        rcases member with (rfl | member) | member
        · exact column.depth_entry.ge
        · exact (own.deeper entry member).le
        · exact bound entry member
      · rw [List.filter_append, List.filter_cons_of_pos (by simp [column.depth_entry]), deeper, level]
        rfl
      · intro back none
        rw [List.append_assoc, columnRoots,
          Document.rootsAt_append (entries ++ back) column.depth_entry own.deeper,
          List.filter_cons, if_pos (isColumnEntry_entry column), List.map_cons]
        refine .cons (own.reread _ fun entry member => ?_) (reread back none)
        simpa using List.mem_takeWhile_imp member

/-! ## Tables -/

namespace TableOutline

/-- A block with the lines of a table, whose columns are in the given states. -/
structure IsReread (outline : TableOutline) (tag : Text) (states : Column -> ColumnState)
    (block : Block) : Prop where
  line : block.line = Line.tabs 0 ++ ("table" ++ ' ' :: Name.written outline.name)
  members : ∃ middle, block.children.map Block.line =
      (outline.headNodes tag ++ middle ++ outline.closingNodes).map Block.line ∧
    ∀ member ∈ middle, annotationOf? member = none
  columns : List.Forall₂ (fun column child => column.IsReread (states column) child)
    outline.columns (block.childrenWith "column")
  counted : (outline.countNodes []).map Block.line ⊆ block.children.map Block.line

variable {outline : TableOutline}

theorem map_line_countNodes (outline : TableOutline) (fresh other : Text) :
    (outline.countNodes fresh).map Block.line = (outline.countNodes other).map Block.line := by
  rw [countNodes, countNodes]
  split <;> rfl

theorem exists_cons_headNodes (outline : TableOutline) (tag : Text) :
    ∃ block others, outline.headNodes tag = block :: others := by
  rw [headNodes]
  split
  · exact ⟨_, _, rfl⟩
  · exact ⟨_, _, rfl⟩

/-- The members in front of the columns, the columns, and the members behind them. -/
theorem members_eq (outline : TableOutline) (state : TableState) :
    outline.members state =
      (outline.headNodes state.tag ++ outline.countNodes state.countTag) ++ (state.columns ++
        (state.measures ++ outline.partitionNode :: outline.closingNodes)) := by
  rw [members, List.append_assoc, List.append_assoc]

/-- The members of a table are no columns apart from its columns. -/
theorem hasHeader_column_front (state : TableState) :
    ∀ block ∈ outline.headNodes state.tag ++ outline.countNodes state.countTag,
      block.hasHeader "column" = false := by
  intro block member
  rcases List.mem_append.mp member with member | member
  · exact outline.hasHeader_headNodes (by decide) block member
  · exact (outline.begins_of_mem_countNodes member).hasHeader (by decide)

theorem hasHeader_column_back {state : TableState}
    (measures : ∀ block ∈ state.measures, block.hasHeader "measure" = true) :
    ∀ block ∈ state.measures ++ outline.partitionNode :: outline.closingNodes,
      block.hasHeader "column" = false := by
  intro block member
  rcases List.mem_append.mp member with member | member
  · exact (Block.begins_of_hasHeader (measures block member)).hasHeader (by decide)
  · exact outline.hasHeader_lastNodes (by decide) block member

/-- The columns of a table are those of its state. -/
theorem childrenWith_column_block {state : TableState}
    (columns : ∀ block ∈ state.columns, block.hasHeader "column" = true)
    (measures : ∀ block ∈ state.measures, block.hasHeader "measure" = true) :
    (outline.block state).childrenWith "column" = state.columns := by
  rw [Block.childrenWith, children_block, members_eq, List.filter_append (outline.headNodes state.tag ++ _),
    filter_hasHeader_of_none (hasHeader_column_front state), List.filter_append,
    filter_hasHeader_of_none (hasHeader_column_back measures), List.filter_eq_self.mpr columns,
    List.nil_append, List.append_nil]

theorem childrenWith_column_of_states {state : TableState} {states : Column -> ColumnState}
    (columns : state.columns = outline.columns.map fun column => column.block (states column))
    (measures : ∀ block ∈ state.measures, block.hasHeader "measure" = true) :
    (outline.block state).childrenWith "column" =
      outline.columns.map fun column => column.block (states column) := by
  rw [childrenWith_column_block ?_ measures, columns]
  intro block member
  rw [columns] at member
  obtain ⟨column, _, rfl⟩ := List.mem_map.mp member
  exact column.hasHeader_block _

/-- The lines between the first members of a table and its closing annotations
hold no annotations. -/
theorem annotationOf?_middle (outline : TableOutline) {state : TableState}
    (measures : ∀ block ∈ state.measures, block.hasHeader "measure" = true) :
    ∀ block ∈ outline.countNodes state.countTag ++
        (outline.columns.map fun column => column.entry.toBlock []) ++
        (state.measures.filter (·.depth == 1) ++ [outline.partitionNode]),
      annotationOf? block = none := by
  intro block member
  rw [List.mem_append, List.mem_append, List.mem_append] at member
  rcases member with (member | member) | member | member
  · exact (outline.begins_of_mem_countNodes member).annotationOf? (by decide)
  · obtain ⟨column, _, rfl⟩ := List.mem_map.mp member
    exact (Block.begins_header "column" 1 [] [] (by decide)
      (Name.hasVisibleEnds_written column.name)).annotationOf? (by decide)
  · exact (Block.begins_of_hasHeader
      (measures block (List.mem_of_mem_filter member))).annotationOf? (by decide)
  · rw [List.mem_singleton.mp member]
    exact outline.begins_partitionNode.annotationOf? (by decide)

/-- The first line of a table. -/
def entry (outline : TableOutline) : Entry :=
  entryAt 0 ("table" ++ ' ' :: Name.written outline.name) []

/-- Entries that are deeper than a table are read as its members. -/
theorem ofText_render_block (readable : outline.IsReadable) {state : TableState}
    {entries : List Entry} (spells : Spells entries (outline.members state))
    (bound : ∀ entry ∈ entries, 1 ≤ entry.depth) :
    Document.ofText (Document.render ⟨[outline.block state], true⟩) =
      ⟨[outline.entry.toBlock (nest entries)], true⟩ := by
  have header := isContent_tableHeader readable
  have whole := Spells.toBlock (Block.entryAt_valid header 0 areBlank_nil) spells
  have level : outline.entry.depth = 0 := header.beginsVisibly.depthOf 0
  have deeper : ∀ kid ∈ nest entries, outline.entry.depth < kid.depth := by
    intro kid member
    obtain ⟨entry, found, line⟩ := Document.exists_mem_depth_of_mem_nest member
    rw [level, Block.depth, ← line]
    exact bound entry found
  have attached := Document.attach_of_deeper _ _ [] deeper (by simp)
  rw [List.append_nil] at attached
  rw [← attached]
  exact whole.ofText_render (List.cons_ne_nil _ _)

/-- The column blocks among the members that are read from entries. -/
theorem childrenWith_column_entries {entries : List Entry}
    (bound : ∀ entry ∈ entries, 1 ≤ entry.depth)
    (first : ∀ entry ∈ entries.head?, entry.depth = 1) :
    (outline.entry.toBlock (nest entries)).childrenWith "column" = columnRoots entries := by
  have children : (outline.entry.toBlock (nest entries)).children = nest entries := rfl
  rw [Block.childrenWith, children, Document.nest_eq_map_rootsAt bound first, List.filter_map]
  rfl

/-- A merged table is read as one block with its lines and its columns. -/
theorem exists_isReread (readable : outline.IsReadable) {state : TableState}
    (states : Column -> ColumnState) (tag : IsTag state.tag)
    (count : Text.IsSingleLine state.countTag)
    (columns : state.columns = outline.columns.map fun column => column.block (states column))
    (written : ∀ column ∈ outline.columns, (states column).IsWritten)
    (measures : ∀ block ∈ state.measures,
      block.IsNested ∧ 1 ≤ block.depth ∧ block.hasHeader "measure" = true) :
    ∃ table, Document.ofText (Document.render ⟨[outline.block state], true⟩) = ⟨[table], true⟩ ∧
      outline.IsReread state.tag states table := by
  have atFirst {blocks : List Block} (level : AreAt 1 blocks) :
      ∀ block ∈ blocks, block.IsNested ∧ 1 ≤ block.depth :=
    fun block member => ⟨(level block member).1, (level block member).2.ge⟩
  have areMeasures := fun block member => (measures block member).2.2
  have headAt : AreAt 1 (outline.headNodes state.tag) := areAt_headNodes tag.isSingleLine
  have frontAt := headAt.append (areAt_countNodes readable count)
  have lastAt := AreAt.cons (isNested_partitionNode readable) (areAt_closingNodes readable)
  -- the members in front of the columns, the columns, and the members behind them
  obtain ⟨front, frontSpells, frontBound, frontLines, frontFirst⟩ :=
    Document.exists_spells_at 1 _ (atFirst frontAt)
  obtain ⟨middle, middleSpells, middleBound, middleLevel, reread⟩ :=
    exists_columnEntries outline.columns states readable.columns written
  obtain ⟨back, backSpells, backBound, backLines, -⟩ := Document.exists_spells_at 1
    (state.measures ++ outline.partitionNode :: outline.closingNodes) (by
      intro block member
      rcases List.mem_append.mp member with member | member
      · exact ⟨(measures block member).1, (measures block member).2.1⟩
      · exact atFirst lastAt block member)
  have inside : Spells (front ++ (middle ++ back)) (outline.members state) := by
    rw [members_eq, columns]
    exact frontSpells.append (middleSpells.append backSpells)
  have bound : ∀ entry ∈ front ++ (middle ++ back), 1 ≤ entry.depth := by
    intro entry member
    rw [List.mem_append, List.mem_append] at member
    rcases member with member | member | member
    · exact frontBound entry member
    · exact middleBound entry member
    · exact backBound entry member
  have tagNode : (outline.headNodes state.tag ++
      outline.countNodes state.countTag).head?.map Block.depth = some 1 := by
    obtain ⟨block, others, shape⟩ := outline.exists_cons_headNodes state.tag
    have level := headAt block (shape ▸ List.mem_cons_self)
    rw [shape, List.cons_append, List.head?_cons, Option.map_some, level.2]
  have first := depth_head?_append frontFirst tagNode (middle ++ back)
  have lines : (outline.entry.toBlock (nest (front ++ (middle ++ back)))).children.map Block.line =
      (outline.headNodes state.tag ++ (outline.countNodes state.countTag ++
        (outline.columns.map fun column => column.entry.toBlock []) ++
        (state.measures.filter (·.depth == 1) ++ [outline.partitionNode])) ++
        outline.closingNodes).map Block.line := by
    have children : (outline.entry.toBlock (nest (front ++ (middle ++ back)))).children =
        nest (front ++ (middle ++ back)) := rfl
    rw [children, Document.map_line_nest bound first, List.filter_append, List.filter_append,
      List.map_append, List.map_append, frontLines, backLines, middleLevel,
      frontAt.filter_depth, List.filter_append, lastAt.filter_depth]
    simp [Entry.toBlock]
  refine ⟨_, ofText_render_block readable inside bound, rfl,
    ⟨_, lines, outline.annotationOf?_middle areMeasures⟩, ?_, ?_⟩
  · rw [childrenWith_column_entries bound first,
      columnRoots_append _ (noColumns_of_lines frontLines (hasHeader_column_front state))]
    exact reread back (noColumns_of_lines backLines (hasHeader_column_back areMeasures))
  · rw [lines, outline.map_line_countNodes [] state.countTag]
    refine List.map_subset _ fun block member => ?_
    simp [member]

end TableOutline

end Definition

end TabularModel
