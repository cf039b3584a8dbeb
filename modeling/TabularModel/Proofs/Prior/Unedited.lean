import TabularModel.Proofs.Prior.Readback
import TabularModel.Proofs.Prior.Unchanged

/-!
# Sets that nobody has edited

A table that was written and not edited brings nothing into a later merge but its
tags, and the formats and summaries of its columns. These come back under the same
source even where the fresh column has another type, because nothing in a file tells
a format that was written from one that was chosen by hand.
-/

set_option autoImplicit false

namespace TabularModel

open Block (node)

namespace Prior

/-! ## What comes back -/

/-- The earlier column from which a column takes its formatting, in the earlier block
of its table. -/
def earlierColumn? (table : Option Block) (column : Block) : Option Block := do
  (columnBlocksFor (<- table) (<- columnSource? column)).getLast?

/-- A column in the format and with the summary of an earlier one. -/
def formattedLike (earlier : Option Block) (column : Block) : Block :=
  takeSummary (earlier.bind (·.property? "summarizeBy"))
    (takeFormat (earlier.bind (·.property? "formatString")) column)

/-- A column takes its format and its summary from an earlier one, if that states
them. All else is unchanged but for the tag, and so is the whole column if the earlier
one states the same. -/
structure RemainsColumn (earlier : Option Block) (fresh merged : Block) : Prop where
  formatted : KeepsMembers (formattedLike earlier fresh) merged
  format : merged.property? "formatString" =
    (earlier.bind (·.property? "formatString") <|> fresh.property? "formatString")
  summary : merged.property? "summarizeBy" =
    (earlier.bind (·.property? "summarizeBy") <|> fresh.property? "summarizeBy")
  same : (∀ column ∈ earlier,
      column.property? "formatString" = fresh.property? "formatString" ∧
        column.property? "summarizeBy" = fresh.property? "summarizeBy") ->
    KeepsMembers fresh merged

def RemainsMember (earlier : Option Block) (fresh merged : Block) : Prop :=
  if fresh.hasHeader "column" then RemainsColumn (earlierColumn? earlier fresh) fresh merged
  else if fresh.hasHeader "measure" then KeepsMembers fresh merged
  else SameButTag fresh merged

/-- A table keeps its members at their places, and gets no others. -/
structure RemainsTable (earlier : Option Block) (fresh merged : Block) : Prop where
  own : merged.docs = fresh.docs ∧ merged.line = fresh.line
  members : List.Forall₂ (RemainsMember earlier) fresh.children merged.children

/-! ## Tables that nobody has edited -/

/-- What is known of a table of which nothing was written by hand. -/
structure Table.IsUnedited (table : Table) : Prop where
  columns : ∀ source column, table.columns.get? source = some column ->
    column.annotations = [⟨"SummarizationSetBy", "Automatic", Definition.Column.summarizationNode⟩]
  measures : table.userMeasures = []

theorem formatting_of_readColumn? {block : Block} {column : Column}
    (read : readColumn? block = some column) :
    column.formatString = block.property? "formatString" ∧
      column.summarizeBy = block.property? "summarizeBy" := by
  obtain ⟨_, _, readSource⟩ := Option.bind_eq_some_iff.mp read
  obtain ⟨_, _, same⟩ := Option.bind_eq_some_iff.mp readSource
  cases same
  exact ⟨rfl, rfl⟩

/-- The formatting that is known of a column is what the last block from its source states. -/
theorem bind_get?_columns {block : Block} {table : Table} (parts : IsReadFrom block table)
    (source : Text) :
    (table.columns.get? source).bind (·.formatString) =
        (columnBlocksFor block source).getLast?.bind (·.property? "formatString") ∧
      (table.columns.get? source).bind (·.summarizeBy) =
        (columnBlocksFor block source).getLast?.bind (·.property? "summarizeBy") := by
  rw [get?_columns parts]
  cases last : (columnBlocksFor block source).getLast? with
  | none => exact ⟨rfl, rfl⟩
  | some column =>
      have known := eq_of_beq (List.mem_filter.mp (List.mem_of_getLast? last)).2
      rw [← map_source_readColumn?] at known
      obtain ⟨found, read, _⟩ := Option.map_eq_some_iff.mp known
      simp only [Option.bind_some, read]
      exact formatting_of_readColumn? read

end Prior

namespace Definition

open Prior (IsTag KeepsMembers RemainsColumn RemainsMember RemainsTable SameButTag formattedLike)

namespace Column

variable (column : Column)

/-- The state of a written column in the formatting of what is known of it. -/
def renewed (tag : Text) (known : Option Prior.Column) : ColumnState where
  tag := tag
  format := (known.bind (·.formatString)) <|> column.format
  summary := (known.bind (·.summarizeBy)).getD column.summary
  annotations := [summarizationNode]

theorem hasAnnotations_summarizationNode {state : ColumnState}
    (written : state.annotations = [summarizationNode]) : HasAnnotations state := by
  intro block member
  rw [written, List.mem_singleton] at member
  rw [member]
  exact Block.hasHeader_annotation 2 _ _ _ _

/-- The annotation that every written column carries replaces itself. -/
theorem merged_freshState {earlier : Prior.Table} (unedited : earlier.IsUnedited) (tag source : Text) :
    (column.freshState tag).merged earlier source =
      column.renewed ((earlier.columnTags.get? source).getD tag) (earlier.columns.get? source) := by
  unfold ColumnState.merged
  cases found : earlier.columns.get? source with
  | none => rfl
  | some known =>
      have header : summarizationNode.hasHeader "annotation" = true :=
        Block.hasHeader_annotation 2 _ _ _ _
      have own := areSettled_summarizationNode.foldl_readAnnotation? header
        annotationName?_summarizationNode
      have read : ([summarizationNode] : List Block).filterMap readAnnotation? = known.annotations := by
        rw [unedited.columns source known found]
        rfl
      simp only [ColumnState.formatted, freshState]
      rw [← read, own]
      rfl

theorem keepsMembers_block (state : ColumnState) {tag : Text} (isTag : IsTag tag) :
    KeepsMembers (column.block state) (column.block { state with tag := tag }) := by
  have kept := @Prior.keepsMembers_takeTag (some tag) (fun _ member => Option.some.inj member ▸ isTag)
    (column.block state)
  rw [takeTag_block] at kept
  exact kept

theorem isTrimmed_summary : Text.IsTrimmed column.summary ∧ Text.IsSingleLine column.summary := by
  rw [Column.summary]
  split <;> decide

theorem property?_summarizeBy_freshState (tag : Text) :
    (column.block (column.freshState tag)).property? "summarizeBy" = some column.summary := by
  rw [column.property?_summarizeBy]
  exact congrArg some column.isTrimmed_summary.1

variable {column}

theorem map_trim_format (trimmed : ∀ text ∈ column.format, Text.IsTrimmed text) :
    column.format.map Text.trim = column.format := by
  cases given : column.format with
  | none => rfl
  | some text => rw [Option.map_some, trimmed text given]

theorem property?_formatString_freshState (trimmed : ∀ text ∈ column.format, Text.IsTrimmed text)
    (tag : Text) :
    (column.block (column.freshState tag)).property? "formatString" = column.format := by
  rw [column.property?_formatString (hasAnnotations_summarizationNode rfl)]
  exact map_trim_format trimmed

/-- A written column is settled in the formatting of what is known of it. -/
theorem isSettled_renewed (single : column.HasSingleLines)
    (trimmed : ∀ text ∈ column.format, Text.IsTrimmed text) {tag : Text} (isTag : IsTag tag)
    {known : Option Prior.Column} (writable : ∀ earlier ∈ known, earlier.IsWritable) :
    (column.renewed tag known).IsSettled column := by
  have format : ∀ text ∈ known.bind (·.formatString), Text.IsTrimmed text ∧ Text.IsSingleLine text := by
    intro text found
    obtain ⟨earlier, member, stated⟩ := Option.bind_eq_some_iff.mp found
    exact (writable earlier member).format text stated
  have summary : ∀ text ∈ known.bind (·.summarizeBy), Text.IsTrimmed text ∧ Text.IsSingleLine text := by
    intro text found
    obtain ⟨earlier, member, stated⟩ := Option.bind_eq_some_iff.mp found
    exact (writable earlier member).summary text stated
  refine ⟨isTag, ?_, ?_, ?_, areAt_summarizationNode, areSettled_summarizationNode⟩
  · rw [renewed]
    cases given : known.bind (·.formatString) with
    | none => exact fun text member => ⟨trimmed text member, single.format text member⟩
    | some text => exact fun other member => Option.some.inj member ▸ format text given
  · rw [renewed]
    cases known.bind (·.formatString) with
    | none => exact id
    | some text => exact fun absent => absurd absent (Option.some_ne_none text)
  · rw [renewed]
    cases given : known.bind (·.summarizeBy) with
    | none => exact column.isTrimmed_summary
    | some text => exact summary text given

/-- The block of a written column, merged with what is known under its source. -/
theorem remainsColumn_block {fresh tag : Text} (isTag : IsTag tag)
    (trimmed : ∀ text ∈ column.format, Text.IsTrimmed text) {known : Option Prior.Column}
    (writable : ∀ earlier ∈ known, earlier.IsWritable) {earlier : Option Block}
    (format : known.bind (·.formatString) = earlier.bind (·.property? "formatString"))
    (summary : known.bind (·.summarizeBy) = earlier.bind (·.property? "summarizeBy")) :
    RemainsColumn earlier (column.block (column.freshState fresh))
      (column.block (column.renewed tag known)) := by
  have own : HasAnnotations (column.freshState fresh) := hasAnnotations_summarizationNode rfl
  have other : HasAnnotations (column.renewed tag known) := hasAnnotations_summarizationNode rfl
  have readFormat := property?_formatString_freshState trimmed fresh
  have readSummary := column.property?_summarizeBy_freshState fresh
  have like : KeepsMembers (formattedLike earlier (column.block (column.freshState fresh)))
      (column.block (column.renewed tag known)) := by
    rw [formattedLike, ← format, ← summary, column.takeFormat_block _ own, column.takeSummary_block]
    exact column.keepsMembers_block _ isTag
  refine ⟨like, ?_, ?_, ?_⟩
  · rw [column.property?_formatString other, readFormat, ← format, renewed]
    cases given : known.bind (·.formatString) with
    | none => exact map_trim_format trimmed
    | some text =>
        obtain ⟨column, found, stated⟩ := Option.bind_eq_some_iff.mp given
        have trimmedText : Text.trim text = text := ((writable column found).format text stated).1
        exact congrArg some trimmedText
  · rw [column.property?_summarizeBy, readSummary, ← summary, renewed]
    cases given : known.bind (·.summarizeBy) with
    | none => exact congrArg some column.isTrimmed_summary.1
    | some text =>
        obtain ⟨column, found, stated⟩ := Option.bind_eq_some_iff.mp given
        have trimmedText : Text.trim text = text := ((writable column found).summary text stated).1
        exact congrArg some trimmedText
  · intro equal
    have unchanged : column.renewed tag known = { column.freshState fresh with tag := tag } := by
      rw [renewed, format, summary]
      cases earlier with
      | none => rfl
      | some block =>
          obtain ⟨sameFormat, sameSummary⟩ := equal block rfl
          rw [readFormat] at sameFormat
          rw [readSummary] at sameSummary
          simp only [Option.bind_some, sameFormat, sameSummary, freshState]
          cases column.format <;> rfl
    rw [unchanged]
    exact column.keepsMembers_block _ isTag

end Column

namespace TableOutline

variable {outline : TableOutline}

/-- The states of a table beside what is known of one that nobody has edited. -/
def renewedColumn (known : Option Prior.Table) (tag : Member -> Text) (column : Column) :
    ColumnState :=
  column.renewed
    ((known.bind (·.columnTags.get? (Text.trim column.source))).getD (tag (.column column.source)))
    (known.bind (·.columns.get? (Text.trim column.source)))

def renewedState (outline : TableOutline) (known : Option Prior.Table) (tag : Member -> Text) :
    TableState where
  tag := (known.bind (·.tag)).getD (tag .table)
  countTag := (known.bind (·.measureTags.get? (Convention.countMeasure outline.name))).getD
    (tag (.measure (Convention.countMeasure outline.name)))
  columns := outline.columns.map fun column => column.block (renewedColumn known tag column)
  measures := []

/-- A written table has one measure at most, and that is the count of its rows. -/
theorem isUnedited_of_readTable? {states : Column -> ColumnState} {state : TableState}
    (columns : state.columns = outline.columns.map fun column => column.block (states column))
    (annotations : ∀ column, (states column).annotations = [Column.summarizationNode])
    (measures : state.measures = []) {earlier : Prior.Table}
    (read : Prior.readTable? (outline.block state) = some earlier) : earlier.IsUnedited := by
  have parts := Prior.isReadFrom_of_readTable? read
  have none : ∀ block ∈ state.measures, block.hasHeader "measure" = true := by simp [measures]
  refine ⟨?_, ?_⟩
  · intro source known found
    rw [Prior.get?_columns parts] at found
    obtain ⟨block, last, readBlock⟩ := Option.bind_eq_some_iff.mp found
    have inside := (List.mem_filter.mp (List.mem_of_getLast? last)).1
    rw [childrenWith_column_of_states columns none] at inside
    obtain ⟨column, _, rfl⟩ := List.mem_map.mp inside
    obtain ⟨_, _, readColumn⟩ := Option.bind_eq_some_iff.mp readBlock
    obtain ⟨_, _, same⟩ := Option.bind_eq_some_iff.mp readColumn
    have own : Prior.annotationsOf (column.block (states column)) =
        [⟨"SummarizationSetBy", "Automatic", Column.summarizationNode⟩] := by
      rw [column.annotationsOf_block
        (Column.hasAnnotations_summarizationNode (annotations column)), annotations column]
      rfl
    cases same
    exact own
  · have named := parts.name
    have notMeasures : ∀ block ∈ state.columns, block.hasHeader "measure" = false := by
      rw [columns]
      exact fun block member => (begins_of_mem_columns member).hasHeader (by decide)
    rw [outline.name?_table (outline.isReread_block columns none).line] at named
    rw [Prior.Table.userMeasures, parts.measures, ← Option.some.inj named,
      childrenWith_measure_block notMeasures none, measures, List.append_nil]
    unfold countNodes
    by_cases counted : outline.isCounted = true
    · rw [if_pos counted, List.filterMap_cons_some (readMeasure?_countNode [] _)]
      rfl
    · rw [if_neg counted]
      rfl

/-- What a merge makes of a table beside one that was written and not edited. -/
theorem mergedBlock_of_isUnedited {known : Option Prior.Table}
    (unedited : ∀ table ∈ known, table.IsUnedited) (tag : Member -> Text) :
    outline.mergedBlock tag known = outline.block (outline.renewedState known tag) := by
  cases known with
  | none => rfl
  | some earlier =>
      have columns : (outline.mergedState earlier tag).columns =
          (outline.renewedState (some earlier) tag).columns :=
        List.map_congr_left fun column _ => congrArg column.block
          (Column.merged_freshState _ (unedited earlier rfl) _ _)
      have measures : (outline.mergedState earlier tag).measures = [] := by
        simp only [mergedState, (unedited earlier rfl).measures, List.filter_nil, List.map_nil]
      rw [mergedBlock, Option.map_some, Option.getD_some, block, block, members, members, columns,
        measures]
      rfl

variable {known : Option Prior.Table} {tag : Member -> Text}

/-- What is taken over for the table, its columns and its count is a word. -/
theorem isTag_renewedState (outline : TableOutline) (tags : ∀ member, IsTag (tag member))
    (writable : ∀ table ∈ known, table.IsWritable) :
    IsTag (outline.renewedState known tag).tag ∧ IsTag (outline.renewedState known tag).countTag ∧
      ∀ column, IsTag (renewedColumn known tag column).tag := by
  cases known with
  | none => exact ⟨tags _, tags _, fun _ => tags _⟩
  | some table =>
      have inOrder := writable table rfl
      exact ⟨Prior.isTag_getD inOrder.tag (tags _),
        Prior.isTag_getD (inOrder.measureTags _) (tags _),
        fun _ => Prior.isTag_getD (inOrder.columnTags _) (tags _)⟩

theorem isWritable_bind_columns (writable : ∀ table ∈ known, table.IsWritable) (source : Text) :
    ∀ column ∈ known.bind (·.columns.get? source), column.IsWritable := by
  intro column found
  obtain ⟨table, member, inside⟩ := Option.bind_eq_some_iff.mp found
  exact (writable table member).columns source column inside

/-- A table is settled beside one that nobody has edited. -/
theorem isSettled_renewedState (readable : outline.IsReadable)
    (trimmed : ∀ column ∈ outline.columns, ∀ text ∈ column.format, Text.IsTrimmed text)
    (tags : ∀ member, IsTag (tag member)) (writable : ∀ table ∈ known, table.IsWritable) :
    outline.IsSettled (renewedColumn known tag) (outline.renewedState known tag) := by
  obtain ⟨own, count, columns⟩ := outline.isTag_renewedState tags writable
  refine ⟨own, count, rfl, ?_, AreAt.nil, by simp [renewedState]⟩
  exact fun column member => Column.isSettled_renewed (readable.columns column member)
    (trimmed column member) (columns column) (isWritable_bind_columns writable _)

theorem remainsMember_of_keepsMember (earlier : Option Block) {front changed : List Block}
    (others : ∀ block ∈ front, block.hasHeader "column" = false)
    (kept : List.Forall₂ Prior.KeepsMember front changed) :
    List.Forall₂ (RemainsMember earlier) front changed := by
  induction kept with
  | nil => exact .nil
  | @cons block other front changed first _ ih =>
      refine .cons ?_ (ih fun next member => others next (List.mem_cons_of_mem block member))
      have notColumn := others block List.mem_cons_self
      unfold Prior.KeepsMember at first
      unfold RemainsMember
      rw [notColumn, if_neg Bool.false_ne_true] at first ⊢
      exact first

theorem remainsMember_lastNodes (outline : TableOutline) (earlier : Option Block) :
    List.Forall₂ (RemainsMember earlier) (outline.partitionNode :: outline.closingNodes)
      (outline.partitionNode :: outline.closingNodes) := by
  refine List.forall₂_same.mpr fun block member => ?_
  unfold RemainsMember
  rw [outline.hasHeader_lastNodes (by decide) block member,
    outline.hasHeader_lastNodes (by decide) block member, if_neg Bool.false_ne_true,
    if_neg Bool.false_ne_true]
  exact .refl block

theorem remainsTable_block {earlier : Option Block} (fresh : Member -> Text) {state : TableState}
    (isTag : IsTag state.tag) (isCountTag : IsTag state.countTag)
    (columns : List.Forall₂ (RemainsMember earlier) (outline.freshState fresh).columns state.columns)
    (measures : state.measures = []) :
    RemainsTable earlier (outline.block (outline.freshState fresh)) (outline.block state) := by
  have count : ∀ block ∈ outline.countNodes (outline.freshState fresh).countTag,
      block.hasHeader "column" = false :=
    fun block member => (outline.begins_of_mem_countNodes member).hasHeader (by decide)
  have head := remainsMember_of_keepsMember earlier (outline.hasHeader_headNodes (by decide))
    (outline.keepsMember_headNodes isTag (outline.freshState fresh).tag)
  have counted := remainsMember_of_keepsMember earlier count
    (outline.keepsMember_countNodes isCountTag (outline.freshState fresh).countTag)
  have added : List.Forall₂ (RemainsMember earlier) (outline.freshState fresh).measures
      state.measures := by
    rw [measures]
    exact .nil
  exact ⟨⟨rfl, rfl⟩, List.rel_append (List.rel_append (List.rel_append (List.rel_append head counted)
    columns) added) (outline.remainsMember_lastNodes earlier)⟩

/-- A written table, merged with what is known of one that was written and not edited. -/
theorem remainsTable_mergedBlock {tag : Member -> Text} (tags : ∀ member, IsTag (tag member))
    (trimmed : ∀ column ∈ outline.columns, ∀ text ∈ column.format, Text.IsTrimmed text)
    {earlier : Option Block} {known : Option Prior.Table}
    (read : ∀ block ∈ earlier, ∃ table, Prior.readTable? block = some table)
    (isKnown : known = earlier.bind Prior.readTable?)
    (unedited : ∀ table ∈ known, table.IsUnedited) (writable : ∀ table ∈ known, table.IsWritable) :
    RemainsTable earlier (outline.block (outline.freshState tag)) (outline.mergedBlock tag known) := by
  have member (column : Column) (state : ColumnState)
      (remains : RemainsColumn (Prior.earlierColumn? earlier (column.block (freshColumn tag column)))
        (column.block (freshColumn tag column)) (column.block state)) :
      RemainsMember earlier (column.block (freshColumn tag column)) (column.block state) := by
    unfold RemainsMember
    rw [column.hasHeader_block, if_pos rfl]
    exact remains
  obtain ⟨own, count, columns⟩ := outline.isTag_renewedState tags writable
  rw [mergedBlock_of_isUnedited unedited]
  refine outline.remainsTable_block tag own count ?_ rfl
  refine List.forall₂_map_left_iff.mpr (List.forall₂_map_right_iff.mpr
    (List.forall₂_same.mpr fun column inside => member column _ ?_))
  obtain ⟨format, summary⟩ : (known.bind (·.columns.get? (Text.trim column.source))).bind
        (·.formatString) =
      (Prior.earlierColumn? earlier (column.block (freshColumn tag column))).bind
        (·.property? "formatString") ∧
      (known.bind (·.columns.get? (Text.trim column.source))).bind (·.summarizeBy) =
        (Prior.earlierColumn? earlier (column.block (freshColumn tag column))).bind
          (·.property? "summarizeBy") := by
    cases earlier with
    | none =>
        subst isKnown
        exact ⟨rfl, rfl⟩
    | some block =>
        obtain ⟨table, readTable⟩ := read block rfl
        rw [Option.bind_some, readTable] at isKnown
        subst isKnown
        have place : Prior.earlierColumn? (some block) (column.block (freshColumn tag column)) =
            (Prior.columnBlocksFor block (Text.trim column.source)).getLast? := by
          rw [Prior.earlierColumn?, column.columnSource?_block]
          rfl
        rw [place]
        exact Prior.bind_get?_columns (Prior.isReadFrom_of_readTable? readTable) _
  exact Column.remainsColumn_block (columns column) (trimmed column inside)
    (isWritable_bind_columns writable _) format summary

end TableOutline

end Definition

end TabularModel
