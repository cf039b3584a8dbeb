import TabularModel.Proofs.Prior.Identity

/-!
# States that a merge leaves as they are

A state of a table is settled if everything that was taken over into it stands
where it is found again: annotations and measures at their levels, annotations
of a column under different names, measures under names that are no row counts.
A merge leads to a settled state. A settled state that is read and merged again,
with whatever fresh tags, is the same state.
-/

set_option autoImplicit false

namespace TabularModel

open Block (changeFirst node)
open Prior (IsTag Annotation annotatesAs annotationOf? annotationsOf)

namespace Definition

/-! ## Annotations -/

/-- An annotation as it is read from its block. -/
def readAnnotation? (block : Block) : Option Annotation :=
  (annotationOf? block).map fun found => ⟨found.1, found.2, block⟩

def annotationName? (block : Block) : Option Text :=
  (annotationOf? block).map (·.1)

/-- Annotations under different names, with the name of the written one first. -/
structure AreSettled (annotations : List Block) : Prop where
  header : ∀ block ∈ annotations, block.hasHeader "annotation" = true
  named : ∀ block ∈ annotations, (annotationName? block).isSome = true
  first : (annotations.map annotationName?).head? = some (some ("SummarizationSetBy" : Text))
  distinct : (annotations.filterMap annotationName?).Nodup

theorem annotatesAs_iff {name : Text} {block : Block} (header : block.hasHeader "annotation" = true) :
    annotatesAs name block = true ↔ annotationName? block = some name := by
  rw [annotatesAs, header, Bool.true_and, annotationName?]
  cases annotationOf? block <;> simp

theorem annotationName?_of_annotatesAs {name : Text} {block : Block}
    (found : annotatesAs name block = true) : annotationName? block = some name := by
  rw [annotatesAs, Bool.and_eq_true] at found
  exact (annotatesAs_iff found.1).mp (by rw [annotatesAs, found.1, found.2]; rfl)

/-- Replacing an annotation by one of the same name keeps the names. -/
theorem map_annotationName?_changeFirst {name : Text} {block : Block}
    (same : annotationName? block = some name) (annotations : List Block) :
    (changeFirst (annotatesAs name) (fun _ => block) annotations).map annotationName? =
      annotations.map annotationName? := by
  induction annotations with
  | nil => rfl
  | cons first annotations ih =>
      rw [changeFirst]
      split
      · next found => rw [List.map_cons, List.map_cons, same, annotationName?_of_annotatesAs found]
      · rw [List.map_cons, List.map_cons, ih]

theorem filterMap_annotationName?_of_map {left right : List Block}
    (same : left.map annotationName? = right.map annotationName?) :
    left.filterMap annotationName? = right.filterMap annotationName? := by
  have onNames (blocks : List Block) :
      blocks.filterMap annotationName? = (blocks.map annotationName?).filterMap id := by
    rw [List.filterMap_map]
    rfl
  rw [onNames, onNames, same]

/-- One more annotation keeps the others settled. -/
theorem AreSettled.takeAmong {annotations : List Block} (settled : AreSettled annotations)
    {earlier : Annotation} (header : earlier.block.hasHeader "annotation" = true)
    (named : annotationName? earlier.block = some earlier.name) :
    AreSettled (ColumnState.takeAmong annotations earlier) := by
  rw [ColumnState.takeAmong]
  split
  · have names := map_annotationName?_changeFirst named annotations
    have members : ∀ block ∈ changeFirst (annotatesAs earlier.name) (fun _ => earlier.block)
        annotations, block ∈ annotations ∨ earlier.block = block := by
      intro block member
      rcases Block.mem_changeFirst member with kept | ⟨_, _, same⟩
      · exact Or.inl kept
      · exact Or.inr same
    refine ⟨?_, ?_, names ▸ settled.first, filterMap_annotationName?_of_map names ▸ settled.distinct⟩
    · intro block member
      rcases members block member with kept | rfl
      · exact settled.header block kept
      · exact header
    · intro block member
      rcases members block member with kept | rfl
      · exact settled.named block kept
      · rw [named]
        rfl
  · next absent =>
      have unknown : earlier.name ∉ annotations.filterMap annotationName? := by
        intro member
        obtain ⟨block, inside, same⟩ := List.mem_filterMap.mp member
        exact absent (List.any_eq_true.mpr
          ⟨block, inside, (annotatesAs_iff (settled.header block inside)).mpr same⟩)
      refine ⟨?_, ?_, ?_, ?_⟩
      · intro block member
        rcases List.mem_append.mp member with kept | added
        · exact settled.header block kept
        · exact List.mem_singleton.mp added ▸ header
      · intro block member
        rcases List.mem_append.mp member with kept | added
        · exact settled.named block kept
        · rw [List.mem_singleton.mp added, named]
          rfl
      · cases annotations with
        | nil => exact absurd settled.first (by simp)
        | cons block annotations => exact settled.first
      · rw [List.filterMap_append, List.nodup_append]
        refine ⟨settled.distinct, by simp [named], ?_⟩
        intro left leftMember right rightMember same
        have taken : right = earlier.name := by simpa [named] using rightMember
        exact unknown (taken ▸ same ▸ leftMember)

theorem AreSettled.foldl_takeAmong {annotations : List Block} (settled : AreSettled annotations)
    {earlier : List Annotation}
    (each : ∀ annotation ∈ earlier, annotation.block.hasHeader "annotation" = true ∧
      annotationName? annotation.block = some annotation.name) :
    AreSettled (earlier.foldl ColumnState.takeAmong annotations) := by
  induction earlier generalizing annotations with
  | nil => exact settled
  | cons annotation earlier ih =>
      obtain ⟨header, named⟩ := each annotation List.mem_cons_self
      exact ih (settled.takeAmong header named) fun other member =>
        each other (List.mem_cons_of_mem annotation member)

theorem exists_readAnnotation? {block : Block} (named : (annotationName? block).isSome = true) :
    ∃ annotation, readAnnotation? block = some annotation ∧ annotation.block = block ∧
      annotationName? block = some annotation.name := by
  rw [annotationName?, Option.isSome_map] at named
  obtain ⟨found, read⟩ := Option.isSome_iff_exists.mp named
  exact ⟨⟨found.1, found.2, block⟩, by rw [readAnnotation?, read, Option.map_some], rfl, by
    rw [annotationName?, read, Option.map_some]⟩

/-- Annotations under new names are added one by one. -/
theorem foldl_takeAmong_of_distinct (done left : List Block)
    (header : ∀ block ∈ done, block.hasHeader "annotation" = true)
    (later : ∀ block ∈ left,
      block.hasHeader "annotation" = true ∧ (annotationName? block).isSome = true)
    (distinct : ((done ++ left).filterMap annotationName?).Nodup) :
    (left.filterMap readAnnotation?).foldl ColumnState.takeAmong done = done ++ left := by
  induction left generalizing done with
  | nil => rw [List.append_nil]; rfl
  | cons block left ih =>
      obtain ⟨headed, named⟩ := later block List.mem_cons_self
      obtain ⟨own, read, same, name⟩ := exists_readAnnotation? named
      have new : done.any (annotatesAs own.name) = false := by
        rw [List.any_eq_false]
        intro other member found
        rw [List.filterMap_append, List.nodup_append] at distinct
        refine distinct.2.2 own.name ?_ own.name ?_ rfl
        · exact List.mem_filterMap.mpr ⟨other, member, annotationName?_of_annotatesAs found⟩
        · exact List.mem_filterMap.mpr ⟨block, List.mem_cons_self, name⟩
      have added : ColumnState.takeAmong done own = done ++ [block] := by
        rw [ColumnState.takeAmong, new, same]
        rfl
      rw [List.filterMap_cons_some read, List.foldl_cons, added, ih, List.append_assoc]
      · rfl
      · intro other member
        rcases List.mem_append.mp member with kept | added
        · exact header other kept
        · exact List.mem_singleton.mp added ▸ headed
      · exact fun other member => later other (List.mem_cons_of_mem block member)
      · rwa [List.append_assoc]

/-- Settled annotations that are read and taken over again are the same. -/
theorem AreSettled.foldl_readAnnotation? {annotations : List Block}
    (settled : AreSettled annotations) {written : Block}
    (header : written.hasHeader "annotation" = true)
    (named : annotationName? written = some ("SummarizationSetBy" : Text)) :
    (annotations.filterMap readAnnotation?).foldl ColumnState.takeAmong [written] = annotations := by
  cases annotations with
  | nil => exact absurd settled.first (by simp)
  | cons block annotations =>
      obtain ⟨first, read, same, name⟩ :=
        exists_readAnnotation? (settled.named block List.mem_cons_self)
      have sameName : annotationName? block = some ("SummarizationSetBy" : Text) := by
        simpa using settled.first
      have found : annotatesAs first.name written = true := by
        rw [annotatesAs_iff header, named, ← sameName, name]
      have replaced : ColumnState.takeAmong [written] first = [block] := by
        rw [ColumnState.takeAmong, List.any_cons, found, Bool.true_or, if_pos rfl,
          Block.changeFirst_cons_of_pos _ _ found, same]
      rw [List.filterMap_cons_some read, List.foldl_cons, replaced]
      refine foldl_takeAmong_of_distinct [block] annotations ?_ ?_ settled.distinct
      · exact fun other member =>
          settled.header other (List.mem_singleton.mp member ▸ List.mem_cons_self)
      · exact fun other member => ⟨settled.header other (List.mem_cons_of_mem block member),
          settled.named other (List.mem_cons_of_mem block member)⟩

/-! ## Columns -/

/-- What a column takes over is found again at its place. -/
structure ColumnState.IsSettled (column : Column) (state : ColumnState) : Prop where
  tag : IsTag state.tag
  format : ∀ text ∈ state.format, Text.IsTrimmed text ∧ Text.IsSingleLine text
  formatKept : state.format = none -> column.format = none
  summary : Text.IsTrimmed state.summary ∧ Text.IsSingleLine state.summary
  level : AreAt 2 state.annotations
  annotations : AreSettled state.annotations

/-- The formatting of an earlier column whose members stand at two tabs. -/
structure IsOrderlyColumn (column : Prior.Column) : Prop where
  writable : column.IsWritable
  annotations : ∀ annotation ∈ column.annotations,
    annotation.block.depth = 2 ∧ annotationName? annotation.block = some annotation.name

/-- What is known of a table whose members stand at one tab and those of its
columns at two. -/
structure IsOrderlyTable (table : Prior.Table) : Prop where
  writable : table.IsWritable
  columns : ∀ source known, table.columns.get? source = some known -> IsOrderlyColumn known
  measures : ∀ measure ∈ table.measures, measure.block.depth = 1 ∧
    Prior.name? "measure" measure.block = some measure.name

/-- What is written about the column has no blanks around it. -/
structure Column.HasTrimmedLines (column : Column) : Prop where
  source : Text.IsTrimmed column.source
  format : ∀ text ∈ column.format, Text.IsTrimmed text

namespace Column

variable {column : Column}

theorem annotationName?_summarizationNode :
    annotationName? summarizationNode = some ("SummarizationSetBy" : Text) := by
  rw [annotationName?, summarizationNode,
    Block.annotationOf?_annotation _ 2 _ _ _ (by decide) (by decide), Option.map_some]

theorem areSettled_summarizationNode : AreSettled [summarizationNode] := by
  have named := annotationName?_summarizationNode
  refine ⟨?_, ?_, ?_, ?_⟩
  · intro block member
    rw [List.mem_singleton.mp member]
    exact Block.hasHeader_annotation 2 _ _ _ _
  · intro block member
    rw [List.mem_singleton.mp member, named]
    rfl
  · rw [List.map_singleton, named]
    rfl
  · rw [List.filterMap_cons_some named]
    exact List.nodup_singleton _

theorem isSettled_freshState (single : column.HasSingleLines) (trimmed : column.HasTrimmedLines)
    {tag : Text} (isTag : IsTag tag) : (column.freshState tag).IsSettled column := by
  have summary : Text.IsTrimmed column.summary ∧ Text.IsSingleLine column.summary := by
    rw [Column.summary]
    split <;> decide
  exact ⟨isTag, fun text member => ⟨trimmed.format text member, single.format text member⟩, id,
    summary, areAt_summarizationNode, areSettled_summarizationNode⟩

/-- A merge settles a column. -/
theorem isSettled_merged {state : ColumnState} (settled : state.IsSettled column)
    {earlier : Prior.Table} (writable : earlier.IsWritable) {source : Text}
    (orderly : ∀ known, earlier.columns.get? source = some known -> IsOrderlyColumn known) :
    (state.merged earlier source).IsSettled column := by
  have tag : IsTag ((earlier.columnTags.get? source).getD state.tag) :=
    Prior.isTag_getD (writable.columnTags source) settled.tag
  rw [ColumnState.merged]
  cases found : earlier.columns.get? source with
  | none =>
      exact ⟨tag, settled.format, settled.formatKept, settled.summary, settled.level,
        settled.annotations⟩
  | some known =>
      have inOrder := orderly known found
      have formatting := inOrder.writable
      refine ⟨tag, ?_, ?_, ?_, ?_, ?_⟩
      · simp only [ColumnState.formatted]
        cases given : known.formatString with
        | none => exact settled.format
        | some format =>
            intro text member
            rw [← Option.some.inj member]
            exact formatting.format format given
      · simp only [ColumnState.formatted]
        cases known.formatString with
        | none => exact settled.formatKept
        | some format => exact fun absent => absurd absent (Option.some_ne_none format)
      · simp only [ColumnState.formatted]
        cases given : known.summarizeBy with
        | none => exact settled.summary
        | some summary => exact formatting.summary summary given
      · intro block member
        rcases ColumnState.mem_foldl_takeAmong member with kept | ⟨taken, inside, rfl⟩
        · exact settled.level block kept
        · exact ⟨(formatting.annotations taken inside).1, (inOrder.annotations taken inside).1⟩
      · exact settled.annotations.foldl_takeAmong fun annotation inside =>
          ⟨(formatting.annotations annotation inside).2.2, (inOrder.annotations annotation inside).2⟩

/-- A settled column that is read and merged again is the same, whatever its
fresh tag. -/
theorem merged_of_isSettled {state : ColumnState} (settled : state.IsSettled column) (fresh : Text)
    {earlier : Prior.Table} {source : Text}
    (tagged : earlier.columnTags.get? source = some state.tag) {known : Prior.Column}
    (found : earlier.columns.get? source = some known)
    (format : known.formatString = state.format.map Text.trim)
    (summary : known.summarizeBy = some (Text.trim state.summary))
    (annotations : known.annotations = state.annotations.filterMap readAnnotation?) :
    (column.freshState fresh).merged earlier source = state := by
  have sameFormat : (known.formatString <|> column.format) = state.format := by
    rw [format]
    cases given : state.format with
    | none => exact settled.formatKept given
    | some text =>
        have trimmed : Text.trim text = text := (settled.format text given).1
        rw [Option.map_some, trimmed]
        rfl
  have sameSummary : known.summarizeBy.getD column.summary = state.summary := by
    rw [summary]
    exact settled.summary.1
  have sameAnnotations : known.annotations.foldl ColumnState.takeAmong [summarizationNode] =
      state.annotations := by
    rw [annotations]
    exact settled.annotations.foldl_readAnnotation? (Block.hasHeader_annotation 2 _ _ _ _)
      annotationName?_summarizationNode
  rw [ColumnState.merged, found, tagged]
  simp only [ColumnState.formatted, freshState, Option.getD_some]
  rw [sameFormat, sameSummary, sameAnnotations]

end Column

/-! ## Tables -/

namespace Column

variable (column : Column)

theorem annotationsOf_block {state : ColumnState} (header : HasAnnotations state) :
    annotationsOf (column.block state) = state.annotations.filterMap readAnnotation? := by
  have children : (column.block state).children =
      column.memberNodes state.tag state.format state.summary ++ state.annotations := rfl
  rw [annotationsOf, Block.childrenWith, children, List.filter_append,
    TableOutline.filter_hasHeader_of_none column.hasHeader_annotation_memberNodes,
    List.filter_eq_self.mpr header]
  rfl

/-- The formatting of a column is read from its block. -/
theorem exists_readColumn?_block {state : ColumnState} (settled : state.IsSettled column) :
    ∃ known, Prior.readColumn? (column.block state) = some known ∧
      known.source = Text.trim column.source ∧
      known.formatString = state.format.map Text.trim ∧
      known.summarizeBy = some (Text.trim state.summary) ∧
      known.annotations = state.annotations.filterMap readAnnotation? := by
  have named : Prior.name? "column" (column.block state) = some column.name :=
    column.name?_column rfl
  have source := column.columnSource?_block state
  refine ⟨_, by rw [Prior.readColumn?, named, source]; rfl, rfl,
    column.property?_formatString settled.annotations.header, column.property?_summarizeBy state,
    column.annotationsOf_block settled.annotations.header⟩

end Column

namespace TableOutline

variable {outline : TableOutline} {states : Column -> ColumnState} {state : TableState}

/-- What a table takes over is found again at its place. -/
structure IsSettled (outline : TableOutline) (states : Column -> ColumnState) (state : TableState) :
    Prop where
  tag : IsTag state.tag
  countTag : IsTag state.countTag
  columns : state.columns = outline.columns.map fun column => column.block (states column)
  settled : ∀ column ∈ outline.columns, (states column).IsSettled column
  level : AreAt 1 state.measures
  measures : ∀ block ∈ state.measures, ∃ name, Prior.name? "measure" block = some name ∧
    name ≠ Convention.countMeasure outline.name

/-- Columns that come from different columns of the row source. -/
def HasDistinctSources (outline : TableOutline) : Prop :=
  outline.columns.Pairwise fun left right => Text.trim left.source ≠ Text.trim right.source

theorem IsSettled.hasHeader_measures (settled : outline.IsSettled states state) :
    ∀ block ∈ state.measures, block.hasHeader "measure" = true := by
  intro block member
  obtain ⟨name, named, _⟩ := settled.measures block member
  obtain ⟨found, read, _⟩ := Option.map_eq_some_iff.mp named
  obtain ⟨rest, header, _⟩ := Option.map_eq_some_iff.mp read
  rw [Block.hasHeader, header]
  rfl

/-- A settled table is read from its text. -/
theorem ofText_render_of_isSettled (readable : outline.IsReadable)
    (settled : outline.IsSettled states state) :
    Document.ofText (Document.render ⟨[outline.block state], true⟩) =
      ⟨[outline.block state], true⟩ := by
  have columns : AreAt 1 state.columns := by
    rw [settled.columns]
    intro block member
    obtain ⟨column, inside, rfl⟩ := List.mem_map.mp member
    have own := settled.settled column inside
    exact Column.isNested_block (readable.columns column inside) own.tag.isSingleLine
      (fun text member => (own.format text member).2) own.summary.2 own.level
  have nested := isNested_block readable settled.tag.isSingleLine settled.countTag.isSingleLine
    columns settled.level
  exact Document.ofText_render [_] (by simp) (by simpa using nested) (List.pairwise_singleton _ _)

theorem IsSettled.isReread (settled : outline.IsSettled states state) :
    outline.IsReread state.tag states (outline.block state) :=
  outline.isReread_block settled.columns settled.hasHeader_measures

/-- The only column from a source is found among columns from different ones. -/
theorem filter_source_eq {columns : List Column} {column : Column} (member : column ∈ columns)
    (distinct : columns.Pairwise fun left right => Text.trim left.source ≠ Text.trim right.source) :
    columns.filter (fun other => Text.trim other.source == Text.trim column.source) = [column] := by
  induction columns with
  | nil => cases member
  | cons first columns ih =>
      obtain ⟨apart, distinct⟩ := List.pairwise_cons.mp distinct
      rcases List.mem_cons.mp member with rfl | later
      · rw [List.filter_cons_of_pos (by simp), List.filter_eq_nil_iff.mpr]
        intro other inside
        simpa using (apart other inside).symm
      · rw [List.filter_cons_of_neg (by simpa using apart column later), ih later distinct]

theorem childrenWith_column_of_isSettled (settled : outline.IsSettled states state) :
    (outline.block state).childrenWith "column" =
      outline.columns.map fun column => column.block (states column) :=
  childrenWith_column_of_states settled.columns settled.hasHeader_measures

theorem columnBlocksFor_block (distinct : outline.HasDistinctSources)
    (settled : outline.IsSettled states state) {column : Column} (member : column ∈ outline.columns) :
    Prior.columnBlocksFor (outline.block state) (Text.trim column.source) =
      [column.block (states column)] := by
  have sources : ((fun block : Block => Prior.columnSource? block == some (Text.trim column.source)) ∘
      fun other : Column => other.block (states other)) =
      fun other => Text.trim other.source == Text.trim column.source := by
    funext other
    rw [Function.comp, other.columnSource?_block]
    rfl
  rw [Prior.columnBlocksFor, childrenWith_column_of_isSettled settled, List.filter_map, sources,
    filter_source_eq member distinct, List.map_singleton]

/-- The columns of a settled table are found again under their sources. -/
theorem exists_get?_columns (distinct : outline.HasDistinctSources)
    (settled : outline.IsSettled states state) {earlier : Prior.Table}
    (parts : Prior.IsReadFrom (outline.block state) earlier) {column : Column}
    (member : column ∈ outline.columns) :
    ∃ known, earlier.columns.get? (Text.trim column.source) = some known ∧
      known.formatString = (states column).format.map Text.trim ∧
      known.summarizeBy = some (Text.trim (states column).summary) ∧
      known.annotations = (states column).annotations.filterMap readAnnotation? := by
  obtain ⟨known, read, source, formatting⟩ :=
    column.exists_readColumn?_block (settled.settled column member)
  refine ⟨known, ?_, formatting⟩
  rw [parts.columns, childrenWith_column_of_isSettled settled]
  refine SortedMap.get?_ofList_of_mem (List.mem_map.mpr ⟨known, ?_, by rw [source]⟩) ?_
  · exact List.mem_filterMap.mpr ⟨_, List.mem_map.mpr ⟨column, member, rfl⟩, read⟩
  · intro entry inside same
    obtain ⟨found, foundMember, rfl⟩ := List.mem_map.mp inside
    obtain ⟨block, blockMember, readOther⟩ := List.mem_filterMap.mp foundMember
    obtain ⟨other, otherMember, rfl⟩ := List.mem_map.mp blockMember
    obtain ⟨_, readAgain, otherSource, _⟩ :=
      other.exists_readColumn?_block (settled.settled other otherMember)
    rw [readAgain] at readOther
    cases readOther
    have sameSource : Text.trim other.source = Text.trim column.source := by
      rw [← otherSource]
      exact same
    have only : other ∈ outline.columns.filter
        (fun other => Text.trim other.source == Text.trim column.source) :=
      List.mem_filter.mpr ⟨otherMember, by simpa using sameSource⟩
    rw [filter_source_eq member distinct] at only
    rw [List.mem_singleton.mp only, read] at readAgain
    exact (Option.some.inj readAgain).symm

/-- The columns of a settled table are merged into the same states. -/
theorem columns_mergedState_of_isSettled (distinct : outline.HasDistinctSources)
    (settled : outline.IsSettled states state) {earlier : Prior.Table}
    (parts : Prior.IsReadFrom (outline.block state) earlier) (tag : Member -> Text) :
    (outline.mergedState earlier tag).columns = state.columns := by
  rw [mergedState, settled.columns]
  refine List.map_congr_left fun column member => ?_
  obtain ⟨known, found, format, summary, annotations⟩ :=
    exists_get?_columns distinct settled parts member
  have own := settled.settled column member
  have tagged : earlier.columnTags.get? (Text.trim column.source) = some (states column).tag := by
    rw [parts.columnTags]
    exact Prior.get?_childTags_of_single (columnBlocksFor_block distinct settled member)
      ((column.isReread_block _).lineageTag? own.tag)
  rw [Column.merged_of_isSettled own _ tagged found format summary annotations]

theorem hasHeader_measure_columns (settled : outline.IsSettled states state) :
    ∀ block ∈ state.columns, block.hasHeader "measure" = false := by
  intro block member
  rw [settled.columns] at member
  exact (begins_of_mem_columns member).hasHeader (by decide)

/-- The measures of a settled table are the written one and those of its state. -/
theorem childrenWith_measure_of_isSettled (settled : outline.IsSettled states state) :
    (outline.block state).childrenWith "measure" =
      outline.countNodes state.countTag ++ state.measures :=
  childrenWith_measure_block (hasHeader_measure_columns settled) settled.hasHeader_measures

theorem lineageTag?_countNode {tag : Text} (isTag : IsTag tag) :
    Prior.lineageTag? (node 1 ("measure" ++ ' ' :: outline.countHeader) []
      [ node 2 (propertyContent "formatString" "#,0") [] [],
        node 2 (propertyContent "lineageTag" tag) [[]] [] ]) = some tag := by
  have format := (Block.begins_property "formatString" 2 "#,0" [] [] (by decide)).tagOf?
    (by decide)
  refine (List.findSome?_cons ..).trans ?_
  rw [format]
  exact (List.findSome?_cons ..).trans (by rw [Prior.tagOf?_property isTag])

/-- The tag of the written measure is found again. -/
theorem countNodes_mergedState_of_isSettled (settled : outline.IsSettled states state)
    {earlier : Prior.Table} (parts : Prior.IsReadFrom (outline.block state) earlier)
    (tag : Member -> Text) :
    outline.countNodes (outline.mergedState earlier tag).countTag =
      outline.countNodes state.countTag := by
  cases counted : outline.isCounted with
  | false => simp [countNodes, counted]
  | true =>
      have others : state.measures.filter (fun block => Prior.name? "measure" block ==
          some (Convention.countMeasure outline.name)) = [] := by
        rw [List.filter_eq_nil_iff]
        intro block member
        obtain ⟨name, named, different⟩ := settled.measures block member
        rw [named]
        simpa using different
      have single : ((outline.block state).childrenWith "measure").filter (fun block =>
          Prior.name? "measure" block == some (Convention.countMeasure outline.name)) =
          outline.countNodes state.countTag := by
        rw [childrenWith_measure_of_isSettled settled, List.filter_append, others, countNodes,
          if_pos counted, List.append_nil, List.filter_cons_of_pos, List.filter_nil]
        rw [outline.name?_countNode]
        simp
      have tagged : earlier.measureTags.get? (Convention.countMeasure outline.name) =
          some state.countTag := by
        rw [parts.measureTags]
        rw [countNodes, if_pos counted] at single
        exact Prior.get?_childTags_of_single single (lineageTag?_countNode settled.countTag)
      rw [mergedState]
      simp only [tagged, Option.getD_some]

theorem exists_readMeasure? (table : Text) {block : Block} {name : Text}
    (named : Prior.name? "measure" block = some name) :
    ∃ measure, Prior.readMeasure? table block = some measure ∧ measure.name = name ∧
      measure.block = block ∧ measure.isGenerated = (name == Convention.countMeasure table) := by
  obtain ⟨found, read, rfl⟩ := Option.map_eq_some_iff.mp named
  exact ⟨_, by rw [Prior.readMeasure?, read]; rfl, rfl, rfl, rfl⟩

/-- Measures under other names than that of the row count are kept. -/
theorem map_block_filter_readMeasure? (outline : TableOutline) (blocks : List Block)
    (named : ∀ block ∈ blocks, ∃ name, Prior.name? "measure" block = some name ∧
      name ≠ Convention.countMeasure outline.name) :
    (((blocks.filterMap (Prior.readMeasure? outline.name)).filter (!·.isGenerated)).filter
      fun measure => !outline.countNames.contains measure.name).map (·.block) = blocks := by
  induction blocks with
  | nil => rfl
  | cons block blocks ih =>
      obtain ⟨name, own, different⟩ := named block List.mem_cons_self
      obtain ⟨measure, read, same, inside, generated⟩ := exists_readMeasure? outline.name own
      have notGenerated : measure.isGenerated = false := by
        rw [generated]
        simpa using different
      have free : outline.countNames.contains measure.name = false := by
        rw [countNames, same]
        split
        · simpa using different
        · rfl
      rw [List.filterMap_cons_some read, List.filter_cons_of_pos (by simp [notGenerated]),
        List.filter_cons_of_pos (by rw [free]; rfl), List.map_cons, inside,
        ih fun other member => named other (List.mem_cons_of_mem block member)]

/-- The measures that people have added are found again. -/
theorem measures_mergedState_of_isSettled (settled : outline.IsSettled states state)
    {earlier : Prior.Table} (parts : Prior.IsReadFrom (outline.block state) earlier)
    (tag : Member -> Text) : (outline.mergedState earlier tag).measures = state.measures := by
  have sameName : earlier.name = outline.name := by
    have named := parts.name
    rw [outline.name?_table settled.isReread.line] at named
    exact (Option.some.inj named).symm
  have written : (((outline.countNodes state.countTag).filterMap
      (Prior.readMeasure? outline.name)).filter (!·.isGenerated)) = [] := by
    rw [countNodes]
    split
    · obtain ⟨measure, read, _, _, generated⟩ :=
        exists_readMeasure? outline.name (outline.name?_countNode [] _)
      rw [List.filterMap_cons_some read, List.filterMap_nil, List.filter_cons_of_neg, List.filter_nil]
      rw [generated]
      simp
    · rfl
  rw [mergedState, Prior.Table.userMeasures, parts.measures, sameName,
    childrenWith_measure_of_isSettled settled, List.filterMap_append, List.filter_append, written,
    List.nil_append]
  exact outline.map_block_filter_readMeasure? state.measures settled.measures

/-- A settled table that is read and merged again is the same, whatever its fresh
tags. -/
theorem block_mergedState_of_isSettled (distinct : outline.HasDistinctSources)
    (settled : outline.IsSettled states state) {earlier : Prior.Table}
    (read : Prior.readTable? (outline.block state) = some earlier) (tag : Member -> Text) :
    outline.block (outline.mergedState earlier tag) = outline.block state := by
  have parts := Prior.isReadFrom_of_readTable? read
  have sameTag : (outline.mergedState earlier tag).tag = state.tag := by
    rw [mergedState]
    simp only [parts.tag, settled.isReread.lineageTag? settled.tag, Option.getD_some]
  rw [block, block, members, members, sameTag, countNodes_mergedState_of_isSettled settled parts,
    columns_mergedState_of_isSettled distinct settled parts,
    measures_mergedState_of_isSettled settled parts]

/-! ## A merge settles a table -/

theorem isSettled_freshState (readable : outline.IsReadable)
    (trimmed : ∀ column ∈ outline.columns, column.HasTrimmedLines) {tag : Member -> Text}
    (tags : ∀ member, IsTag (tag member)) :
    outline.IsSettled (freshColumn tag) (outline.freshState tag) := by
  refine ⟨tags _, tags _, rfl, ?_, AreAt.nil, ?_⟩
  · exact fun column member => Column.isSettled_freshState (readable.columns column member)
      (trimmed column member) (tags _)
  · simp [freshState]

theorem isSettled_mergedState (readable : outline.IsReadable)
    (trimmed : ∀ column ∈ outline.columns, column.HasTrimmedLines) {tag : Member -> Text}
    (tags : ∀ member, IsTag (tag member)) {earlier : Prior.Table} (orderly : IsOrderlyTable earlier)
    (counts : ∀ measure ∈ earlier.userMeasures,
      measure.name ≠ Convention.countMeasure outline.name) :
    outline.IsSettled
      (fun column => (freshColumn tag column).merged earlier (Text.trim column.source))
      (outline.mergedState earlier tag) := by
  have writable := orderly.writable
  refine ⟨Prior.isTag_getD writable.tag (tags _), Prior.isTag_getD (writable.measureTags _) (tags _),
    rfl, ?_, ?_, ?_⟩
  · intro column member
    exact Column.isSettled_merged (Column.isSettled_freshState (readable.columns column member)
      (trimmed column member) (tags _)) writable fun known => orderly.columns _ known
  · intro block member
    obtain ⟨measure, inside, rfl⟩ := List.mem_map.mp member
    have known := List.mem_of_mem_filter (List.mem_of_mem_filter inside)
    exact ⟨(writable.measures measure known).1, (orderly.measures measure known).1⟩
  · intro block member
    obtain ⟨measure, inside, rfl⟩ := List.mem_map.mp member
    have kept := List.mem_of_mem_filter inside
    exact ⟨measure.name, (orderly.measures measure (List.mem_of_mem_filter kept)).2,
      counts measure kept⟩

end TableOutline

end Definition

end TabularModel
