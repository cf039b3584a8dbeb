import TabularModel.Proofs.Prior.Relationships

/-!
# Written elements are read again

What a reader finds in the blocks of a written column, table or relationship is
what the element says: names, keys, flags, properties and expressions. Nothing
that stands in a name can be taken for something else.
-/

set_option autoImplicit false

namespace TabularModel

open Block (node)
open Prior (IsTag columnSource? name? readColumn? readMeasure? readPartition? readTable?)

namespace Block

variable {block : Block}

/-- A line that begins otherwise is not the line of a flag. -/
theorem Begins.text_ne {head : Text} (begins : block.Begins head) {name : Text}
    (different : Text.differ name head = true) : (block.text == name) = false := by
  obtain ⟨rest, shape⟩ := begins
  have absent := Text.dropStart?_of_differ rest different
  rw [beq_eq_false_iff_ne]
  intro same
  have found := Text.dropStart?_append name []
  rw [← shape, same] at absent
  rw [List.append_nil, absent] at found
  cases found

theorem any_text_eq_false {blocks : List Block} {words : List Text}
    (begins : ∀ block ∈ blocks, ∃ word ∈ words, block.Begins word) {name : Text}
    (different : ∀ word ∈ words, Text.differ name word = true) :
    (blocks.any fun block => block.text == name) = false := by
  rw [List.any_eq_false]
  intro block member
  obtain ⟨word, found, begin⟩ := begins block member
  rw [begin.text_ne (different word found)]
  exact Bool.false_ne_true

end Block

namespace Definition

/-! ## Columns -/

namespace Column

/-- The column as it is read again. -/
def recovered (column : Column) : Prior.Column where
  name := column.name
  source := column.source
  dataType := some column.dataType.name
  formatString := column.format
  summarizeBy := some column.summary
  isHidden := column.isHidden
  isKey := column.isKey
  annotations := [⟨"SummarizationSetBy", "Automatic", summarizationNode⟩]

variable (column : Column)

theorem property?_dataType (state : ColumnState) :
    (column.block state).property? "dataType" = some column.dataType.name := by
  have trimmed : Text.trim column.dataType.name = column.dataType.name := by
    cases column.dataType <;> decide
  rw [block_eq, Block.property?]
  refine (List.findSome?_cons ..).trans ?_
  rw [Block.valueOf?_property "dataType" 2 _ _ _ (by decide), trimmed]

theorem any_flagNodes {flag : Bool} {name : Text} (ends : HasVisibleEnds name) :
    ((flagNodes flag name).any fun block => block.text == name) = flag := by
  cases flag with
  | false => rfl
  | true =>
      have text : (node 2 name [] []).text = name := by rw [Block.text_node, ends.isTrimmed]
      simp [flagNodes, text]

theorem begins_of_mem_flagNodes {flag : Bool} {name : Text} (ends : HasVisibleEnds name)
    {block : Block} (member : block ∈ flagNodes flag name) : block.Begins name := by
  rw [flagNodes] at member
  split at member
  · rw [List.mem_singleton.mp member]
    exact Block.begins_self ends 2 _ _
  · cases member

/-- How the members of a column begin that are no flags. -/
def valueWords : List Text :=
  "dataType" :: "formatString" :: "annotation" :: backWords

theorem begins_of_mem_values {state : ColumnState} (annotations : HasAnnotations state)
    {block : Block}
    (member : block ∈ (column.block state).children) :
    block ∈ flagNodes column.isHidden "isHidden" ++ flagNodes column.isKey "isKey" ∨
      ∃ word ∈ valueWords, block.Begins word := by
  rcases column.begins_of_mem_children annotations member with front | ⟨word, found, begins⟩ | begins
  · rw [frontNodes, List.mem_cons, List.append_assoc, List.mem_append] at front
    rcases front with rfl | format | flags
    · exact Or.inr ⟨"dataType", by decide, Block.begins_property _ 2 _ _ _ (by decide)⟩
    · cases given : state.format with
      | none =>
          rw [given] at format
          cases format
      | some text =>
          rw [given] at format
          rw [List.mem_singleton.mp format]
          exact Or.inr ⟨"formatString", by decide, Block.begins_property _ 2 _ _ _ (by decide)⟩
    · exact Or.inl flags
  · have inside : ∀ word ∈ backWords, word ∈ valueWords := by decide
    exact Or.inr ⟨word, inside word found, begins⟩
  · exact Or.inr ⟨"annotation", by decide, begins⟩

/-- Of the members of a column only its flags read as flags. -/
theorem hasFlag_block {state : ColumnState} (annotations : HasAnnotations state) {name : Text}
    (different : ∀ word ∈ valueWords, Text.differ name word = true) :
    (column.block state).hasFlag name =
      ((flagNodes column.isHidden "isHidden" ++ flagNodes column.isKey "isKey").any fun block =>
        block.text == name) := by
  rw [Block.hasFlag, Bool.eq_iff_iff, List.any_eq_true, List.any_eq_true]
  constructor
  · rintro ⟨block, member, same⟩
    rcases column.begins_of_mem_values annotations member with flag | ⟨word, found, begins⟩
    · exact ⟨block, flag, same⟩
    · rw [begins.text_ne (different word found)] at same
      cases same
  · rintro ⟨block, member, same⟩
    refine ⟨block, ?_, same⟩
    rw [block_eq]
    refine List.mem_cons_of_mem _ (List.mem_append_right _ ?_)
    rw [laterNodes, List.append_assoc]
    exact List.mem_append_left _ member

theorem hasFlag_isHidden {state : ColumnState} (annotations : HasAnnotations state) :
    (column.block state).hasFlag "isHidden" = column.isHidden := by
  have hidden : HasVisibleEnds "isHidden" := .of_isTrimmed (by decide) (by decide)
  have key : HasVisibleEnds "isKey" := .of_isTrimmed (by decide) (by decide)
  have other := Block.any_text_eq_false (fun block member =>
    ⟨"isKey", List.mem_singleton_self _, begins_of_mem_flagNodes key member⟩ :
      ∀ block ∈ flagNodes column.isKey "isKey", _)
    (by decide : ∀ word ∈ [("isKey" : Text)], Text.differ "isHidden" word = true)
  rw [column.hasFlag_block annotations (by decide), List.any_append, any_flagNodes hidden, other,
    Bool.or_false]

theorem hasFlag_isKey {state : ColumnState} (annotations : HasAnnotations state) :
    (column.block state).hasFlag "isKey" = column.isKey := by
  have hidden : HasVisibleEnds "isHidden" := .of_isTrimmed (by decide) (by decide)
  have key : HasVisibleEnds "isKey" := .of_isTrimmed (by decide) (by decide)
  have other := Block.any_text_eq_false (fun block member =>
    ⟨"isHidden", List.mem_singleton_self _, begins_of_mem_flagNodes hidden member⟩ :
      ∀ block ∈ flagNodes column.isHidden "isHidden", _)
    (by decide : ∀ word ∈ [("isHidden" : Text)], Text.differ "isKey" word = true)
  rw [column.hasFlag_block annotations (by decide), List.any_append, any_flagNodes key, other,
    Bool.false_or]

/-- A written column is read as it is. -/
theorem readColumn?_freshState {column : Column} (trimmed : column.HasTrimmedLines) (tag : Text) :
    readColumn? (column.block (column.freshState tag)) = some column.recovered := by
  have header : HasAnnotations (column.freshState tag) := areSettled_summarizationNode.header
  have named : name? "column" (column.block (column.freshState tag)) = some column.name :=
    column.name?_column rfl
  have source : columnSource? (column.block (column.freshState tag)) = some column.source := by
    rw [columnSource?_block, trimmed.source]
  have format : (column.block (column.freshState tag)).property? "formatString" =
      column.format := by
    rw [column.property?_formatString header, freshState]
    cases given : column.format with
    | none => rfl
    | some text =>
        have same : Text.trim text = text := trimmed.format text given
        rw [Option.map_some, same]
  have summary : (column.block (column.freshState tag)).property? "summarizeBy" =
      some column.summary := by
    have same : Text.trim column.summary = column.summary := by
      rw [Column.summary]
      split <;> decide
    rw [column.property?_summarizeBy, freshState, same]
  have annotations : Prior.annotationsOf (column.block (column.freshState tag)) =
      [⟨"SummarizationSetBy", "Automatic", summarizationNode⟩] := by
    rw [column.annotationsOf_block header]
    rfl
  rw [readColumn?, named, source, column.property?_dataType, format, summary,
    column.hasFlag_isHidden header, column.hasFlag_isKey header, annotations]
  rfl

end Column

/-! ## Tables -/

namespace TableOutline

/-- The written measure as it is read again. -/
def recoveredCount (outline : TableOutline) (block : Block) : Prior.Measure where
  name := Convention.countMeasure outline.name
  expression := "COUNTROWS(" ++ (Name.quoted outline.name ++ ")")
  isGenerated := true
  block := block

/-- The partition as it is read again. -/
def recoveredPartition (outline : TableOutline) : Prior.Partition where
  name := outline.name
  kind := outline.kind.name
  mode := some outline.mode.name
  source := (node 2 "source =" [] outline.sourceNodes).render

/-- The table as it is read again, with the tags under which it was written. -/
def recovered (outline : TableOutline) (tag : Member -> Text) : Prior.Table where
  key := outline.logicalName
  name := outline.name
  isGenerated := true
  tag := some (tag .table)
  columnTags := .ofList (outline.columns.map fun column =>
    (column.source, tag (.column column.source)))
  measureTags := .ofList (outline.countNames.map fun name => (name, tag (.measure name)))
  columns := .ofList (outline.columns.map fun column => (column.source, column.recovered))
  measures := (outline.countNodes (tag (.measure (Convention.countMeasure outline.name)))).map
    outline.recoveredCount
  partition := some outline.recoveredPartition

variable {outline : TableOutline}

theorem afterEquals_of_hasVisibleEnds {text : Text} (ends : HasVisibleEnds text) :
    Prior.afterEquals (" = " ++ text) = text := by
  have equals : Text.trimLeft (" = " ++ text) = '=' :: ' ' :: text := by
    refine (Text.trimLeft_cons_of_blank _ ' ' rfl).trans ?_
    exact Text.trimLeft_cons_of_not_blank _ '=' rfl
  rw [Prior.afterEquals, equals]
  simp only
  rw [Text.trim_cons_of_blank text ' ' rfl, ends.isTrimmed]

theorem readMeasure?_countNode (blanks : List Text) (kids : List Block) :
    readMeasure? outline.name (node 1 ("measure" ++ ' ' :: outline.countHeader) blanks kids) =
      some (outline.recoveredCount (node 1 ("measure" ++ ' ' :: outline.countHeader) blanks kids)) := by
  have shape : outline.countHeader = Name.written (Convention.countMeasure outline.name) ++
      ' ' :: ("= COUNTROWS(" ++ (Name.quoted outline.name ++ ")")) := rfl
  have ends : HasVisibleEnds ("COUNTROWS(" ++ (Name.quoted outline.name ++ ")")) := by
    have first : HasVisibleEnds "COUNTROWS(" := .of_isTrimmed (by decide) (by decide)
    exact first.append ⟨Name.quoted outline.name, ')', rfl, rfl⟩
  have rest : Prior.nameAndRest? "measure"
      (node 1 ("measure" ++ ' ' :: outline.countHeader) blanks kids) =
      some (Convention.countMeasure outline.name,
        " = " ++ ("COUNTROWS(" ++ (Name.quoted outline.name ++ ")"))) := by
    rw [Prior.nameAndRest?, header?_countNode, shape, Option.map_some, Name.split_written_blank]
    rfl
  rw [readMeasure?, rest, Option.map_some]
  simp only [afterEquals_of_hasVisibleEnds ends, beq_self_eq_true]
  rfl

theorem readPartition?_partitionNode (outline : TableOutline) :
    readPartition? outline.partitionNode = some outline.recoveredPartition := by
  have ends : HasVisibleEnds outline.kind.name := by
    cases outline.kind <;> exact .of_isTrimmed (by decide) (by decide)
  have rest : Prior.nameAndRest? "partition" outline.partitionNode =
      some (outline.name, " = " ++ outline.kind.name) := by
    have shape : outline.partitionHeader =
        Name.written outline.name ++ ' ' :: ("= " ++ outline.kind.name) := rfl
    rw [Prior.nameAndRest?, partitionNode, Block.header?_header "partition" 1 _ _ (by decide)
      outline.hasVisibleEnds_partitionHeader, shape, Option.map_some, Name.split_written_blank]
    rfl
  have mode : outline.partitionNode.property? "mode" = some outline.mode.name := by
    have trimmed : Text.trim outline.mode.name = outline.mode.name := by
      cases outline.mode <;> decide
    refine (List.findSome?_cons ..).trans ?_
    rw [Block.valueOf?_property "mode" 2 _ _ _ (by decide), trimmed]
  have source : outline.partitionNode.children.find? (fun child =>
      "source".toList.isPrefixOf child.text) = some (node 2 "source =" [] outline.sourceNodes) := by
    have modeLine := Block.text_property "mode" 2 outline.mode.name [] [] (by decide)
    have sourceLine : (node 2 "source =" [] outline.sourceNodes).text = "source =" := by
      rw [Block.text_node]
      decide
    refine (List.find?_cons ..).trans ?_
    rw [modeLine]
    refine (List.find?_cons ..).trans ?_
    rw [sourceLine]
    rfl
  rw [readPartition?, rest, Option.map_some]
  simp only [afterEquals_of_hasVisibleEnds ends, mode, source]
  rfl

theorem childrenWith_partition_block {state : TableState}
    (columns : ∀ block ∈ state.columns, block.hasHeader "partition" = false)
    (measures : state.measures = []) :
    (outline.block state).childrenWith "partition" = [outline.partitionNode] := by
  have count : ∀ block ∈ outline.countNodes state.countTag, block.hasHeader "partition" = false :=
    fun block member => (outline.begins_of_mem_countNodes member).hasHeader (by decide)
  have closing : ∀ block ∈ outline.closingNodes, block.hasHeader "partition" = false :=
    fun block member => (outline.begins_of_mem_closingNodes member).hasHeader (by decide)
  rw [Block.childrenWith, children_block, members, measures, List.filter_append, List.filter_append,
    List.filter_append, List.filter_append,
    filter_hasHeader_of_none (outline.hasHeader_headNodes (by decide)),
    filter_hasHeader_of_none count, filter_hasHeader_of_none columns,
    List.filter_cons_of_pos outline.hasHeader_partitionNode, filter_hasHeader_of_none closing]
  rfl

/-- The tags of the columns are found under their sources. -/
theorem childTags_column_freshState {tag : Member -> Text}
    (settled : outline.IsSettled (freshColumn tag) (outline.freshState tag))
    (trimmed : ∀ column ∈ outline.columns, column.HasTrimmedLines) :
    Prior.childTags (outline.block (outline.freshState tag)) "column" columnSource? =
      (outline.recovered tag).columnTags := by
  have read (column : Column) (member : column ∈ outline.columns) :
      Prior.keyedTag? columnSource? (column.block (freshColumn tag column)) =
        some (column.source, tag (.column column.source)) := by
    have source : Text.trim column.source = column.source := (trimmed column member).source
    have tagged := (column.isReread_block _).lineageTag? (settled.settled column member).tag
    rw [Prior.keyedTag?_of_lineageTag? tagged, column.columnSource?_block, Option.map_some, source]
    rfl
  have whole : Prior.childTags (outline.block (outline.freshState tag)) "column" columnSource? =
      .ofList (((outline.block (outline.freshState tag)).childrenWith "column").filterMap
        (Prior.keyedTag? columnSource?)) := rfl
  rw [whole, childrenWith_column_of_isSettled settled, recovered, List.filterMap_map]
  congr 1
  refine (List.filterMap_congr fun column member => ?_).trans (congrFun List.filterMap_eq_map _)
  exact read column member

theorem childTags_measure_freshState {tag : Member -> Text}
    (settled : outline.IsSettled (freshColumn tag) (outline.freshState tag)) :
    Prior.childTags (outline.block (outline.freshState tag)) "measure" (name? "measure") =
      (outline.recovered tag).measureTags := by
  have whole : Prior.childTags (outline.block (outline.freshState tag)) "measure"
      (name? "measure") = .ofList (((outline.block (outline.freshState tag)).childrenWith
        "measure").filterMap (Prior.keyedTag? (name? "measure"))) := rfl
  have none : (outline.freshState tag).measures = [] := rfl
  rw [whole, childrenWith_measure_of_isSettled settled, none, List.append_nil, recovered, countNodes,
    countNames]
  split
  · have read := @Prior.keyedTag?_of_lineageTag? (name? "measure") _ _
      (@lineageTag?_countNode outline _ settled.countTag)
    rw [name?_countNode] at read
    rw [List.filterMap_cons_some read]
    rfl
  · rfl

/-- A written table is read as it is. -/
theorem readTable?_freshState {tag : Member -> Text}
    (settled : outline.IsSettled (freshColumn tag) (outline.freshState tag))
    (trimmed : ∀ column ∈ outline.columns, column.HasTrimmedLines)
    (logicalName : Text.IsTrimmed outline.logicalName) :
    readTable? (outline.block (outline.freshState tag)) = some (outline.recovered tag) := by
  have reread := outline.isReread_freshState tag
  have none : (outline.freshState tag).measures = [] := rfl
  have named : name? "table" (outline.block (outline.freshState tag)) = some outline.name :=
    outline.name?_table reread.line
  have logical : Prior.logicalName? (outline.block (outline.freshState tag)) =
      some outline.logicalName := by
    obtain ⟨middle, lines, plain⟩ := reread.members
    rw [outline.logicalName?_of_lines lines plain, logicalName]
  have columns : ((outline.block (outline.freshState tag)).childrenWith "column").filterMap
      readColumn? = outline.columns.map Column.recovered := by
    rw [childrenWith_column_of_isSettled settled, List.filterMap_map]
    refine (List.filterMap_congr fun column member => ?_).trans (congrFun List.filterMap_eq_map _)
    exact Column.readColumn?_freshState (trimmed column member) _
  have measures : ((outline.block (outline.freshState tag)).childrenWith "measure").filterMap
      (readMeasure? outline.name) = (outline.recovered tag).measures := by
    rw [childrenWith_measure_of_isSettled settled, none, List.append_nil, recovered, countNodes,
      countNodes]
    split
    · rw [List.filterMap_cons_some (readMeasure?_countNode [] _)]
      rfl
    · rfl
  have columnHeaders : ∀ block ∈ (outline.freshState tag).columns,
      block.hasHeader "partition" = false :=
    fun _ member => (begins_of_mem_columns member).hasHeader (by decide)
  rw [readTable?, Prior.tableKey?, named, logical, reread.lineageTag? settled.tag,
    childTags_column_freshState settled trimmed, childTags_measure_freshState settled,
    childrenWith_partition_block columnHeaders none]
  simp only [Option.map_some, Option.getD_some, Option.bind_eq_bind, Option.bind_some, columns,
    measures, List.map_map, List.head?_cons, readPartition?_partitionNode]
  rfl

end TableOutline

/-! ## Relationships -/

namespace Relationship

/-- The relationship as it is read again. -/
def recovered (relationship : Relationship) (position : Nat) (name : Text) :
    Prior.Relationship where
  name := name
  key := relationship.key
  isActive := relationship.isActive
  isGenerated := true
  position := position
  block := relationship.block name

variable {relationship : Relationship}

theorem exists_markNode (relationship : Relationship) {block : Block}
    (member : block ∈ relationship.markNodes) : ∃ name, block = markNode name := by
  rw [markNodes, List.mem_append] at member
  rcases member with snowflake | generated
  · split at snowflake
    · exact ⟨_, List.mem_singleton.mp snowflake⟩
    · cases snowflake
  · exact ⟨_, List.mem_singleton.mp generated⟩

theorem property?_isActive (relationship : Relationship) (name : Text) :
    (relationship.block name).property? "isActive" =
      if relationship.isActive then none else some ("false" : Text) := by
  have children : (relationship.block name).children =
      relationship.frontNodes ++
        ([ node 1 (propertyContent "fromColumn" relationship.source) [] [],
           node 1 (propertyContent "toColumn" relationship.target) [[]] [] ] ++
          relationship.markNodes) := rfl
  rw [Block.property?, children]
  cases active : relationship.isActive with
  | false =>
      rw [frontNodes, active, List.append_assoc]
      refine (List.findSome?_cons ..).trans ?_
      rw [Block.valueOf?_property "isActive" 1 "false" _ _ (by decide)]
      rfl
  | true =>
      have integrity : HasVisibleEnds "relyOnReferentialIntegrity" :=
        .of_isTrimmed (by decide) (by decide)
      rw [if_pos rfl, List.findSome?_eq_none_iff]
      intro block member
      rw [frontNodes, active, List.mem_append, List.mem_append] at member
      rcases member with (none | front) | member
      · cases none
      · rw [flagNodes] at front
        split at front
        · rw [List.mem_singleton.mp front]
          exact (Block.begins_self integrity 1 _ _).valueOf? (by decide)
        · cases front
      · simp only [List.cons_append, List.nil_append, List.mem_cons] at member
        rcases member with rfl | rfl | mark
        · exact (Block.begins_property "fromColumn" 1 _ _ _ (by decide)).valueOf? (by decide)
        · exact (Block.begins_property "toColumn" 1 _ _ _ (by decide)).valueOf? (by decide)
        · obtain ⟨name, rfl⟩ := relationship.exists_markNode mark
          exact (Block.begins_annotation 1 _ _ _ _).valueOf? (by decide)

theorem isSome_mark? (relationship : Relationship) (name : Text) :
    ((relationship.block name).children.findSome? Prior.mark?).isSome = true := by
  have generated : Prior.mark? (markNode Convention.generated) = some () := by
    rw [Prior.mark?, markNode, Block.hasHeader_annotation,
      Block.annotationOf?_annotation _ 1 _ _ _ (by decide) (by decide)]
    decide
  have inside : markNode Convention.generated ∈ relationship.markNodes :=
    List.mem_append_right _ (List.mem_singleton_self _)
  have member : markNode Convention.generated ∈ relationship.memberNodes :=
    List.mem_append_right _ (List.mem_append_right _ inside)
  rw [List.findSome?_isSome_iff]
  exact ⟨_, member, by rw [generated]; rfl⟩

/-- A written relationship is read as it is. -/
theorem readRelationship_block (ends : relationship.HasEnds) (position : Nat) {name : Text}
    (trimmed : Text.IsTrimmed name) :
    Prior.readRelationship position (relationship.block name) =
      .ok (relationship.recovered position name) := by
  rw [Prior.readRelationship, relationship.relationshipKey?_block ends,
    relationship.header?_block trimmed]
  simp only [Prior.any_annotationsOf, relationship.property?_isActive, relationship.isSome_mark?,
    Option.getD_some, recovered]
  cases relationship.isActive <;> rfl

end Relationship

end Definition

end TabularModel
