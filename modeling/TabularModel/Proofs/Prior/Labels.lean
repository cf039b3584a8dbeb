import TabularModel.Proofs.Prior.Expressions
import TabularModel.Proofs.Prior.KeptRelationships

/-!
# Identifiers and the elements that bear them

An element of a definition set is known by its key: a table by its own one, a
column and a measure by that of their table and by a source or a name, an
expression by its name and a relationship by its ends. The labels of a set are
the identifiers that are read from its blocks, each with the element that bears
it. What a merge takes over for an element is one of its labels in the earlier
set.
-/

set_option autoImplicit false

namespace TabularModel

namespace Prior

/-- What keeps its identifier, under the key by which it is found again. -/
inductive Element where
  | table (key : Text)
  | column (table source : Text)
  | measure (table name : Text)
  | expression (name : Text)
  | relationship (key : RelationshipKey)
deriving DecidableEq, Repr

/-- The key of the table to which an element belongs. -/
def Element.tableKey? : Element -> Option Text
  | .table key => some key
  | .column key _ => some key
  | .measure key _ => some key
  | .expression _ => none
  | .relationship _ => none

/-- An element with the lineage tag or the name that it bears. -/
abbrev Label := Element × Text

/-! ## Labels of blocks -/

/-- The label of a block that has a key and a tag. -/
def taggedLabel? (element : Text -> Element) (keyOf : Block -> Option Text) (block : Block) :
    Option Label :=
  (keyedTag? keyOf block).map fun found => (element found.1, found.2)

def childLabels (block : Block) (key : Text) : List Label :=
  (block.childrenWith "column").filterMap (taggedLabel? (.column key) columnSource?) ++
    (block.childrenWith "measure").filterMap (taggedLabel? (.measure key) (name? "measure"))

def tableLabels (block : Block) : List Label :=
  (taggedLabel? .table tableKey? block).toList ++
    (tableKey? block).elim [] (childLabels block)

/-- A relationship is labelled by its name. -/
def relationshipLabel? (block : Block) : Option Label :=
  (known? block).map fun relationship => (.relationship relationship.key, relationship.name)

def expressionBlocks (definitions : DefinitionSet) : List Block :=
  (fileBlocks definitions Path.expressions).filter (Block.hasHeader "expression")

/-- All identifiers of a definition set. -/
def labels (definitions : DefinitionSet) : List Label :=
  (tableBlocks definitions).flatMap tableLabels ++
    ((expressionBlocks definitions).filterMap (taggedLabel? .expression (name? "expression")) ++
      (relationshipBlocks definitions).filterMap relationshipLabel?)

/-! ## Identifiers that are taken over -/

/-- The identifier that a merge with the model gives to an element. -/
def Model.identifier? (model : Model) : Element -> Option Text
  | .table key => (model.tables.get? key).bind (·.tag)
  | .column key source => (model.tables.get? key).bind (·.columnTags.get? source)
  | .measure key name => (model.tables.get? key).bind (·.measureTags.get? name)
  | .expression name => model.expressionTags.get? name
  | .relationship key => (model.relationship? key).map (·.name)

variable {definitions : DefinitionSet} {identifier : Text}

theorem mem_labels_of_mem_tableLabels {block : Block} (member : block ∈ tableBlocks definitions)
    {label : Label} (inside : label ∈ tableLabels block) : label ∈ labels definitions :=
  List.mem_append_left _ (List.mem_flatMap.mpr ⟨block, member, inside⟩)

/-- What labels no expression labels something of a table, or a relationship. -/
theorem mem_or_mem_of_mem_labels {found : Label} (member : found ∈ labels definitions)
    (other : ∀ name, found.1 ≠ .expression name) :
    found ∈ (tableBlocks definitions).flatMap tableLabels ∨
      found ∈ (relationshipBlocks definitions).filterMap relationshipLabel? := by
  refine (List.mem_append.mp member).imp_right fun rest => ?_
  rcases List.mem_append.mp rest with ofExpression | ofRelationship
  · obtain ⟨block, _, read⟩ := List.mem_filterMap.mp ofExpression
    obtain ⟨tagged, _, rfl⟩ := Option.map_eq_some_iff.mp read
    exact absurd rfl (other tagged.1)
  · exact ofRelationship

/-- The table under a key is read from a block whose labels are labels of the set. -/
theorem exists_block_of_get?_tables {key : Text} {table : Table}
    (found : (Model.ofDefinitions definitions).tables.get? key = some table) :
    ∃ block ∈ tableBlocks definitions, tableKey? block = some key ∧ IsReadFrom block table := by
  obtain ⟨block, member, read⟩ := exists_mem_of_get?_tables found
  obtain ⟨inside, known⟩ := List.mem_filter.mp member
  exact ⟨block, inside, eq_of_beq known, isReadFrom_of_readTable? read⟩

theorem mem_filterMap_of_get?_childTags {block : Block} {keyword key : Text}
    {keyOf : Block -> Option Text} (element : Text -> Element)
    (found : (childTags block keyword keyOf).get? key = some identifier) :
    (element key, identifier) ∈
      (block.childrenWith keyword).filterMap (taggedLabel? element keyOf) := by
  obtain ⟨child, inside, read⟩ := List.mem_filterMap.mp
    (SortedMap.mem_of_mem_ofList (SortedMap.mem_of_get? found))
  exact List.mem_filterMap.mpr ⟨child, inside, congrArg (Option.map _) read⟩

theorem mem_tableLabels_of_childLabels {block : Block} {key : Text}
    (known : tableKey? block = some key) {label : Label} (inside : label ∈ childLabels block key) :
    label ∈ tableLabels block := by
  rw [tableLabels, known]
  exact List.mem_append_right _ inside

/-- What is taken over for an element is one of its labels. -/
theorem mem_labels_of_identifier? {element : Element}
    (found : (Model.ofDefinitions definitions).identifier? element = some identifier) :
    (element, identifier) ∈ labels definitions := by
  cases element with
  | table key =>
      obtain ⟨table, known, tagged⟩ := Option.bind_eq_some_iff.mp found
      obtain ⟨block, member, blockKey, parts⟩ := exists_block_of_get?_tables known
      refine mem_labels_of_mem_tableLabels member (List.mem_append_left _ ?_)
      rw [parts.tag] at tagged
      rw [Option.mem_toList, taggedLabel?, keyedTag?_of_lineageTag? tagged, blockKey]
      rfl
  | column key source =>
      obtain ⟨table, known, tagged⟩ := Option.bind_eq_some_iff.mp found
      obtain ⟨block, member, blockKey, parts⟩ := exists_block_of_get?_tables known
      rw [parts.columnTags] at tagged
      exact mem_labels_of_mem_tableLabels member (mem_tableLabels_of_childLabels blockKey
        (List.mem_append_left _ (mem_filterMap_of_get?_childTags (.column key) tagged)))
  | measure key name =>
      obtain ⟨table, known, tagged⟩ := Option.bind_eq_some_iff.mp found
      obtain ⟨block, member, blockKey, parts⟩ := exists_block_of_get?_tables known
      rw [parts.measureTags] at tagged
      exact mem_labels_of_mem_tableLabels member (mem_tableLabels_of_childLabels blockKey
        (List.mem_append_right _ (mem_filterMap_of_get?_childTags (.measure key) tagged)))
  | expression name =>
      refine List.mem_append_right _ (List.mem_append_left _ ?_)
      rw [Model.identifier?, Model.expressionTags_ofDefinitions] at found
      rw [expressionBlocks, fileBlocks]
      cases file : definitions.get? Path.expressions with
      | none =>
          rw [file] at found
          cases found
      | some text =>
          rw [file] at found
          obtain ⟨block, inside, read⟩ := List.mem_filterMap.mp
            (SortedMap.mem_of_mem_ofList (SortedMap.mem_of_get? found))
          exact List.mem_filterMap.mpr ⟨block, inside, congrArg (Option.map _) read⟩
  | relationship key =>
      refine List.mem_append_right _ (List.mem_append_right _ ?_)
      rw [Model.identifier?, map_name_relationship?] at found
      obtain ⟨relationship, first, rfl⟩ := Option.map_eq_some_iff.mp found
      have sameKey : relationship.key = key := by simpa using List.find?_some first
      obtain ⟨block, member, known⟩ :=
        exists_block_of_mem_knownOf (List.mem_of_find?_eq_some first)
      refine List.mem_filterMap.mpr ⟨block, member, ?_⟩
      rw [relationshipLabel?, known, Option.map_some, sameKey]

/-! ## Labels that are taken over -/

/-- No element has two labels. -/
def AreDistinct (found : List Label) : Prop :=
  (found.map (·.1)).Nodup

theorem AreDistinct.eq {found : List Label} (distinct : AreDistinct found) {left right : Label}
    (leftMember : left ∈ found) (rightMember : right ∈ found) (same : left.1 = right.1) :
    left.2 = right.2 :=
  congrArg Prod.snd (List.inj_on_of_nodup_map distinct leftMember rightMember same)

/-- The tag of a child with a key of its own is found under that key. -/
theorem exists_get?_childTags {block : Block} {keyword : Text} {keyOf : Block -> Option Text}
    {element : Text -> Element}
    (distinct : AreDistinct ((block.childrenWith keyword).filterMap (taggedLabel? element keyOf)))
    {label : Label}
    (inside : label ∈ (block.childrenWith keyword).filterMap (taggedLabel? element keyOf)) :
    ∃ key, label.1 = element key ∧ (childTags block keyword keyOf).get? key = some label.2 := by
  obtain ⟨child, member, read⟩ := List.mem_filterMap.mp inside
  obtain ⟨found, tagged, rfl⟩ := Option.map_eq_some_iff.mp read
  refine ⟨found.1, rfl, SortedMap.get?_ofList_of_mem
    (List.mem_filterMap.mpr ⟨child, member, tagged⟩) fun entry entryMember same => ?_⟩
  obtain ⟨other, otherMember, otherTagged⟩ := List.mem_filterMap.mp entryMember
  have known : keyedTag? keyOf other = some entry := otherTagged
  have otherLabel : (element entry.1, entry.2) ∈
      (block.childrenWith keyword).filterMap (taggedLabel? element keyOf) :=
    List.mem_filterMap.mpr ⟨other, otherMember, by rw [taggedLabel?, known]; rfl⟩
  exact distinct.eq otherLabel inside (congrArg element same)

/-- The labels of a table are taken over if they are distinct and the table is known by
its block. -/
theorem identifier?_of_mem_tableLabels {block : Block} {key : Text} {table : Table}
    (known : tableKey? block = some key)
    (found : (Model.ofDefinitions definitions).tables.get? key = some table)
    (parts : IsReadFrom block table) (distinct : AreDistinct (tableLabels block)) {label : Label}
    (inside : label ∈ tableLabels block) :
    (Model.ofDefinitions definitions).identifier? label.1 = some label.2 := by
  rw [tableLabels, known, Option.elim_some, childLabels] at distinct inside
  rw [AreDistinct, List.map_append, List.map_append, List.nodup_append, List.nodup_append] at distinct
  obtain ⟨-, ⟨columns, measures, -⟩, -⟩ := distinct
  rcases List.mem_append.mp inside with own | child
  · obtain ⟨tagged, read, rfl⟩ := Option.map_eq_some_iff.mp (Option.mem_toList.mp own)
    obtain ⟨own, isOwn, rest⟩ := Option.bind_eq_some_iff.mp read
    obtain ⟨tag, isTag, same⟩ := Option.bind_eq_some_iff.mp rest
    cases same
    cases isOwn.symm.trans known
    rw [Model.identifier?, found, Option.bind_some, parts.tag, isTag]
  · rcases List.mem_append.mp child with column | measure
    · obtain ⟨source, same, tagged⟩ := exists_get?_childTags columns column
      rw [same, Model.identifier?, found, Option.bind_some, parts.columnTags, tagged]
    · obtain ⟨name, same, tagged⟩ := exists_get?_childTags measures measure
      rw [same, Model.identifier?, found, Option.bind_some, parts.measureTags, tagged]

/-- The names of relationships with different endpoints are taken over. -/
theorem identifier?_of_mem_relationshipLabels (distinct : HasDistinctRelationships definitions)
    {label : Label} (inside : label ∈ (relationshipBlocks definitions).filterMap relationshipLabel?) :
    (Model.ofDefinitions definitions).identifier? label.1 = some label.2 := by
  obtain ⟨block, member, read⟩ := List.mem_filterMap.mp inside
  obtain ⟨relationship, known, rfl⟩ := Option.map_eq_some_iff.mp read
  have isKnown : relationship ∈ knownOf definitions := by
    rw [knownOf_of_distinct distinct]
    exact List.mem_filterMap.mpr ⟨block, member, known⟩
  rw [Model.identifier?, map_name_relationship?, ← knownOf, nameOf?,
    find?_of_nodup (nodup_keys_knownOf distinct) isKnown]
  rfl

end Prior

end TabularModel
