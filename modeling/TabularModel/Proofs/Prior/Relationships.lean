import TabularModel.Proofs.Prior.Orderly

/-!
# Relationship blocks

The file of relationships is read as one block for each of them, from which its
name and its endpoints are read again. A block that a person has written loses
its descriptions when it is kept. Its key, its name and its marks stay.
-/

set_option autoImplicit false

namespace TabularModel

open Block (node)
open Prior (IsTag relationshipKey? withoutDescriptions)

namespace Definition.Relationship

/-! ## The blocks of written relationships -/

def markNode (name : Text) : Block :=
  node 1 (annotationContent name "true") [[]] []

def flagNodes (flag : Bool) (content : Text) : List Block :=
  if flag then [node 1 content [] []] else []

/-- The members of a relationship in front of its endpoints. -/
def frontNodes (relationship : Relationship) : List Block :=
  flagNodes (!relationship.isActive) (propertyContent "isActive" "false") ++
    flagNodes relationship.assumesIntegrity "relyOnReferentialIntegrity"

def markNodes (relationship : Relationship) : List Block :=
  (if relationship.isSnowflake then [markNode Convention.snowflake] else []) ++
    [markNode Convention.generated]

def memberNodes (relationship : Relationship) : List Block :=
  relationship.frontNodes ++
    ([ node 1 (propertyContent "fromColumn" relationship.source) [] [],
       node 1 (propertyContent "toColumn" relationship.target) [[]] [] ] ++
      relationship.markNodes)

def block (relationship : Relationship) (name : Text) : Block :=
  node 0 ("relationship" ++ ' ' :: name) [] relationship.memberNodes

/-- The key under which the relationship is found again. -/
def key (relationship : Relationship) : RelationshipKey :=
  ⟨relationship.source, relationship.target⟩

/-- The endpoints stand on one line without blanks around them. -/
structure HasEnds (relationship : Relationship) : Prop where
  source : HasVisibleEnds relationship.source ∧ Text.IsSingleLine relationship.source
  target : HasVisibleEnds relationship.target ∧ Text.IsSingleLine relationship.target

theorem map_render_lines (relationship : Relationship) (name : Text) :
    (relationship.lines name).map Line.render = (relationship.block name).lines := by
  rw [block, Block.lines_node]
  cases active : relationship.isActive <;> cases integrity : relationship.assumesIntegrity <;>
    cases snowflake : relationship.isSnowflake <;>
    simp [lines, memberNodes, frontNodes, flagNodes, markNodes, markNode, mark, active, integrity,
      snowflake, Line.nested, Block.linesOfEach, Block.lines_node, propertyContent,
      annotationContent_eq, line, Line.deeper, Line.render]

variable {relationship : Relationship}

theorem areAt_memberNodes (ends : relationship.HasEnds) : AreAt 1 relationship.memberNodes := by
  have flag (set : Bool) {content : Text} (isContent : IsContent content) :
      AreAt 1 (flagNodes set content) := by
    rw [flagNodes]
    split
    · exact AreAt.cons (Block.isNested_leaf isContent 1 areBlank_nil) AreAt.nil
    · exact AreAt.nil
  have mark {name : Text} (single : Text.IsSingleLine name) : AreAt 1 [markNode name] :=
    AreAt.cons (Block.isNested_leaf (isContent_annotationContent single (by decide)) 1 areBlank_single)
      AreAt.nil
  have front : AreAt 1 relationship.frontNodes :=
    (flag _ ⟨by decide, by decide⟩).append (flag _ ⟨by decide, by decide⟩)
  have marks : AreAt 1 relationship.markNodes := by
    rw [markNodes]
    refine AreAt.append ?_ (mark (by decide))
    split
    · exact mark (by decide)
    · exact AreAt.nil
  refine front.append (AreAt.cons (Block.isNested_leaf
    (isContent_property ⟨by decide, by decide⟩ ends.source.2) 1 areBlank_nil) ?_)
  exact AreAt.cons (Block.isNested_leaf
    (isContent_property ⟨by decide, by decide⟩ ends.target.2) 1 areBlank_single) marks

theorem isNested_block (ends : relationship.HasEnds) {name : Text} (single : Text.IsSingleLine name) :
    (relationship.block name).IsNested ∧ (relationship.block name).depth = 0 := by
  have header : IsContent ("relationship" ++ ' ' :: name) :=
    isContent_header ⟨by decide, by decide⟩ single
  exact ⟨Block.isNested_node_of_level header 0 areBlank_nil (areAt_memberNodes ends),
    Block.depth_node header.beginsVisibly 0 _ _⟩

theorem header?_block (relationship : Relationship) {name : Text} (trimmed : Text.IsTrimmed name) :
    (relationship.block name).header? "relationship" = some name :=
  Block.header?_header_of_isTrimmed "relationship" 0 [] _
    (.of_isTrimmed (by decide) (by decide)) (by decide) trimmed

theorem valueOf?_frontNodes {name : Text}
    (different : ∀ word ∈ (["isActive", "relyOnReferentialIntegrity"] : List Text),
      Text.differ name word = true) :
    ∀ member ∈ relationship.frontNodes, member.valueOf? name = none := by
  intro member inside
  rw [frontNodes, flagNodes, flagNodes] at inside
  rcases List.mem_append.mp inside with active | integrity
  · split at active
    · rw [List.mem_singleton.mp active]
      exact (Block.begins_property "isActive" 1 "false" [] [] (by decide)).valueOf?
        (different "isActive" (by decide))
    · cases active
  · split at integrity
    · rw [List.mem_singleton.mp integrity]
      have ends : HasVisibleEnds "relyOnReferentialIntegrity" :=
        .of_isTrimmed (by decide) (by decide)
      exact (Block.begins_self ends 1 [] []).valueOf?
        (different "relyOnReferentialIntegrity" (by decide))
    · cases integrity

/-- The key of a relationship is read from its block. -/
theorem relationshipKey?_block (ends : relationship.HasEnds) (name : Text) :
    relationshipKey? (relationship.block name) = some relationship.key := by
  have children : (relationship.block name).children = relationship.memberNodes := rfl
  have source : (relationship.block name).property? "fromColumn" = some relationship.source := by
    have trimmed : Text.trim relationship.source = relationship.source := ends.source.1.isTrimmed
    rw [Block.property?, children, memberNodes,
      findSome?_append_of_none _ (valueOf?_frontNodes (by decide)), List.cons_append,
      List.findSome?_cons, Block.valueOf?_property "fromColumn" 1 _ _ _ (by decide), trimmed]
  have target : (relationship.block name).property? "toColumn" = some relationship.target := by
    have trimmed : Text.trim relationship.target = relationship.target := ends.target.1.isTrimmed
    have first := Block.begins_property "fromColumn" 1 relationship.source [] [] (by decide)
    rw [Block.property?, children, memberNodes,
      findSome?_append_of_none _ (valueOf?_frontNodes (by decide)), List.cons_append,
      List.findSome?_cons, first.valueOf? (by decide), List.cons_append, List.findSome?_cons,
      Block.valueOf?_property "toColumn" 1 _ _ _ (by decide), trimmed]
  rw [relationshipKey?, source, target]
  rfl

end Definition.Relationship

namespace Prior

/-! ## Blocks without descriptions -/

theorem begins_of_isProperty {name : Text} {block : Block} (found : Block.isProperty name block = true) :
    block.Begins name := by
  rw [Block.isProperty, Block.valueOf?] at found
  cases start : Text.dropStart? name block.text with
  | none => simp [start] at found
  | some rest => exact ⟨rest, Text.eq_append_of_dropStart? start⟩

/-- What is found in the lines of other members stays. -/
theorem findSome?_withoutDescriptions {α : Type} {read : Block -> Option α} (ofLine : OfLine read)
    (apart : ∀ block, Block.isProperty "description" block = true -> read block = none)
    (block : Block) :
    (withoutDescriptions block).children.findSome? read = block.children.findSome? read := by
  rw [withoutDescriptions]
  induction block.children with
  | nil => rfl
  | cons child children ih =>
      rw [List.filter_cons, List.findSome?_cons]
      cases described : Block.isProperty "description" child with
      | true => rw [apart child described]; exact ih
      | false =>
          have same : read { child with docs := [] } = read child := by
            rw [ofLine { child with docs := [] }, ofLine child]
          refine (List.findSome?_cons ..).trans ?_
          rw [same]
          cases read child with
          | none => exact ih
          | some found => rfl

theorem property?_withoutDescriptions {name : Text}
    (different : Text.differ name "description" = true) (block : Block) :
    (withoutDescriptions block).property? name = block.property? name :=
  findSome?_withoutDescriptions (ofLine_valueOf? name)
    (fun _ described => (begins_of_isProperty described).valueOf? different) block

theorem relationshipKey?_withoutDescriptions (block : Block) :
    relationshipKey? (withoutDescriptions block) = relationshipKey? block := by
  rw [relationshipKey?, relationshipKey?, property?_withoutDescriptions (by decide),
    property?_withoutDescriptions (by decide)]

/-- The mark of generated relationships on one line. -/
def mark? (block : Block) : Option Unit :=
  if block.hasHeader "annotation" &&
      (annotationOf? block).any fun found =>
        found.1 == Convention.generated && found.2 == ("true" : Text)
  then some () else none

theorem any_annotationsOf (block : Block) :
    ((annotationsOf block).any fun found =>
      found.name == Convention.generated && found.value == ("true" : Text)) =
      (block.children.findSome? mark?).isSome := by
  rw [annotationsOf, Block.childrenWith]
  induction block.children with
  | nil => rfl
  | cons child children ih =>
      rw [List.filter_cons, List.findSome?_cons, mark?]
      cases child.hasHeader "annotation" with
      | false =>
          rw [if_neg Bool.false_ne_true, Bool.false_and, if_neg Bool.false_ne_true]
          exact ih
      | true =>
          rw [if_pos rfl, List.filterMap_cons, Bool.true_and]
          cases annotationOf? child with
          | none => exact ih
          | some found =>
              obtain ⟨name, value⟩ := found
              rw [Option.map_some, List.any_cons, Option.any_some]
              cases (name == Convention.generated && value == ("true" : Text)) with
              | true => rfl
              | false => exact ih

theorem mark?_withoutDescriptions (block : Block) :
    (withoutDescriptions block).children.findSome? mark? = block.children.findSome? mark? := by
  refine findSome?_withoutDescriptions (fun _ => rfl) (fun child described => ?_) block
  rw [mark?, (begins_of_isProperty described).hasHeader (by decide), Bool.false_and,
    if_neg Bool.false_ne_true]

theorem withoutDescriptions_withoutDescriptions (block : Block) :
    withoutDescriptions (withoutDescriptions block) = withoutDescriptions block := by
  have again (children : List Block) :
      ((((children.filter (!Block.isProperty "description" ·)).map
          fun child => { child with docs := [] }).filter (!Block.isProperty "description" ·)).map
        fun child => { child with docs := [] }) =
      (children.filter (!Block.isProperty "description" ·)).map
        fun child => { child with docs := [] } := by
    have sameTest : ((fun child => !Block.isProperty "description" child) ∘
        fun child : Block => { child with docs := [] }) =
        fun child => !Block.isProperty "description" child := rfl
    rw [List.filter_map, sameTest, List.map_map, List.filter_filter]
    simp only [Bool.and_self]
    rfl
  rw [withoutDescriptions, withoutDescriptions, again]

theorem isNested_withoutDocs {block : Block} (nested : block.IsNested) :
    Block.IsNested { block with docs := [] } := by
  cases nested with
  | intro entry kids valid deeper descending each =>
      exact .intro { entry with docs := [] } kids ⟨by simp, valid.line, valid.blanks⟩ deeper
        descending each

/-- Another line at the same depth may begin a nested block. -/
theorem isNested_withLine {block : Block} (nested : block.IsNested) {line : Text}
    (header : Document.IsHeaderLine line) (same : Block.depthOf line = block.depth) :
    Block.IsNested { block with line := line } := by
  cases nested with
  | intro entry kids valid deeper descending each =>
      refine .intro { entry with line := line } kids ⟨valid.docs, header, valid.blanks⟩ ?_
        descending each
      intro kid member
      rw [Document.Entry.depth, same]
      exact deeper kid member

theorem not_isProperty_of_isBlankLine {name line : Text} (visible : BeginsVisibly name)
    (blank : Document.IsBlankLine line) : Block.isProperty name (Block.ofLine line) = false := by
  by_contra found
  obtain ⟨rest, shape⟩ := begins_of_isProperty (by simpa using found)
  obtain ⟨c, others, rfl, _⟩ := visible.exists_cons
  rw [Block.text, Block.ofLine, Text.trim_of_allBlank line blank.blank] at shape
  exact List.cons_ne_nil c _ shape.symm

/-- Without descriptions a block is still nested. -/
theorem isNested_withoutDescriptions {block : Block} (nested : block.IsNested) :
    (withoutDescriptions block).IsNested := by
  cases nested with
  | intro entry kids valid deeper descending each =>
      have blanks : (((entry.blanks.map Block.ofLine).filter (!Block.isProperty "description" ·)).map
          fun child => { child with docs := [] }) = entry.blanks.map Block.ofLine := by
        rw [List.filter_eq_self.mpr, List.map_map]
        · rfl
        · intro child member
          obtain ⟨line, inside, rfl⟩ := List.mem_map.mp member
          rw [not_isProperty_of_isBlankLine (by decide) (valid.blanks line inside)]
          rfl
      have shape : withoutDescriptions (entry.toBlock kids) =
          Document.Entry.toBlock { entry with docs := [] }
            ((kids.filter (!Block.isProperty "description" ·)).map
              fun child => { child with docs := [] }) := by
        rw [withoutDescriptions, Document.Entry.toBlock]
        simp only [List.filter_append, List.map_append]
        rw [blanks]
        rfl
      rw [shape]
      refine .intro _ _ ⟨by simp, valid.line, valid.blanks⟩ ?_ ?_ ?_
      · intro child member
        obtain ⟨kid, inside, rfl⟩ := List.mem_map.mp member
        exact deeper kid (List.mem_of_mem_filter inside)
      · rw [List.pairwise_map]
        exact descending.sublist (List.filter_sublist ..)
      · intro child member
        obtain ⟨kid, inside, rfl⟩ := List.mem_map.mp member
        exact isNested_withoutDocs (each kid (List.mem_of_mem_filter inside))

end Prior

end TabularModel
