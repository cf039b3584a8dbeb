import TabularModel.Proofs.Generation.Files
import TabularModel.Proofs.Prior.RelationshipFile

/-!
# Relationships that people have added

A relationship that a person has added stays behind the fresh ones, without its
descriptions. A fresh relationship takes the name of the earlier one with the same
endpoints. What was generated once, or leads to the calendar, does not come back.
-/

set_option autoImplicit false

namespace TabularModel

open Document (IsHeaderLine)

namespace Prior

/-! ## Relationships by their endpoints -/

/-- The blocks that are read from the file at a path. -/
def fileBlocks (definitions : DefinitionSet) (path : Text) : List Block :=
  (definitions.get? path).elim [] fun text => (Document.ofText text).blocks

/-- The relationship blocks of a definition set, in the order of their file. -/
def relationshipBlocks (definitions : DefinitionSet) : List Block :=
  (definitions.get? Path.relationships).elim [] fun text =>
    (Document.ofText text).blocksWith "relationship"

def relationshipKeys (definitions : DefinitionSet) : List RelationshipKey :=
  (relationshipBlocks definitions).filterMap relationshipKey?

/-- The relationship blocks of a definition set are known by different endpoints. -/
def HasDistinctRelationships (definitions : DefinitionSet) : Prop :=
  (relationshipKeys definitions).Nodup

instance (definitions : DefinitionSet) : Decidable (HasDistinctRelationships definitions) :=
  inferInstanceAs (Decidable (List.Nodup _))

/-- Whether a block carries the mark of generated relationships. -/
def isMarked (block : Block) : Bool :=
  (annotationsOf block).any fun found =>
    found.name == Convention.generated && found.value == ("true" : Text)

/-- Whether a block stays behind fresh relationships with the given endpoints. -/
def isAdded (fresh : List RelationshipKey) (block : Block) : Bool :=
  ((relationshipKey? block).any fun key => !fresh.contains key && !key.isCalendar) &&
    !isMarked block

/-- A fresh relationship takes the name of the earlier one with the same endpoints,
and is otherwise left alone. -/
structure TakesName (earlier : List Block) (fresh merged : Block) : Prop where
  members : merged.docs = fresh.docs ∧ merged.children = fresh.children
  known : ∀ key, relationshipKey? fresh = some key -> ∀ prior ∈ earlier,
    relationshipKey? prior = some key ->
      merged.line = "relationship " ++ (prior.header? "relationship").getD []
  unknown : (∀ key, relationshipKey? fresh = some key -> ∀ prior ∈ earlier,
    relationshipKey? prior ≠ some key) -> merged.line = fresh.line

/-- A relationship loses its descriptions: the documentation of the block and of its
members, and the members that are descriptions. -/
structure LosesDescriptions (block kept : Block) : Prop where
  line : kept.docs = [] ∧ kept.line = block.line
  members : List.Forall₂
    (fun member left => left.docs = [] ∧ left.line = member.line ∧ left.children = member.children)
    (block.children.filter fun member => !Block.isProperty "description" member) kept.children

theorem losesDescriptions_withoutDescriptions (block : Block) :
    LosesDescriptions block (withoutDescriptions block) :=
  ⟨⟨rfl, rfl⟩, List.forall₂_map_right_iff.mpr (List.forall₂_same.mpr fun _ _ => ⟨rfl, rfl, rfl⟩)⟩

/-- Names stay when descriptions are lost. -/
theorem map_header?_of_losesDescriptions {blocks kept : List Block}
    (loses : List.Forall₂ LosesDescriptions blocks kept) (keyword : Text) :
    kept.map (·.header? keyword) = blocks.map (·.header? keyword) := by
  induction loses with
  | nil => rfl
  | cons first _ ih =>
      rw [List.map_cons, List.map_cons, ih, Block.header?, Block.text, first.line.2]
      rfl

/-! ## What is known -/

variable {definitions : DefinitionSet}

theorem relationshipBlocks_eq (definitions : DefinitionSet) :
    relationshipBlocks definitions =
      (fileBlocks definitions Path.relationships).filter (Block.hasHeader "relationship") := by
  rw [relationshipBlocks, fileBlocks]
  cases definitions.get? Path.relationships <;> rfl

theorem knownOf_eq (definitions : DefinitionSet) :
    knownOf definitions = knownAmong (relationshipBlocks definitions) := by
  rw [knownOf, map_unplaced_relationships, relationshipBlocks]
  cases definitions.get? Path.relationships <;> rfl

/-- What is known was read from a block of the file. -/
theorem exists_block_of_mem_knownOf {relationship : Relationship}
    (member : relationship ∈ knownOf definitions) :
    ∃ block ∈ relationshipBlocks definitions, known? block = some relationship := by
  rw [knownOf_eq, knownAmong] at member
  rcases mem_of_mem_foldl_addKnown member with none | read
  · cases none
  · exact List.mem_filterMap.mp read

/-- Under different endpoints each block is known. -/
theorem knownOf_of_distinct (distinct : HasDistinctRelationships definitions) :
    knownOf definitions = (relationshipBlocks definitions).filterMap known? := by
  have keys : ((relationshipBlocks definitions).filterMap known?).map (·.key) =
      relationshipKeys definitions := by
    rw [List.map_filterMap]
    exact List.filterMap_congr fun block _ => map_key_known? block
  rw [knownOf_eq]
  refine foldl_addKnown_of_distinct ?_
  rw [List.nil_append, keys]
  exact distinct

theorem nodup_keys_knownOf (distinct : HasDistinctRelationships definitions) :
    ((knownOf definitions).map (·.key)).Nodup := by
  rw [knownOf_of_distinct distinct, List.map_filterMap]
  refine (List.filterMap_congr fun block _ => map_key_known? block) ▸ distinct

theorem isKept_of_known? {block : Block} {relationship : Relationship}
    (read : known? block = some relationship) (keys : List RelationshipKey) :
    isKept keys relationship = isAdded keys block := by
  obtain ⟨_, key, _, marked⟩ := block_of_known? read
  rw [isKept, isAdded, key, marked, isMarked, any_annotationsOf]
  rfl

/-- The blocks that are kept are those that people have added. -/
theorem keptBlocks_filterMap (blocks : List Block) (keys : List RelationshipKey) :
    keptBlocks (blocks.filterMap known?) keys =
      (blocks.filter (isAdded keys)).map withoutDescriptions := by
  induction blocks with
  | nil => rfl
  | cons block blocks ih =>
      cases read : known? block with
      | none =>
          have unread : relationshipKey? block = none := by
            rw [← map_key_known?, read]
            rfl
          rw [List.filterMap_cons_none read, List.filter_cons_of_neg (by simp [isAdded, unread]), ih]
      | some relationship =>
          rw [List.filterMap_cons_some read, keptBlocks, List.filter_cons, List.filter_cons,
            isKept_of_known? read]
          split
          · rw [List.map_cons, List.map_cons, (block_of_known? read).1]
            exact congrArg _ ih
          · exact ih

theorem map_block_userRelationships_of_distinct (distinct : HasDistinctRelationships definitions)
    (keys : List RelationshipKey) :
    (((Model.ofDefinitions definitions).userRelationships keys).map
      fun added => withoutDescriptions added.block) =
      ((relationshipBlocks definitions).filter (isAdded keys)).map withoutDescriptions := by
  rw [map_block_userRelationships, ← knownOf, knownOf_of_distinct distinct, keptBlocks_filterMap]

/-- A block is left alone or takes the name of an earlier one with its endpoints. -/
theorem mergeRelationship_eq (definitions : DefinitionSet) (block : Block) :
    mergeRelationship (.ofDefinitions definitions) block = block ∨
      ∃ prior ∈ relationshipBlocks definitions, ∃ key,
        relationshipKey? prior = some key ∧ relationshipKey? block = some key ∧
        mergeRelationship (.ofDefinitions definitions) block =
          { block with line := "relationship " ++ (prior.header? "relationship").getD [] } := by
  rw [mergeRelationship]
  cases read : relationshipKey? block with
  | none => exact Or.inl rfl
  | some key =>
      rw [Option.bind_some]
      cases found : (Model.ofDefinitions definitions).relationship? key with
      | none => exact Or.inl rfl
      | some relationship =>
          have inside : relationship.unplaced ∈ knownOf definitions :=
            List.mem_map_of_mem (List.mem_of_find?_eq_some found)
          have sameKey : (relationship.key == key) = true :=
            List.find?_some (p := fun other : Relationship => other.key == key) found
          obtain ⟨prior, member, known⟩ := exists_block_of_mem_knownOf inside
          obtain ⟨-, priorKey, name, -⟩ := block_of_known? known
          refine Or.inr ⟨prior, member, key, priorKey.trans (congrArg some (eq_of_beq sameKey)), rfl, ?_⟩
          rw [← name]
          rfl

/-- Under different endpoints a block takes the name that stands in the earlier file. -/
theorem takesName_mergeRelationship (distinct : HasDistinctRelationships definitions)
    (block : Block) :
    TakesName (relationshipBlocks definitions) block
      (mergeRelationship (.ofDefinitions definitions) block) := by
  refine ⟨?_, ?_, ?_⟩
  · rcases mergeRelationship_eq definitions block with same | ⟨_, _, _, _, _, same⟩ <;>
      rw [same] <;> exact ⟨rfl, rfl⟩
  · intro key read prior member priorKey
    obtain ⟨known, priorRead, sameKey⟩ := exists_known? priorKey
    have inside : known ∈ knownOf definitions := by
      rw [knownOf_of_distinct distinct]
      exact List.mem_filterMap.mpr ⟨prior, member, priorRead⟩
    have named := map_name_relationship? (.ofDefinitions definitions) key
    rw [← knownOf, nameOf?, ← sameKey, find?_of_nodup (nodup_keys_knownOf distinct) inside,
      Option.map_some, (block_of_known? priorRead).2.2.1, sameKey] at named
    obtain ⟨relationship, found, name⟩ := Option.map_eq_some_iff.mp named
    rw [mergeRelationship, read, Option.bind_some, found, ← name]
  · intro unknown
    rcases mergeRelationship_eq definitions block with same | ⟨prior, member, key, known, read, _⟩
    · rw [same]
    · exact absurd known (unknown key read prior member)

/-! ## Headers and places -/

theorem isNested_of_mem_relationshipBlocks {block : Block}
    (member : block ∈ relationshipBlocks definitions) :
    block.IsNested ∧ block.hasHeader "relationship" = true := by
  rw [relationshipBlocks] at member
  cases found : definitions.get? Path.relationships with
  | none =>
      rw [found] at member
      cases member
  | some text =>
      rw [found] at member
      obtain ⟨root, header⟩ := List.mem_filter.mp member
      exact ⟨Document.isNested_of_mem_ofText root
        (Block.allBlank_of_hasHeader (by decide) header)
        (Block.not_isDoc_of_hasHeader ⟨by decide, by decide⟩ header), header⟩

/-- The line that a renamed relationship begins with. -/
theorem renamed_line {prior : Block} (member : prior ∈ relationshipBlocks definitions) {merged : Block}
    (renamed : merged.line = "relationship " ++ (prior.header? "relationship").getD []) :
    IsHeaderLine merged.line ∧ merged.depth = 0 ∧
      merged.header? "relationship" = prior.header? "relationship" := by
  obtain ⟨nested, header⟩ := isNested_of_mem_relationshipBlocks member
  obtain ⟨name, found⟩ := Option.isSome_iff_exists.mp header
  obtain ⟨trimmed, single⟩ := Block.header?_eq_some found nested.header.single
  have content : IsContent ("relationship" ++ ' ' :: name) :=
    IsContent.append ⟨by decide, by decide⟩ (by simpa [Text.IsSingleLine] using single)
  have own : (Block.node 0 ("relationship" ++ ' ' :: name) [] []).header? "relationship" =
      some name :=
    Block.header?_header_of_isTrimmed "relationship" 0 [] [] (.of_isTrimmed (by decide) (by decide))
      (by decide) trimmed
  rw [found, Option.getD_some] at renamed
  rw [Block.depth, Block.header?, Block.text, renamed, found]
  exact ⟨content.isHeaderLine 0, content.beginsVisibly.depthOf 0, own⟩

/-- A fresh relationship keeps its place under another name. -/
theorem isNested_mergeRelationship {block : Block} (nested : block.IsNested ∧ block.depth = 0) :
    (mergeRelationship (.ofDefinitions definitions) block).IsNested ∧
      (mergeRelationship (.ofDefinitions definitions) block).depth = 0 := by
  rcases mergeRelationship_eq definitions block with same | ⟨prior, member, _, _, _, same⟩
  · rw [same]
    exact nested
  · obtain ⟨header, start, -⟩ := renamed_line member (congrArg Block.line same)
    refine ⟨?_, start⟩
    rw [same] at header start ⊢
    exact isNested_withLine nested.1 header (start.trans nested.2.symm)

theorem hasHeader_mergeRelationship {block : Block} (header : block.hasHeader "relationship" = true) :
    (mergeRelationship (.ofDefinitions definitions) block).hasHeader "relationship" = true := by
  rcases mergeRelationship_eq definitions block with same | ⟨prior, member, _, _, _, same⟩
  · rw [same]
    exact header
  · rw [Block.hasHeader, (renamed_line member (congrArg Block.line same)).2.2]
    exact (isNested_of_mem_relationshipBlocks member).2

/-! ## Merging a document -/

/-- A merge leaves the relationships of a document where they are. -/
theorem filter_map_mergeRelationship (blocks : List Block) :
    (blocks.map fun block =>
        if block.hasHeader "relationship" then mergeRelationship (.ofDefinitions definitions) block
        else block).filter (Block.hasHeader "relationship") =
      (blocks.filter (Block.hasHeader "relationship")).map
        (mergeRelationship (.ofDefinitions definitions)) := by
  induction blocks with
  | nil => rfl
  | cons block blocks ih =>
      by_cases header : block.hasHeader "relationship" = true
      · rw [List.map_cons, if_pos header, List.filter_cons_of_pos (hasHeader_mergeRelationship header), ih,
          List.filter_cons_of_pos header, List.map_cons]
      · rw [List.map_cons, if_neg header, List.filter_cons_of_neg header, ih,
          List.filter_cons_of_neg header]

/-- A merge changes the relationships of a document and puts others behind them. -/
theorem blocksWith_mergeRelationships (distinct : HasDistinctRelationships definitions)
    (document : Document) :
    (mergeRelationships (.ofDefinitions definitions) document).blocksWith "relationship" =
      (document.blocksWith "relationship").map (mergeRelationship (.ofDefinitions definitions)) ++
        ((relationshipBlocks definitions).filter (isAdded (freshKeys document))).map
          withoutDescriptions := by
  have headers : ∀ block ∈ ((relationshipBlocks definitions).filter
      (isAdded (freshKeys document))).map withoutDescriptions,
      block.hasHeader "relationship" = true := by
    intro block member
    obtain ⟨prior, inside, rfl⟩ := List.mem_map.mp member
    exact (isNested_of_mem_relationshipBlocks (List.mem_of_mem_filter inside)).2
  rw [mergeRelationships, Document.changeWith, Document.blocksWith,
    map_block_userRelationships_of_distinct distinct, List.filter_append,
    filter_map_mergeRelationship, List.filter_eq_self.mpr headers, Document.blocksWith]

/-- What is put behind fresh relationships is an earlier one without its descriptions. -/
theorem exists_of_mem_userRelationships {keys : List RelationshipKey} {added : Relationship}
    (member : added ∈ (Model.ofDefinitions definitions).userRelationships keys) :
    ∃ prior ∈ relationshipBlocks definitions, added.block = prior ∧ isAdded keys prior = true := by
  obtain ⟨inside, kept⟩ := List.mem_filter.mp member
  have known : added.unplaced ∈ knownOf definitions := List.mem_map_of_mem inside
  obtain ⟨prior, priorMember, read⟩ := exists_block_of_mem_knownOf known
  refine ⟨prior, priorMember, (block_of_known? read).1, ?_⟩
  rw [← isKept_of_known? read]
  exact kept

/-- From relationships at the start of their lines, nothing that is merged stands
deeper. -/
theorem isNested_of_mem_mergeRelationships
    (places : ∀ block ∈ relationshipBlocks definitions, block.depth = 0) {blocks : List Block}
    (nested : ∀ block ∈ blocks, block.IsNested ∧ block.depth = 0) :
    ∀ block ∈ (mergeRelationships (.ofDefinitions definitions) ⟨blocks, true⟩).blocks,
      block.IsNested ∧ block.depth = 0 := by
  intro block member
  rcases List.mem_append.mp member with changed | kept
  · obtain ⟨own, inside, rfl⟩ := List.mem_map.mp changed
    split
    · exact isNested_mergeRelationship (nested own inside)
    · exact nested own inside
  · obtain ⟨added, inside, rfl⟩ := List.mem_map.mp kept
    obtain ⟨prior, priorMember, same, -⟩ := exists_of_mem_userRelationships inside
    rw [same]
    exact ⟨isNested_withoutDescriptions (isNested_of_mem_relationshipBlocks priorMember).1,
      places prior priorMember⟩

/-! ## The fresh file -/

/-- The last lines of a fresh file of relationships are the mark of the last one. -/
theorem exists_relationshipLines_eq (supply : Generation.Supply)
    {relationships : List Definition.Relationship} (nonempty : relationships ≠ []) :
    ∃ front, Generation.relationshipLines supply relationships =
      front ++ Line.nested (Definition.Relationship.mark Convention.generated) := by
  rcases List.eq_nil_or_concat relationships with rfl | ⟨others, last, rfl⟩
  · exact absurd rfl nonempty
  · rw [List.concat_eq_append, Generation.relationshipLines, List.mapIdx_concat, List.flatten_append,
      List.flatten_singleton, Definition.Relationship.lines, Line.nested, List.map_append,
      ← List.cons_append, ← List.append_assoc]
    exact ⟨_, rfl⟩

/-- The blocks of a fresh file of relationships stand at no depth, whatever names they
mention. -/
theorem exists_ofText_relationshipLines (supply : Generation.Supply)
    {relationships : List Definition.Relationship} (nonempty : relationships ≠ []) :
    ∃ blocks, Document.ofText (Line.fileText (Generation.relationshipLines supply relationships)) =
      ⟨blocks, true⟩ ∧ blocks ≠ [] ∧ ∀ block ∈ blocks, block.IsNested ∧ block.depth = 0 := by
  have begins : IsContent "relationship " := ⟨by decide, by decide⟩
  have ends : IsContent ("annotation " ++ Convention.generated ++ " = true") :=
    ⟨by decide, by decide⟩
  refine Document.exists_ofText_fileText begins ends ?_ (exists_relationshipLines_eq supply nonempty)
  obtain ⟨first, others, rfl⟩ := List.exists_cons_of_ne_nil nonempty
  rw [Generation.relationshipLines, List.mapIdx_cons, List.flatten_cons]
  exact ⟨_, _, rfl⟩

/-- A merged file of relationships is written if there are blocks for it. -/
theorem get?_relationships_merge {options : Generation.Options} {supply : Generation.Supply}
    {selection : Catalog.Selection} {relationships : List Definition.Relationship}
    {output : Generation.Output}
    (generated : Generation.IsGenerated options supply selection relationships output)
    (earlier : Model) :
    (∀ block ∈ fileBlocks output.definitions Path.relationships,
      block.IsNested ∧ block.depth = 0) ∧
    (merge output.definitions earlier).get? Path.relationships =
      relationshipText? (mergeRelationships earlier
        ⟨fileBlocks output.definitions Path.relationships, true⟩).blocks := by
  have found := generated.get?_relationships
  have folder : Path.isInTablesFolder Path.relationships = false := by decide
  rw [fileBlocks, merge, SortedMap.contains_eq, found]
  cases relationships with
  | nil =>
      rw [List.isEmpty_nil, if_pos rfl, Option.isSome_none, if_neg Bool.false_ne_true,
        Option.elim_none, relationshipText?]
      refine ⟨by simp, ?_⟩
      split
      · next absent =>
          rw [if_pos, SortedMap.get?_mapValues, found]
          · rfl
          · exact List.isEmpty_iff.mpr ((Document.render_eq_nil_iff _).mp absent)
      · next text present =>
          rw [SortedMap.get?_insert, if_pos rfl, if_neg]
          · rfl
          · intro empty
            exact present ((Document.render_eq_nil_iff _).mpr (List.isEmpty_iff.mp empty))
  | cons first others =>
      obtain ⟨blocks, read, nonempty, nested⟩ :=
        exists_ofText_relationshipLines supply (List.cons_ne_nil first others)
      rw [List.isEmpty_cons, if_neg Bool.false_ne_true, Option.elim_some, read]
      have present : Line.fileText (Generation.relationshipLines supply (first :: others)) ≠ [] := by
        intro empty
        rw [empty] at read
        exact Bool.noConfusion (congrArg Document.isEnded read)
      have contained : (mergeRelationships earlier ⟨blocks, true⟩).blocks ≠ [] :=
        List.append_ne_nil_of_left_ne_nil (mt List.map_eq_nil_iff.mp nonempty) _
      refine ⟨nested, ?_⟩
      rw [Option.isSome_some, if_pos rfl, SortedMap.get?_mapValues, found, List.isEmpty_cons,
        if_neg Bool.false_ne_true, Option.map_some, mergeFile, folder, if_neg Bool.false_ne_true,
        if_pos rfl, relationshipsDocument, if_neg present, read, relationshipText?,
        if_neg (mt List.isEmpty_iff.mp contained)]
      exact congrArg some rfl

/-- Nested blocks at no depth are read from the file that is written for them. -/
theorem fileBlocks_of_relationshipText? {definitions : DefinitionSet} {blocks : List Block}
    (written : definitions.get? Path.relationships = relationshipText? blocks)
    (nested : ∀ block ∈ blocks, block.IsNested ∧ block.depth = 0) :
    fileBlocks definitions Path.relationships = blocks := by
  rw [fileBlocks, written, relationshipText?]
  split
  · next empty => exact (List.isEmpty_iff.mp empty).symm
  · next some =>
      rw [Option.elim_some, Document.ofText_render_of_level (mt List.isEmpty_iff.mpr some) nested]

/-! ## Generated sets -/

/-- The blocks of a merged file are the fresh ones and, behind them, the added ones. They
are read again if the earlier relationships stand at the start of their lines. -/
theorem exists_blocks_merge {options : Generation.Options} {supply : Generation.Supply}
    {selection : Catalog.Selection} {relationships : List Definition.Relationship}
    {output : Generation.Output}
    (generated : Generation.IsGenerated options supply selection relationships output)
    {earlier : DefinitionSet} (distinct : HasDistinctRelationships earlier) :
    ∃ blocks,
      (merge output.definitions (.ofDefinitions earlier)).get? Path.relationships =
        relationshipText? blocks ∧
      blocks.filter (Block.hasHeader "relationship") =
        (relationshipBlocks output.definitions).map (mergeRelationship (.ofDefinitions earlier)) ++
          ((relationshipBlocks earlier).filter
            (isAdded (relationshipKeys output.definitions))).map withoutDescriptions ∧
      ((∀ block ∈ relationshipBlocks earlier, block.depth = 0) ->
        relationshipBlocks (merge output.definitions (.ofDefinitions earlier)) =
          blocks.filter (Block.hasHeader "relationship")) := by
  obtain ⟨nested, written⟩ := get?_relationships_merge generated (.ofDefinitions earlier)
  have parts := blocksWith_mergeRelationships distinct
    ⟨fileBlocks output.definitions Path.relationships, true⟩
  rw [freshKeys, Document.blocksWith, Document.blocksWith, ← relationshipBlocks_eq output.definitions,
    ← relationshipKeys] at parts
  refine ⟨_, written, parts, fun places => ?_⟩
  rw [relationshipBlocks_eq, fileBlocks_of_relationshipText? written
    (isNested_of_mem_mergeRelationships places nested)]

end Prior

end TabularModel
