import TabularModel.Generation.Definitions
import TabularModel.Proofs.Prior.KnownRelationships

/-!
# The file of relationships over regenerations

The file of relationships is read as the blocks that were written into it, and
is left out if there are none. A merge with a set that holds the merged blocks
writes them again, whether or not the fresh set has a file of its own.
-/

set_option autoImplicit false

namespace TabularModel

open Prior (AreKnown IsTag Relationship knownAmong mergedBlocks)

theorem Document.render_eq_nil_iff (blocks : List Block) :
    Document.render ⟨blocks, true⟩ = [] ↔ blocks = [] := by
  rw [render, if_pos rfl, Document.lines, ← linesOfEach_eq_nil_iff]
  cases Block.linesOfEach blocks <;> simp [Block.textOfLines]

namespace Prior

/-- The relationships of a definition set, apart from their positions. -/
def knownOf (definitions : DefinitionSet) : List Relationship :=
  (Model.ofDefinitions definitions).relationships.map Relationship.unplaced

/-- The file of relationships with the given blocks, if there are any. -/
def relationshipText? (blocks : List Block) : Option Text :=
  if blocks.isEmpty then none else some (Document.render ⟨blocks, true⟩)

variable {known : List Relationship} {tag : Nat -> Text}
variable {relationships : List Definition.Relationship}

/-! ## Reading merged blocks -/

theorem isNested_of_mem_mergedBlocks (areKnown : AreKnown known)
    (ends : ∀ relationship ∈ relationships, relationship.HasEnds)
    (tags : ∀ position, IsTag (tag position)) :
    ∀ block ∈ mergedBlocks known tag relationships,
      (block.IsNested ∧ block.depth = 0) ∧ block.hasHeader "relationship" = true := by
  intro block member
  rcases List.mem_append.mp member with named | kept
  · obtain ⟨position, inside, rfl⟩ := List.mem_mapIdx.mp named
    obtain ⟨trimmed, single⟩ :=
      isTrimmed_name areKnown tags position relationships[position].key
    refine ⟨Definition.Relationship.isNested_block
      (ends _ (List.getElem_mem inside)) single, ?_⟩
    rw [Block.hasHeader, relationships[position].header?_block trimmed]
    rfl
  · obtain ⟨relationship, inside, rfl⟩ := List.mem_map.mp kept
    obtain ⟨nested, depth, header⟩ :=
      areKnown.nested relationship (List.mem_of_mem_filter inside)
    exact ⟨⟨isNested_withoutDescriptions nested, depth⟩, header⟩

theorem relationshipsDocument_render (areKnown : AreKnown known)
    (ends : ∀ relationship ∈ relationships, relationship.HasEnds)
    (tags : ∀ position, IsTag (tag position)) :
    relationshipsDocument (Document.render ⟨mergedBlocks known tag relationships, true⟩) =
      ⟨mergedBlocks known tag relationships, true⟩ := by
  have each := isNested_of_mem_mergedBlocks areKnown ends tags
  by_cases none : mergedBlocks known tag relationships = []
  · rw [none]
    rfl
  · rw [relationshipsDocument, if_neg fun absent => none ((Document.render_eq_nil_iff _).mp absent)]
    exact Document.ofText_render_of_level none fun block member => (each block member).1

theorem blocksWith_relationshipsDocument (text keyword : Text) :
    (relationshipsDocument text).blocksWith keyword = (Document.ofText text).blocksWith keyword := by
  rw [relationshipsDocument]
  split
  · next empty =>
      rw [empty]
      rfl
  · rfl

/-- A set with the merged file knows what is said by the merged blocks. -/
theorem knownOf_of_get? (areKnown : AreKnown known)
    (ends : ∀ relationship ∈ relationships, relationship.HasEnds)
    (tags : ∀ position, IsTag (tag position)) {definitions : DefinitionSet}
    (written : definitions.get? Path.relationships =
      relationshipText? (mergedBlocks known tag relationships)) :
    knownOf definitions = knownAmong (mergedBlocks known tag relationships) := by
  rw [knownOf, map_unplaced_relationships, written, relationshipText?]
  split
  · next none =>
      rw [List.isEmpty_iff.mp none]
      rfl
  · rw [Option.elim_some, ← blocksWith_relationshipsDocument,
      relationshipsDocument_render areKnown ends tags, Document.blocksWith,
      List.filter_eq_self.mpr]
    exact fun block member => (isNested_of_mem_mergedBlocks areKnown ends tags block member).2

/-! ## Merging the file -/

theorem areKnown_nil : AreKnown [] := ⟨by simp, by simp, List.nodup_nil⟩

theorem mergedBlocks_nil (tag : Nat -> Text) (relationships : List Definition.Relationship) :
    mergedBlocks [] tag relationships =
      relationships.mapIdx fun position relationship => relationship.block (tag position) :=
  List.append_nil _

theorem linesOfEach_mapIdx (relationships : List Definition.Relationship) (tag : Nat -> Text) :
    ((relationships.mapIdx fun position relationship =>
      relationship.lines (tag position)).flatten).map Line.render =
      Block.linesOfEach (relationships.mapIdx fun position relationship =>
        relationship.block (tag position)) := by
  induction relationships generalizing tag with
  | nil => rfl
  | cons relationship relationships ih =>
      rw [List.mapIdx_cons, List.mapIdx_cons, List.flatten_cons, List.map_append,
        relationship.map_render_lines, ih fun position => tag (position + 1), Block.linesOfEach]

/-- The fresh file holds the fresh blocks. -/
theorem fileText_relationshipLines (supply : Generation.Supply)
    (relationships : List Definition.Relationship) :
    Line.fileText (Generation.relationshipLines supply relationships) =
      Document.render ⟨mergedBlocks [] (fun position => supply (.relationship position))
        relationships, true⟩ := by
  rw [Line.fileText_eq, Generation.relationshipLines, mergedBlocks_nil,
    linesOfEach_mapIdx relationships fun position => supply (.relationship position)]
  rfl

variable {supply : Generation.Supply}

theorem mergeFile_relationships (ends : ∀ relationship ∈ relationships, relationship.HasEnds)
    (tags : ∀ position, IsTag (supply (.relationship position))) (earlier : DefinitionSet) :
    mergeFile (.ofDefinitions earlier) Path.relationships
        (Line.fileText (Generation.relationshipLines supply relationships)) =
      Document.render ⟨mergedBlocks (knownOf earlier) (fun position => supply (.relationship position))
        relationships, true⟩ := by
  have path : Path.isInTablesFolder Path.relationships = false := by decide
  have trimmed (position : Nat) : Text.IsTrimmed (supply (.relationship position)) :=
    Text.isTrimmed_of_noBlank _ (tags position).visible
  rw [mergeFile, path, if_neg Bool.false_ne_true, if_pos rfl, fileText_relationshipLines,
    relationshipsDocument_render areKnown_nil ends tags, mergedBlocks_nil,
    mergeRelationships_blocks _ trimmed ends]
  rfl

/-- The file that is added to fresh definitions without relationships. -/
theorem mergeRelationships_empty (tag : Nat -> Text) (earlier : DefinitionSet) :
    mergeRelationships (.ofDefinitions earlier) .empty =
      ⟨mergedBlocks (knownOf earlier) tag [], true⟩ :=
  @mergeRelationships_blocks [] _ (fun _ => []) (fun _ => rfl) (by simp)

end Prior

end TabularModel
