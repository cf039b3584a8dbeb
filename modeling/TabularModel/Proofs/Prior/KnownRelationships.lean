import TabularModel.Proofs.Prior.Relationships

/-!
# Relationships over regenerations

What an earlier set knows of relationships is what its blocks say, apart from
their positions; of several blocks with one key the last counts. A merge gives
fresh relationships the names that they had, and puts those that people have
added behind them. The blocks that it writes are known again in their order, so
that another merge writes the same ones.
-/

set_option autoImplicit false

namespace TabularModel

namespace Prior

/-! ## What is known -/

/-- A relationship apart from its position. -/
def Relationship.unplaced (relationship : Relationship) : Relationship :=
  { relationship with position := 0 }

/-- The relationship that a block gives. -/
def known? (block : Block) : Option Relationship :=
  (readRelationship 0 block).toOption

def addKnown (known : List Relationship) (relationship : Relationship) :
    List Relationship :=
  known.filter (·.key != relationship.key) ++ [relationship]

def knownAmong (blocks : List Block) : List Relationship :=
  (blocks.filterMap known?).foldl addKnown []

theorem known?_eq (position : Nat) (block : Block) :
    known? block = (readRelationship position block).toOption.map Relationship.unplaced := by
  rw [known?, readRelationship, readRelationship]
  cases relationshipKey? block <;> rfl

theorem map_unplaced_addKnown (known : List Relationship) (relationship : Relationship) :
    (addKnown known relationship).map Relationship.unplaced =
      addKnown (known.map Relationship.unplaced) relationship.unplaced := by
  rw [addKnown, addKnown, List.map_append, List.filter_map]
  rfl

theorem relationships_addRelationship (path : Text) (model : Model)
    (relationship : Relationship) :
    (Model.addRelationship path model (.ok relationship)).relationships =
      addKnown model.relationships relationship := by
  rw [Model.addRelationship]
  split <;> rfl

/-- Blocks are entered one by one. -/
theorem map_unplaced_foldl_addRelationship (path : Text) (blocks : List Block) (number : Nat -> Nat)
    (model : Model) :
    ((blocks.mapIdx fun position => readRelationship (number position)).foldl
        (Model.addRelationship path) model).relationships.map Relationship.unplaced =
      (blocks.filterMap known?).foldl addKnown (model.relationships.map Relationship.unplaced) := by
  induction blocks generalizing number model with
  | nil => rfl
  | cons block blocks ih =>
      rw [List.mapIdx_cons, List.foldl_cons, ih (fun position => number (position + 1)),
        List.filterMap_cons, known?_eq (number 0) block]
      cases readRelationship (number 0) block with
      | error name => rfl
      | ok relationship =>
          rw [relationships_addRelationship, map_unplaced_addKnown]
          rfl

/-- The relationships of a definition set are those of the file of relationships. -/
theorem map_unplaced_relationships (definitions : DefinitionSet) :
    (Model.ofDefinitions definitions).relationships.map Relationship.unplaced =
      (definitions.get? Path.relationships).elim [] fun text =>
        knownAmong ((Document.ofText text).blocksWith "relationship") := by
  have path : Path.isInTablesFolder Path.relationships = false := by decide
  have added (model : Model) (text : Text) :
      (model.addFile Path.relationships text).relationships.map Relationship.unplaced =
        (((Document.ofText text).blocksWith "relationship").filterMap known?).foldl addKnown
          (model.relationships.map Relationship.unplaced) := by
    rw [Model.addFile, path, if_neg Bool.false_ne_true, if_pos rfl, Model.addRelationships]
    exact map_unplaced_foldl_addRelationship _ _ id model
  have parts := Model.part_ofDefinitions
    (fun model => model.relationships.map Relationship.unplaced) Path.relationships ?_ ?_ definitions
  · simp only [added] at parts
    exact parts
  · intro model other text different
    rw [Model.addFile]
    split
    · rw [(Model.others_addTables _ _ model).1]
    · split
      · rfl
      · rfl
  · intro left right text same
    rw [added, added, same]

/-! ## Invariants -/

/-- What is known has been read from nested blocks, and under different keys. -/
structure AreKnown (known : List Relationship) : Prop where
  read : ∀ relationship ∈ known, known? relationship.block = some relationship
  nested : ∀ relationship ∈ known, relationship.block.IsNested ∧ relationship.block.depth = 0 ∧
    relationship.block.hasHeader "relationship" = true
  distinct : (known.map (·.key)).Nodup

theorem mem_of_mem_foldl_addKnown {more known : List Relationship}
    {relationship : Relationship} (member : relationship ∈ more.foldl addKnown known) :
    relationship ∈ known ∨ relationship ∈ more := by
  induction more generalizing known with
  | nil => exact Or.inl member
  | cons first more ih =>
      rcases ih member with added | later
      · rcases List.mem_append.mp added with kept | same
        · exact Or.inl (List.mem_of_mem_filter kept)
        · exact Or.inr (List.mem_singleton.mp same ▸ List.mem_cons_self)
      · exact Or.inr (List.mem_cons_of_mem first later)

theorem nodup_keys_foldl_addKnown {more known : List Relationship}
    (distinct : (known.map (·.key)).Nodup) : ((more.foldl addKnown known).map (·.key)).Nodup := by
  induction more generalizing known with
  | nil => exact distinct
  | cons first more ih =>
      refine ih ?_
      rw [addKnown, List.map_append, List.nodup_append]
      refine ⟨distinct.sublist (List.filter_sublist.map _), by simp, ?_⟩
      intro key keyMember other otherMember same
      obtain ⟨relationship, inside, rfl⟩ := List.mem_map.mp keyMember
      have different := (List.mem_filter.mp inside).2
      have sameKey : other = first.key := by simpa using otherMember
      rw [same, sameKey] at different
      simp at different

/-- Relationships under different keys are all known, in their order. -/
theorem foldl_addKnown_of_distinct {more known : List Relationship}
    (distinct : ((known ++ more).map (·.key)).Nodup) : more.foldl addKnown known = known ++ more := by
  induction more generalizing known with
  | nil => rw [List.append_nil]; rfl
  | cons first more ih =>
      have kept : known.filter (·.key != first.key) = known := by
        rw [List.filter_eq_self]
        intro relationship member
        rw [List.map_append, List.nodup_append] at distinct
        have different := distinct.2.2 relationship.key (List.mem_map.mpr ⟨_, member, rfl⟩)
          first.key (List.mem_map.mpr ⟨first, List.mem_cons_self, rfl⟩)
        simpa using different
      rw [List.foldl_cons, addKnown, kept, ih (by simpa using distinct), List.append_assoc]
      rfl

theorem block_of_known? {block : Block} {relationship : Relationship}
    (read : known? block = some relationship) :
    relationship.block = block ∧ relationshipKey? block = some relationship.key ∧
      relationship.name = (block.header? "relationship").getD [] ∧
      relationship.isGenerated = (block.children.findSome? mark?).isSome := by
  rw [known?, readRelationship] at read
  cases key : relationshipKey? block with
  | none =>
      rw [key] at read
      cases read
  | some found =>
      rw [key] at read
      cases read
      exact ⟨rfl, rfl, rfl, any_annotationsOf block⟩

/-- What is read from nested blocks can be written again. -/
theorem areKnown_knownAmong {blocks : List Block}
    (each : ∀ block ∈ blocks, (block.IsNested ∧ block.depth = 0) ∧
      block.hasHeader "relationship" = true) : AreKnown (knownAmong blocks) := by
  have origin : ∀ relationship ∈ knownAmong blocks,
      relationship.block ∈ blocks ∧ known? relationship.block = some relationship := by
    intro relationship member
    rcases mem_of_mem_foldl_addKnown member with none | read
    · cases none
    · obtain ⟨block, inside, known⟩ := List.mem_filterMap.mp read
      rw [(block_of_known? known).1]
      exact ⟨inside, known⟩
  refine ⟨fun relationship member => (origin relationship member).2, ?_,
    nodup_keys_foldl_addKnown (by simp)⟩
  intro relationship member
  obtain ⟨⟨nested, depth⟩, header⟩ := each _ (origin relationship member).1
  exact ⟨nested, depth, header⟩

/-- Whatever an orderly set holds, its relationships can be written again. -/
theorem areKnown_ofDefinitions {definitions : DefinitionSet} (orderly : IsOrderly definitions) :
    AreKnown ((Model.ofDefinitions definitions).relationships.map Relationship.unplaced) := by
  rw [map_unplaced_relationships]
  cases found : definitions.get? Path.relationships with
  | none => exact ⟨by simp, by simp, List.nodup_nil⟩
  | some text =>
      refine areKnown_knownAmong fun block inside => ?_
      obtain ⟨root, header⟩ := List.mem_filter.mp inside
      exact ⟨⟨Document.isNested_of_mem_ofText root
          (Block.allBlank_of_hasHeader (by decide) header)
          (Block.not_isDoc_of_hasHeader ⟨by decide, by decide⟩ header),
        orderly.relationships text found block inside⟩, header⟩

/-! ## Merging -/

/-- The name under which a relationship is known. -/
def nameOf? (known : List Relationship) (key : RelationshipKey) : Option Text :=
  (known.find? (·.key == key)).map (·.name)

/-- Whether a relationship stays behind fresh ones with the given keys. -/
def isKept (keys : List RelationshipKey) (relationship : Relationship) : Bool :=
  !keys.contains relationship.key && !relationship.key.isCalendar && !relationship.isGenerated

def keptBlocks (known : List Relationship) (keys : List RelationshipKey) : List Block :=
  (known.filter (isKept keys)).map fun relationship => withoutDescriptions relationship.block

def namedBlocks (known : List Relationship) (tag : Nat -> Text)
    (relationships : List Definition.Relationship) : List Block :=
  relationships.mapIdx fun position relationship =>
    relationship.block ((nameOf? known relationship.key).getD (tag position))

/-- The blocks of a merged file. -/
def mergedBlocks (known : List Relationship) (tag : Nat -> Text)
    (relationships : List Definition.Relationship) : List Block :=
  namedBlocks known tag relationships ++ keptBlocks known (relationships.map Definition.Relationship.key)

theorem map_mapIdx_of_eq {α β γ : Type} {change : Nat -> α -> β} {after : β -> γ}
    {whole : Nat -> α -> γ} (elements : List α)
    (each : ∀ position, ∀ element ∈ elements,
      after (change position element) = whole position element) :
    (elements.mapIdx change).map after = elements.mapIdx whole := by
  induction elements generalizing change whole with
  | nil => rfl
  | cons element elements ih =>
      rw [List.mapIdx_cons, List.mapIdx_cons, List.map_cons, each 0 element List.mem_cons_self]
      congr 1
      exact ih fun position other member =>
        each (position + 1) other (List.mem_cons_of_mem element member)

theorem filterMap_mapIdx_of_eq {α β γ : Type} {change : Nat -> α -> β} {read : β -> Option γ}
    {value : Nat -> α -> γ} (items : List α)
    (each : ∀ position, ∀ item ∈ items, read (change position item) = some (value position item)) :
    (items.mapIdx change).filterMap read = items.mapIdx value := by
  induction items generalizing change value with
  | nil => rfl
  | cons item items ih =>
      rw [List.mapIdx_cons, List.filterMap_cons_some (each 0 item List.mem_cons_self),
        List.mapIdx_cons]
      congr 1
      exact ih fun position other member =>
        each (position + 1) other (List.mem_cons_of_mem item member)

theorem filterMap_mapIdx_of_some {α β γ : Type} {change : Nat -> α -> β} {read : β -> Option γ}
    {value : α -> γ} (elements : List α)
    (each : ∀ position, ∀ element ∈ elements, read (change position element) = some (value element)) :
    (elements.mapIdx change).filterMap read = elements.map value := by
  have placed : (elements.mapIdx change).filterMap read = elements.mapIdx fun _ => value :=
    filterMap_mapIdx_of_eq elements each
  exact placed.trans (List.ext_getElem (by simp) (by simp))

variable {relationships : List Definition.Relationship}

theorem map_name_relationship? (earlier : Model) (key : RelationshipKey) :
    (earlier.relationship? key).map (·.name) =
      nameOf? (earlier.relationships.map Relationship.unplaced) key := by
  rw [nameOf?, List.find?_map, Option.map_map]
  rfl

/-- A fresh relationship gets the name under which it is known. -/
theorem mergeRelationship_block (earlier : Model) {relationship : Definition.Relationship}
    (ends : relationship.HasEnds) (name : Text) :
    mergeRelationship earlier (relationship.block name) =
      relationship.block ((nameOf? (earlier.relationships.map Relationship.unplaced)
        relationship.key).getD name) := by
  rw [mergeRelationship, relationship.relationshipKey?_block ends, Option.bind_some,
    ← map_name_relationship?]
  cases earlier.relationship? relationship.key with
  | none => rfl
  | some known =>
      have line : ("relationship " : Text) ++ known.name = "relationship" ++ ' ' :: known.name := rfl
      simp only [line]
      rfl

/-- Where a relationship stood does not matter for whether it is kept. -/
theorem map_block_userRelationships (earlier : Model) (keys : List RelationshipKey) :
    ((earlier.userRelationships keys).map fun added => withoutDescriptions added.block) =
      keptBlocks (earlier.relationships.map Relationship.unplaced) keys := by
  rw [Model.userRelationships, keptBlocks, List.filter_map, List.map_map]
  rfl

/-- The merged blocks are the fresh ones under their names and those that are
kept. -/
theorem mergeRelationships_blocks (earlier : Model) {tag : Nat -> Text}
    (trimmed : ∀ position, Text.IsTrimmed (tag position))
    (ends : ∀ relationship ∈ relationships, relationship.HasEnds) :
    mergeRelationships earlier
        ⟨relationships.mapIdx fun position relationship => relationship.block (tag position), true⟩ =
      ⟨mergedBlocks (earlier.relationships.map Relationship.unplaced) tag relationships, true⟩ := by
  have header (position : Nat) (relationship : Definition.Relationship) :
      (relationship.block (tag position)).hasHeader "relationship" = true := by
    rw [Block.hasHeader, relationship.header?_block (trimmed position)]
    rfl
  have blocks : Document.blocksWith ⟨relationships.mapIdx fun position relationship =>
      relationship.block (tag position), true⟩ "relationship" =
      relationships.mapIdx fun position relationship => relationship.block (tag position) := by
    refine List.filter_eq_self.mpr fun block member => ?_
    obtain ⟨position, inside, rfl⟩ := List.mem_mapIdx.mp member
    exact header position _
  have keys : freshKeys ⟨relationships.mapIdx fun position relationship =>
      relationship.block (tag position), true⟩ = relationships.map Definition.Relationship.key := by
    rw [freshKeys, blocks]
    exact filterMap_mapIdx_of_some _ fun position relationship member =>
      relationship.relationshipKey?_block (ends relationship member) _
  have named : (relationships.mapIdx fun position relationship =>
      relationship.block (tag position)).map (fun block =>
        if block.hasHeader "relationship" then mergeRelationship earlier block else block) =
      namedBlocks (earlier.relationships.map Relationship.unplaced) tag relationships := by
    refine map_mapIdx_of_eq _ fun position relationship member => ?_
    rw [header, if_pos rfl, mergeRelationship_block earlier (ends relationship member)]
  rw [mergeRelationships, keys, map_block_userRelationships, Document.changeWith]
  simp only [named]
  rfl

/-! ## Merged blocks are known again -/

theorem exists_known? {block : Block} {key : RelationshipKey}
    (read : relationshipKey? block = some key) :
    ∃ relationship, known? block = some relationship ∧ relationship.key = key := by
  rw [known?, readRelationship, read]
  exact ⟨_, rfl, rfl⟩

theorem map_key_known? (block : Block) : (known? block).map (·.key) = relationshipKey? block := by
  cases read : relationshipKey? block with
  | none =>
      rw [known?, readRelationship, read]
      rfl
  | some key =>
      obtain ⟨relationship, known, same⟩ := exists_known? read
      rw [known, Option.map_some, same]

/-- Under different keys a relationship is found under its own one. -/
theorem find?_of_nodup {known : List Relationship} (distinct : (known.map (·.key)).Nodup)
    {relationship : Relationship} (member : relationship ∈ known) :
    known.find? (·.key == relationship.key) = some relationship := by
  induction known with
  | nil => cases member
  | cons first known ih =>
      rw [List.map_cons, List.nodup_cons] at distinct
      rcases List.mem_cons.mp member with rfl | later
      · rw [List.find?_cons_of_pos (by simp)]
      · have different : (first.key == relationship.key) = false := by
          by_contra same
          have sameKey : first.key = relationship.key := by simpa using same
          exact distinct.1 (List.mem_map.mpr ⟨relationship, later, sameKey.symm⟩)
        rw [List.find?_cons]
        simp only [different, ih distinct.2 later]

variable {known : List Relationship} {tag : Nat -> Text}

/-- The names that a merge gives are trimmed and stand on one line. -/
theorem isTrimmed_name (areKnown : AreKnown known)
    (tags : ∀ position, IsTag (tag position)) (position : Nat) (key : RelationshipKey) :
    Text.IsTrimmed ((nameOf? known key).getD (tag position)) ∧
      Text.IsSingleLine ((nameOf? known key).getD (tag position)) := by
  rw [nameOf?]
  cases found : known.find? (·.key == key) with
  | none =>
      exact ⟨Text.isTrimmed_of_noBlank _ (tags position).visible, (tags position).isSingleLine⟩
  | some relationship =>
      have member := List.mem_of_find?_eq_some found
      obtain ⟨nested, _, header⟩ := areKnown.nested relationship member
      obtain ⟨_, _, name, _⟩ := block_of_known? (areKnown.read relationship member)
      obtain ⟨value, read⟩ := Option.isSome_iff_exists.mp header
      rw [read, Option.getD_some] at name
      rw [Option.map_some, Option.getD_some, name]
      exact Block.header?_eq_some read nested.header.single

/-- Fresh relationships that can be told apart. -/
structure AreApart (relationships : List Definition.Relationship) : Prop where
  ends : ∀ relationship ∈ relationships, relationship.HasEnds
  distinct : (relationships.map Definition.Relationship.key).Nodup

theorem relationshipKey?_kept (areKnown : AreKnown known) {relationship : Relationship}
    (member : relationship ∈ known) :
    relationshipKey? (withoutDescriptions relationship.block) = some relationship.key := by
  rw [relationshipKey?_withoutDescriptions,
    (block_of_known? (areKnown.read relationship member)).2.1]

/-- The merged blocks have different keys. -/
theorem nodup_keys_mergedBlocks (areKnown : AreKnown known) (apart : AreApart relationships) :
    (((mergedBlocks known tag relationships).filterMap known?).map (·.key)).Nodup := by
  have named : (namedBlocks known tag relationships).filterMap relationshipKey? =
      relationships.map Definition.Relationship.key :=
    filterMap_mapIdx_of_some _ fun position relationship member =>
      relationship.relationshipKey?_block (apart.ends relationship member) _
  have kept : (keptBlocks known (relationships.map Definition.Relationship.key)).filterMap
      relationshipKey? =
      (known.filter (isKept (relationships.map Definition.Relationship.key))).map (·.key) := by
    rw [keptBlocks, List.filterMap_map]
    refine (List.filterMap_congr fun relationship member => ?_).trans
      (congrFun List.filterMap_eq_map _)
    exact relationshipKey?_kept areKnown (List.mem_of_mem_filter member)
  have keys (blocks : List Block) : (blocks.filterMap known?).map (·.key) =
      blocks.filterMap relationshipKey? := by
    rw [List.map_filterMap]
    exact List.filterMap_congr fun block _ => map_key_known? block
  rw [keys, mergedBlocks, List.filterMap_append, named, kept, List.nodup_append]
  refine ⟨apart.distinct, areKnown.distinct.sublist (List.filter_sublist.map _), ?_⟩
  intro key keyMember other otherMember same
  obtain ⟨relationship, inside, rfl⟩ := List.mem_map.mp otherMember
  have stays := (List.mem_filter.mp inside).2
  rw [isKept, Bool.and_eq_true, Bool.and_eq_true, ← same] at stays
  have fresh := List.contains_iff_mem.mpr keyMember
  rw [fresh] at stays
  exact Bool.noConfusion stays.1.1

theorem knownAmong_mergedBlocks (areKnown : AreKnown known) (apart : AreApart relationships) :
    knownAmong (mergedBlocks known tag relationships) =
      (mergedBlocks known tag relationships).filterMap known? :=
  foldl_addKnown_of_distinct (nodup_keys_mergedBlocks areKnown apart)

/-- Fresh relationships keep the names that a merge gave them. -/
theorem namedBlocks_again (areKnown : AreKnown known) (apart : AreApart relationships)
    (tags : ∀ position, IsTag (tag position)) (other : Nat -> Text) :
    namedBlocks (knownAmong (mergedBlocks known tag relationships)) other relationships =
      namedBlocks known tag relationships := by
  rw [namedBlocks, namedBlocks, List.mapIdx_eq_mapIdx_iff]
  intro position inside
  have member : relationships[position] ∈ relationships := List.getElem_mem inside
  have written : relationships[position].block
      ((nameOf? known relationships[position].key).getD (tag position)) ∈
      mergedBlocks known tag relationships :=
    List.mem_append_left _ (List.mem_mapIdx.mpr ⟨position, inside, rfl⟩)
  obtain ⟨relationship, read, sameKey⟩ := exists_known?
    (relationships[position].relationshipKey?_block (apart.ends _ member)
      ((nameOf? known relationships[position].key).getD (tag position)))
  have found := find?_of_nodup (nodup_keys_mergedBlocks areKnown apart)
    (List.mem_filterMap.mpr ⟨_, written, read⟩)
  have name : relationship.name =
      (nameOf? known relationships[position].key).getD (tag position) := by
    rw [(block_of_known? read).2.2.1, relationships[position].header?_block
      (isTrimmed_name areKnown tags position _).1, Option.getD_some]
  have again : nameOf? (knownAmong (mergedBlocks known tag relationships))
      relationships[position].key = some relationship.name := by
    rw [knownAmong_mergedBlocks areKnown apart, nameOf?, ← sameKey, found, Option.map_some]
  rw [again, Option.getD_some, name]

/-- A block that is kept gives a relationship that is kept again, with the same
block. -/
theorem exists_known?_kept (areKnown : AreKnown known) {relationship : Relationship}
    (member : relationship ∈ known) {keys : List RelationshipKey}
    (stays : isKept keys relationship = true) :
    ∃ again, known? (withoutDescriptions relationship.block) = some again ∧
      isKept keys again = true ∧
      withoutDescriptions again.block = withoutDescriptions relationship.block := by
  obtain ⟨again, read, sameKey⟩ := exists_known? (relationshipKey?_kept areKnown member)
  obtain ⟨block, _, _, generated⟩ := block_of_known? read
  have sameMark : again.isGenerated = relationship.isGenerated := by
    rw [generated, mark?_withoutDescriptions,
      (block_of_known? (areKnown.read relationship member)).2.2.2]
  refine ⟨again, read, ?_, ?_⟩
  · rw [isKept, sameKey, sameMark]
    exact stays
  · rw [block, withoutDescriptions_withoutDescriptions]

theorem filter_isKept_namedBlocks (apart : AreApart relationships) :
    ((namedBlocks known tag relationships).filterMap known?).filter
      (isKept (relationships.map Definition.Relationship.key)) = [] := by
  rw [List.filter_eq_nil_iff]
  intro relationship member
  obtain ⟨block, inside, read⟩ := List.mem_filterMap.mp member
  obtain ⟨position, bound, rfl⟩ := List.mem_mapIdx.mp inside
  have fresh : relationships[position] ∈ relationships := List.getElem_mem bound
  have key := (block_of_known? read).2.1
  rw [relationships[position].relationshipKey?_block (apart.ends _ fresh)] at key
  have contained : (relationships.map Definition.Relationship.key).contains relationship.key = true :=
    List.contains_iff_mem.mpr (List.mem_map.mpr ⟨_, fresh, Option.some.inj key⟩)
  rw [isKept, contained]
  exact Bool.false_ne_true

/-- What was kept is kept again. -/
theorem keptBlocks_again (areKnown : AreKnown known) (apart : AreApart relationships) :
    keptBlocks (knownAmong (mergedBlocks known tag relationships))
        (relationships.map Definition.Relationship.key) =
      keptBlocks known (relationships.map Definition.Relationship.key) := by
  have again (kept : List Relationship) (keys : List RelationshipKey)
      (each : ∀ relationship ∈ kept, relationship ∈ known ∧ isKept keys relationship = true) :
      ((((kept.map fun relationship => withoutDescriptions relationship.block).filterMap
        known?).filter (isKept keys)).map fun relationship =>
          withoutDescriptions relationship.block) =
        kept.map fun relationship => withoutDescriptions relationship.block := by
    induction kept with
    | nil => rfl
    | cons relationship kept ih =>
        obtain ⟨member, stays⟩ := each relationship List.mem_cons_self
        obtain ⟨found, read, kept, same⟩ := exists_known?_kept areKnown member stays
        rw [List.map_cons, List.filterMap_cons_some read, List.filter_cons_of_pos kept, List.map_cons,
          same, ih fun other inside => each other (List.mem_cons_of_mem relationship inside)]
  rw [knownAmong_mergedBlocks areKnown apart, mergedBlocks, List.filterMap_append, keptBlocks,
    List.filter_append, filter_isKept_namedBlocks apart, List.nil_append, keptBlocks]
  exact again _ _ fun relationship member => List.mem_filter.mp member

/-- The blocks of a merged file are reached again by a merge with what is known
from them. -/
theorem mergedBlocks_again (areKnown : AreKnown known) (apart : AreApart relationships)
    (tags : ∀ position, IsTag (tag position)) (other : Nat -> Text) :
    mergedBlocks (knownAmong (mergedBlocks known tag relationships)) other relationships =
      mergedBlocks known tag relationships := by
  rw [mergedBlocks, namedBlocks_again areKnown apart tags, keptBlocks_again areKnown apart]
  rfl

end Prior

end TabularModel
