import TabularModel.Proofs.Definition.Nesting

/-!
# Blocks that grow

Blocks that are written in front of others are read again in their places, but the
last of them may take in some of the others, if these stand deeper. A block that has
grown begins with the members that it had, so what was found in it first is found
there still.
-/

set_option autoImplicit false

namespace TabularModel

open Document (Entry attach nest)

namespace Block

/-- A block with the same line, and with more members behind its own. -/
structure Grows (block grown : Block) : Prop where
  line : grown.line = block.line
  members : ∃ more, grown.children.map Block.line = block.children.map Block.line ++ more

theorem Grows.refl (block : Block) : block.Grows block :=
  ⟨rfl, [], (List.append_nil _).symm⟩

variable {block grown : Block}

theorem property?_eq_findSome? (block : Block) (name : Text) :
    block.property? name =
      (block.children.map Block.line).findSome? fun line => (ofLine line).valueOf? name := by
  rw [List.findSome?_map]
  rfl

/-- A property that was there is still the first one. -/
theorem Grows.property? (grows : block.Grows grown) {name value : Text}
    (found : block.property? name = some value) : grown.property? name = some value := by
  obtain ⟨more, members⟩ := grows.members
  rw [property?_eq_findSome?] at found ⊢
  rw [members, List.findSome?_append, found, Option.some_or]

end Block

namespace Document

/-- Whether a line stands deeper than an entry. -/
def isDeeperLine (entry : Entry) (line : Text) : Bool :=
  decide (entry.depth < Block.depthOf line)

theorem map_line_takeWhile (entry : Entry) (blocks : List Block) :
    (blocks.takeWhile fun block => entry.depth < block.depth).map Block.line =
      (blocks.map Block.line).takeWhile (isDeeperLine entry) := by
  rw [List.takeWhile_map]
  rfl

theorem map_line_dropWhile (entry : Entry) (blocks : List Block) :
    (blocks.dropWhile fun block => entry.depth < block.depth).map Block.line =
      (blocks.map Block.line).dropWhile (isDeeperLine entry) := by
  rw [List.dropWhile_map]
  rfl

/-- The lines that begin blocks still do so if entries follow. -/
theorem exists_map_line_nest_append (front back : List Entry) :
    ∃ more, (nest (front ++ back)).map Block.line = (nest front).map Block.line ++ more := by
  induction front with
  | nil => exact ⟨_, rfl⟩
  | cons entry front ih =>
      obtain ⟨more, same⟩ := ih
      rw [List.cons_append, nest, nest, List.foldr_cons, List.foldr_cons, ← nest, ← nest, attach_eq,
        attach_eq, List.map_cons, List.map_cons, map_line_dropWhile, map_line_dropWhile, same,
        List.dropWhile_append]
      split
      · next none =>
          rw [List.isEmpty_iff.mp none]
          exact ⟨_, rfl⟩
      · exact ⟨more, rfl⟩

/-- What an entry takes in is what it took in without the entries that follow, and more. -/
theorem grows_toBlock_nest_append (entry : Entry) (front back : List Entry) :
    (entry.toBlock ((nest front).takeWhile fun block => entry.depth < block.depth)).Grows
      (entry.toBlock ((nest (front ++ back)).takeWhile fun block => entry.depth < block.depth)) := by
  obtain ⟨more, same⟩ := exists_map_line_nest_append front back
  refine ⟨rfl, ?_⟩
  rw [Entry.toBlock, Entry.toBlock, List.map_append, List.map_append, map_line_takeWhile,
    map_line_takeWhile, same, List.takeWhile_append]
  split
  · next whole =>
      rw [(List.takeWhile_prefix _).eq_of_length whole, ← List.append_assoc]
      exact ⟨_, rfl⟩
  · exact ⟨[], (List.append_nil _).symm⟩

/-- What is left behind an entry is not deeper than it. -/
theorem depth_le_of_mem_dropWhile {entry : Entry} {blocks : List Block}
    (descending : blocks.Pairwise fun left right => right.depth ≤ left.depth) {block : Block}
    (member : block ∈ blocks.dropWhile fun block => entry.depth < block.depth) :
    block.depth ≤ entry.depth := by
  induction blocks with
  | nil => cases member
  | cons first blocks ih =>
      obtain ⟨bound, rest⟩ := List.pairwise_cons.mp descending
      by_cases deeper : entry.depth < first.depth
      · rw [List.dropWhile_cons_of_pos (by simpa using deeper)] at member
        exact ih rest member
      · rw [List.dropWhile_cons_of_neg (by simpa using deeper)] at member
        rcases List.mem_cons.mp member with rfl | later
        · exact Nat.le_of_not_lt deeper
        · exact (bound block later).trans (Nat.le_of_not_lt deeper)

/-- Blocks of entries come from those of a front part, which may have grown, or from
those of the rest. -/
theorem exists_grows_of_mem_nest_append {front back : List Entry}
    (valid : ∀ entry ∈ front ++ back, entry.IsValid) {block : Block}
    (member : block ∈ nest (front ++ back)) :
    ∃ own ∈ nest front ++ nest back, own.Grows block := by
  induction front with
  | nil => exact ⟨block, member, .refl block⟩
  | cons entry front ih =>
      have others := fun other inside => valid other (List.mem_cons_of_mem entry inside)
      rw [List.cons_append, nest, List.foldr_cons, ← nest, attach_eq] at member
      rw [nest, List.foldr_cons, ← nest, attach_eq, List.cons_append]
      rcases List.mem_cons.mp member with rfl | later
      · exact ⟨_, List.mem_cons_self, grows_toBlock_nest_append entry front back⟩
      · obtain ⟨own, ownMember, grows⟩ := ih others ((List.dropWhile_sublist _).mem later)
        refine ⟨own, List.mem_cons_of_mem _ (List.mem_append.mpr ?_), grows⟩
        refine (List.mem_append.mp ownMember).imp_left fun inFront => ?_
        -- The block has stayed outside the entry, so its own part has as well.
        have outside := depth_le_of_mem_dropWhile (nest_isNested _ others).2 later
        rw [Block.depth, grows.line, ← Block.depth] at outside
        have parts := List.takeWhile_append_dropWhile
          (p := fun block : Block => decide (entry.depth < block.depth)) (l := nest front)
        rw [← parts] at inFront
        refine (List.mem_append.mp inFront).resolve_left fun inside => ?_
        have deeper : entry.depth < own.depth := by simpa using List.mem_takeWhile_imp inside
        omega

/-- Two lists of blocks that are written one behind the other are read as blocks that
have grown from them. -/
theorem exists_grows_of_mem_ofText {left right : List Block}
    (nested : ∀ block ∈ left ++ right, block.IsNested)
    (leftDescending : left.Pairwise fun first second => second.depth ≤ first.depth)
    (rightDescending : right.Pairwise fun first second => second.depth ≤ first.depth) {block : Block}
    (member : block ∈ (ofText (render ⟨left ++ right, true⟩)).blocks) :
    ∃ own ∈ left ++ right, own.Grows block := by
  obtain ⟨front, frontSpells, first⟩ := Block.exists_spells left
    (fun block inside => nested block (List.mem_append_left _ inside)) leftDescending
  obtain ⟨back, backSpells, second⟩ := Block.exists_spells right
    (fun block inside => nested block (List.mem_append_right _ inside)) rightDescending
  have spells := frontSpells.append backSpells
  by_cases nonempty : left ++ right = []
  · rw [nonempty] at member
    cases member
  · rw [spells.ofText_render nonempty] at member
    obtain ⟨own, inside, grows⟩ := exists_grows_of_mem_nest_append spells.valid member
    rw [first, second] at inside
    exact ⟨own, inside, grows⟩

end Document

end TabularModel
