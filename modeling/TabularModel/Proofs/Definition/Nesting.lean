import TabularModel.Proofs.Definition.Grouping

/-!
# Nesting entries into blocks

Entries are nested into blocks from the last to the first, and an entry takes
the deeper blocks behind it as its children. A nested block holds only deeper
blocks, none of them deeper than the one before it. Every block that is read
from a text is nested, and the lines of nested blocks are read as these blocks
again.

Where all entries stand at some depth or deeper, those at that depth begin the
blocks, and each block holds what stands deeper behind its entry.
-/

set_option autoImplicit false

namespace TabularModel

open Document (Entry attach blocksOfLines group IsHeaderLine)

namespace Document

/-- The block that an entry begins, with the given blocks inside. -/
def Entry.toBlock (entry : Entry) (kids : List Block) : Block :=
  ⟨entry.docs, entry.line, entry.blanks.map Block.ofLine ++ kids⟩

/-- The blocks of a list of entries. -/
def nest (entries : List Entry) : List Block :=
  entries.foldr attach []

end Document

open Document (nest)

namespace Block

theorem linesOfEach_append (left right : List Block) :
    linesOfEach (left ++ right) = linesOfEach left ++ linesOfEach right := by
  induction left with
  | nil => rfl
  | cons block left ih => rw [List.cons_append, linesOfEach, linesOfEach, ih, List.append_assoc]

theorem linesOfEach_map_ofLine (lines : List Text) : linesOfEach (lines.map ofLine) = lines := by
  induction lines with
  | nil => rfl
  | cons line lines ih =>
      rw [List.map_cons, linesOfEach, ih, ofLine, Block.lines, linesOfEach]
      rfl

theorem lines_toBlock (entry : Entry) (kids : List Block) :
    (entry.toBlock kids).lines = entry.lines ++ linesOfEach kids := by
  rw [Entry.toBlock, Block.lines, linesOfEach_append, linesOfEach_map_ofLine, Entry.lines]
  simp

theorem depth_toBlock (entry : Entry) (kids : List Block) :
    (entry.toBlock kids).depth = entry.depth := rfl

/-- A block as it is read: its lines are each of their kind, and the blocks
inside are deeper than it and do not get deeper from one to the next. -/
inductive IsNested : Block -> Prop where
  | intro (entry : Entry) (kids : List Block) (valid : entry.IsValid)
      (deeper : ∀ kid ∈ kids, entry.depth < kid.depth)
      (descending : kids.Pairwise fun left right => right.depth ≤ left.depth)
      (nested : ∀ kid ∈ kids, IsNested kid) : IsNested (entry.toBlock kids)

/-- The line of a nested block begins a block. -/
theorem IsNested.header {block : Block} (nested : block.IsNested) : IsHeaderLine block.line := by
  cases nested with
  | intro entry kids valid deeper descending each => exact valid.line

end Block

namespace Document

/-- The entries of a list of blocks, one after the other. -/
structure Spells (entries : List Entry) (blocks : List Block) : Prop where
  valid : ∀ entry ∈ entries, entry.IsValid
  lines : Block.linesOfEach blocks = entries.flatMap Entry.lines

namespace Spells

theorem nil : Spells [] [] := ⟨by simp, rfl⟩

theorem append {front back : List Entry} {left right : List Block} (first : Spells front left)
    (second : Spells back right) : Spells (front ++ back) (left ++ right) := by
  refine ⟨?_, ?_⟩
  · intro entry member
    rcases List.mem_append.mp member with member | member
    · exact first.valid entry member
    · exact second.valid entry member
  · rw [Block.linesOfEach_append, List.flatMap_append, first.lines, second.lines]

theorem toBlock {entry : Entry} {inner : List Entry} {kids : List Block} (valid : entry.IsValid)
    (inside : Spells inner kids) : Spells (entry :: inner) [entry.toBlock kids] := by
  refine ⟨?_, ?_⟩
  · intro other member
    rcases List.mem_cons.mp member with rfl | member
    · exact valid
    · exact inside.valid other member
  · rw [Block.linesOfEach, Block.linesOfEach, List.append_nil, Block.lines_toBlock, inside.lines,
      List.flatMap_cons]

theorem lines_single {entries : List Entry} {blocks : List Block} (spells : Spells entries blocks) :
    ∀ line ∈ Block.linesOfEach blocks, Text.IsSingleLine line := by
  intro line member
  rw [spells.lines] at member
  obtain ⟨entry, entryMember, member⟩ := List.mem_flatMap.mp member
  exact Entry.lines_single (spells.valid entry entryMember) line member

/-- The lines of blocks are read by nesting their entries. -/
theorem blocksOfLines {entries : List Entry} {blocks : List Block}
    (spells : Spells entries blocks) :
    Document.blocksOfLines (Block.linesOfEach blocks) = nest entries := by
  rw [Document.blocksOfLines, spells.lines, group_flatMap_lines entries spells.valid]
  simp [nest]

end Spells

/-! ## Attaching in front of several blocks -/

theorem takeWhile_append_of_head {α : Type} (p : α -> Bool) (left right : List α)
    (seam : ∀ next ∈ right.head?, p next = false) :
    (left ++ right).takeWhile p = left.takeWhile p := by
  rw [List.takeWhile_append]
  split
  · next whole =>
      have none : right.takeWhile p = [] := by
        cases right with
        | nil => rfl
        | cons next right => rw [List.takeWhile_cons_of_neg (by simp [seam next rfl])]
      have all : left.takeWhile p = left :=
        (List.takeWhile_prefix p).eq_of_length whole
      rw [none, all, List.append_nil]
  · rfl

theorem dropWhile_append_of_head {α : Type} (p : α -> Bool) (left right : List α)
    (seam : ∀ next ∈ right.head?, p next = false) :
    (left ++ right).dropWhile p = left.dropWhile p ++ right := by
  have whole := List.takeWhile_append_dropWhile (p := p) (l := left ++ right)
  have parts := List.takeWhile_append_dropWhile (p := p) (l := left)
  rw [takeWhile_append_of_head p left right seam] at whole
  have sides : left.takeWhile p ++ (left ++ right).dropWhile p =
      left.takeWhile p ++ (left.dropWhile p ++ right) := by
    rw [whole, ← List.append_assoc, parts]
  exact List.append_cancel_left sides

theorem attach_eq (entry : Entry) (later : List Block) :
    attach entry later =
      entry.toBlock (later.takeWhile fun block => entry.depth < block.depth) ::
        later.dropWhile fun block => entry.depth < block.depth := rfl

/-- Blocks behind one that is not deeper than the entry stay where they are. -/
theorem attach_append (entry : Entry) (left right : List Block)
    (seam : ∀ next ∈ right.head?, next.depth ≤ entry.depth) :
    attach entry (left ++ right) = attach entry left ++ right := by
  have notDeeper : ∀ next ∈ right.head?, decide (entry.depth < next.depth) = false := by
    intro next member
    simpa using seam next member
  rw [attach_eq, attach_eq, takeWhile_append_of_head _ left right notDeeper,
    dropWhile_append_of_head _ left right notDeeper, List.cons_append]

/-- An entry in front of deeper blocks takes all of them. -/
theorem attach_of_deeper (entry : Entry) (kids later : List Block)
    (deeper : ∀ kid ∈ kids, entry.depth < kid.depth)
    (seam : ∀ next ∈ later.head?, next.depth ≤ entry.depth) :
    attach entry (kids ++ later) = entry.toBlock kids :: later := by
  have all : ∀ kid ∈ kids, decide (entry.depth < kid.depth) = true := by
    intro kid member
    simpa using deeper kid member
  rw [attach_append entry kids later seam, attach_eq,
    List.takeWhile_eq_self_iff.mpr all, List.dropWhile_eq_nil_iff.mpr all, List.cons_append,
    List.nil_append]

end Document

/-! ## Nested blocks are read again -/

namespace Block

open Document (Spells)

/-- The entries of a nested block: its own one and deeper ones, which put the
block in front of any blocks that it does not reach over. -/
structure Entered (block : Block) (entry : Entry) (inner : List Entry) : Prop where
  spells : Spells (entry :: inner) [block]
  line : entry.line = block.line
  deeper : ∀ other ∈ inner, block.depth < other.depth
  attached : ∀ later, (∀ next ∈ later.head?, next.depth ≤ block.depth) ->
    (entry :: inner).foldr attach later = block :: later

/-- The same for a list of blocks that do not get deeper. -/
structure EnteredEach (blocks : List Block) (entries : List Entry) : Prop where
  spells : Spells entries blocks
  deeper : ∀ other ∈ entries, ∃ block ∈ blocks, block.depth ≤ other.depth
  attached : ∀ later, (∀ next ∈ later.head?, ∀ block ∈ blocks, next.depth ≤ block.depth) ->
    entries.foldr attach later = blocks ++ later

theorem EnteredEach.cons {block : Block} {blocks : List Block} {entry : Entry}
    {inner entries : List Entry} (first : block.Entered entry inner)
    (others : EnteredEach blocks entries) (descending : ∀ next ∈ blocks, next.depth ≤ block.depth) :
    EnteredEach (block :: blocks) ((entry :: inner) ++ entries) := by
  refine ⟨first.spells.append others.spells, ?_, ?_⟩
  · intro other member
    rw [List.cons_append, List.mem_cons, List.mem_append] at member
    rcases member with rfl | member | member
    · exact ⟨block, List.mem_cons_self, by rw [Entry.depth, first.line, depth]⟩
    · exact ⟨block, List.mem_cons_self, (first.deeper other member).le⟩
    · obtain ⟨found, foundMember, bound⟩ := others.deeper other member
      exact ⟨found, List.mem_cons_of_mem block foundMember, bound⟩
  · intro later seam
    have behind := others.attached later fun next member found foundMember =>
      seam next member found (List.mem_cons_of_mem block foundMember)
    rw [List.foldr_append, behind, first.attached, List.cons_append]
    intro next member
    cases blocks with
    | nil => exact seam next member block List.mem_cons_self
    | cons following blocks =>
        have same : following = next := by simpa using member
        exact same ▸ descending following List.mem_cons_self

theorem exists_enteredEach (blocks : List Block)
    (each : ∀ block ∈ blocks, ∃ entry inner, block.Entered entry inner)
    (descending : blocks.Pairwise fun left right => right.depth ≤ left.depth) :
    ∃ entries, EnteredEach blocks entries := by
  induction blocks with
  | nil => exact ⟨[], .nil, by simp, by simp⟩
  | cons block blocks ih =>
      obtain ⟨bound, descending⟩ := List.pairwise_cons.mp descending
      obtain ⟨entry, inner, first⟩ := each block List.mem_cons_self
      obtain ⟨entries, others⟩ :=
        ih (fun other member => each other (List.mem_cons_of_mem block member)) descending
      exact ⟨_, others.cons first bound⟩

theorem IsNested.exists_entered {block : Block} (nested : block.IsNested) :
    ∃ entry inner, block.Entered entry inner := by
  induction nested with
  | intro entry kids valid deeper descending _ ih =>
      obtain ⟨inner, inside⟩ := exists_enteredEach kids ih descending
      refine ⟨entry, inner, .toBlock valid inside.spells, rfl, ?_, ?_⟩
      · intro other member
        obtain ⟨kid, kidMember, bound⟩ := inside.deeper other member
        exact lt_of_lt_of_le (deeper kid kidMember) bound
      · intro later seam
        have kidsFirst := inside.attached later fun next member kid kidMember =>
          (seam next member).trans (deeper kid kidMember).le
        rw [List.foldr_cons, kidsFirst, Document.attach_of_deeper entry kids later deeper seam]

/-- Nested blocks that do not get deeper are those of their entries. -/
theorem exists_spells (blocks : List Block) (nested : ∀ block ∈ blocks, block.IsNested)
    (descending : blocks.Pairwise fun left right => right.depth ≤ left.depth) :
    ∃ entries, Spells entries blocks ∧ nest entries = blocks := by
  obtain ⟨entries, entered⟩ := exists_enteredEach blocks
    (fun block member => (nested block member).exists_entered) descending
  have read := entered.attached [] (by simp)
  rw [List.append_nil] at read
  exact ⟨entries, entered.spells, read⟩

/-- Nested blocks that do not get deeper are read from their lines. -/
theorem blocksOfLines_linesOfEach (blocks : List Block) (nested : ∀ block ∈ blocks, block.IsNested)
    (descending : blocks.Pairwise fun left right => right.depth ≤ left.depth) :
    blocksOfLines (linesOfEach blocks) = blocks := by
  obtain ⟨entries, spells, read⟩ := exists_spells blocks nested descending
  rw [spells.blocksOfLines, read]

end Block

namespace Document

/-- Nesting keeps the lines of the entries. -/
theorem linesOfEach_nest (entries : List Entry) :
    Block.linesOfEach (nest entries) = entries.flatMap Entry.lines := by
  induction entries with
  | nil => rfl
  | cons entry entries ih =>
      have parts := List.takeWhile_append_dropWhile
        (p := fun block : Block => decide (entry.depth < block.depth)) (l := nest entries)
      rw [nest, List.foldr_cons, ← nest, attach_eq, Block.linesOfEach, Block.lines_toBlock,
        List.append_assoc, ← Block.linesOfEach_append, parts, ih, List.flatMap_cons]

/-- Entries are nested into nested blocks that do not get deeper. -/
theorem nest_isNested (entries : List Entry) (valid : ∀ entry ∈ entries, entry.IsValid) :
    (∀ block ∈ nest entries, block.IsNested) ∧
      (nest entries).Pairwise fun left right => right.depth ≤ left.depth := by
  induction entries with
  | nil => exact ⟨by simp [nest], List.Pairwise.nil⟩
  | cons entry entries ih =>
      obtain ⟨nested, descending⟩ := ih fun other member =>
        valid other (List.mem_cons_of_mem entry member)
      have first : entry.IsValid := valid entry List.mem_cons_self
      rw [nest, List.foldr_cons, ← nest, attach_eq]
      refine ⟨?_, List.pairwise_cons.mpr ⟨?_, descending.sublist (List.dropWhile_sublist _)⟩⟩
      · intro block member
        rcases List.mem_cons.mp member with rfl | member
        · refine .intro entry _ first ?_ (descending.sublist (List.takeWhile_sublist _)) ?_
          · intro kid member
            simpa using List.mem_takeWhile_imp member
          · intro kid member
            exact nested kid ((List.takeWhile_sublist _).mem member)
        · exact nested block ((List.dropWhile_sublist _).mem member)
      · -- The first block that is left is not deeper, and the others follow it.
        intro block member
        rw [Block.depth_toBlock]
        cases left : (nest entries).dropWhile fun block => entry.depth < block.depth with
        | nil => simp [left] at member
        | cons next later =>
            have notDeeper : next.depth ≤ entry.depth := by
              have head := List.head_dropWhile_not
                (fun block : Block => decide (entry.depth < block.depth))
                (l := nest entries) (by simp [left])
              simpa [left] using head
            rw [left] at member
            have order := descending.sublist
              (List.dropWhile_sublist fun block : Block => decide (entry.depth < block.depth))
            rw [left] at order
            rcases List.mem_cons.mp member with rfl | member
            · exact notDeeper
            · exact ((List.pairwise_cons.mp order).1 block member).trans notDeeper

theorem lines_ne_nil (block : Block) : block.lines ≠ [] := by
  obtain ⟨docs, line, children⟩ := block
  simp [Block.lines]

theorem linesOfEach_eq_nil_iff {blocks : List Block} :
    Block.linesOfEach blocks = [] ↔ blocks = [] := by
  cases blocks with
  | nil => simp [Block.linesOfEach]
  | cons block blocks => simp [Block.linesOfEach, lines_ne_nil]

/-- The text of blocks is read by nesting their entries. -/
theorem Spells.ofText_render {entries : List Entry} {blocks : List Block}
    (spells : Spells entries blocks) (nonempty : blocks ≠ []) :
    ofText (render ⟨blocks, true⟩) = ⟨nest entries, true⟩ := by
  have some : Block.linesOfEach blocks ≠ [] := mt linesOfEach_eq_nil_iff.mp nonempty
  rw [render, if_pos rfl, Document.lines, ofText_textOfLines _ some spells.lines_single,
    spells.blocksOfLines]

/-- The text of nested blocks is read as these blocks. -/
theorem ofText_render (blocks : List Block) (nonempty : blocks ≠ [])
    (nested : ∀ block ∈ blocks, block.IsNested)
    (descending : blocks.Pairwise fun left right => right.depth ≤ left.depth) :
    ofText (render ⟨blocks, true⟩) = ⟨blocks, true⟩ := by
  obtain ⟨entries, spells, read⟩ := Block.exists_spells blocks nested descending
  rw [spells.ofText_render nonempty, read]

/-- The same of blocks that stand at one level. -/
theorem ofText_render_of_level {blocks : List Block} {depth : Nat} (nonempty : blocks ≠ [])
    (level : ∀ block ∈ blocks, block.IsNested ∧ block.depth = depth) :
    ofText (render ⟨blocks, true⟩) = ⟨blocks, true⟩ := by
  refine ofText_render blocks nonempty (fun block member => (level block member).1) ?_
  refine List.pairwise_of_forall_mem_list fun left leftMember right rightMember => ?_
  rw [(level left leftMember).2, (level right rightMember).2]

/-- The blocks of a text are nested, apart from blank lines in front of them and
documentation lines behind them. -/
theorem isNested_of_mem_ofText {text : Text} {block : Block} (member : block ∈ (ofText text).blocks)
    (visible : Text.allBlank block.line = false) (notDoc : isDoc block.line = false) :
    block.IsNested := by
  obtain ⟨lines, read, single⟩ := exists_lines_of_ofText text
  obtain ⟨blanks, valid, docs⟩ := group_valid lines [] single (by simp)
  rw [read, Document.blocksOfLines, List.mem_append, List.mem_append] at member
  rcases member with (member | member) | member
  · obtain ⟨line, lineMember, rfl⟩ := List.mem_map.mp member
    have blank := (blanks line lineMember).blank
    rw [Block.ofLine] at visible
    rw [blank] at visible
    exact Bool.noConfusion visible
  · exact (nest_isNested _ valid).1 block member
  · obtain ⟨line, lineMember, rfl⟩ := List.mem_map.mp member
    have doc := (docs line lineMember).doc
    rw [Block.ofLine] at notDoc
    rw [doc] at notDoc
    exact Bool.noConfusion notDoc

/-- Lines of which the first begins a block at no depth, and behind which no
documentation is pending, are read as nested blocks at no depth. -/
theorem isNested_of_mem_blocksOfLines {first : Text} {lines : List Text}
    (single : ∀ line ∈ first :: lines, Text.IsSingleLine line) (header : IsHeaderLine first)
    (start : Block.depthOf first = 0) (closed : (group [] (first :: lines)).docs = []) :
    ∀ block ∈ blocksOfLines (first :: lines), block.IsNested ∧ block.depth = 0 := by
  have valid := (group_valid (first :: lines) [] single (by simp)).2.1
  have grouped := group_cons_header [] first lines header
  have blocks : blocksOfLines (first :: lines) = nest (group [] (first :: lines)).entries := by
    rw [Document.blocksOfLines, closed, grouped]
    simp [nest]
  obtain ⟨nested, descending⟩ := nest_isNested _ valid
  rw [blocks]
  refine fun block member => ⟨nested block member, ?_⟩
  rw [grouped, nest, List.foldr_cons, ← nest, attach_eq] at descending member
  rcases List.mem_cons.mp member with rfl | later
  · exact start
  · have notDeeper := (List.pairwise_cons.mp descending).1 block later
    rw [Block.depth_toBlock, Entry.depth, start] at notDeeper
    exact Nat.le_zero.mp notDeeper

/-! ## The blocks at one depth -/

/-- The entries at a depth, each with the deeper entries right behind it. -/
def rootsAt (depth : Nat) : List Entry -> List (Entry × List Entry)
  | [] => []
  | entry :: entries =>
      if entry.depth = depth then
        (entry, entries.takeWhile fun other => depth < other.depth) :: rootsAt depth entries
      else rootsAt depth entries

theorem mem_of_mem_rootsAt {depth : Nat} {entries : List Entry} {root : Entry × List Entry}
    (member : root ∈ rootsAt depth entries) : root.1 ∈ entries ∧ root.1.depth = depth := by
  induction entries with
  | nil => simp [rootsAt] at member
  | cons entry entries ih =>
      rw [rootsAt] at member
      split at member
      · next same =>
          rcases List.mem_cons.mp member with rfl | later
          · exact ⟨List.mem_cons_self, same⟩
          · exact ⟨List.mem_cons_of_mem entry (ih later).1, (ih later).2⟩
      · exact ⟨List.mem_cons_of_mem entry (ih member).1, (ih member).2⟩

theorem map_fst_rootsAt (depth : Nat) (entries : List Entry) :
    (rootsAt depth entries).map (·.1) = entries.filter (·.depth == depth) := by
  induction entries with
  | nil => rfl
  | cons entry entries ih =>
      rw [rootsAt]
      split
      · next same => rw [List.map_cons, ih, List.filter_cons_of_pos (by simp [same])]
      · next different => rw [ih, List.filter_cons_of_neg (by simp [different])]

/-- An entry with its deeper entries is one root, which also takes the deeper
entries in front of the next root. -/
theorem rootsAt_append {depth : Nat} {entry : Entry} {inner : List Entry} (rest : List Entry)
    (same : entry.depth = depth) (deeper : ∀ other ∈ inner, depth < other.depth) :
    rootsAt depth ((entry :: inner) ++ rest) =
      (entry, inner ++ rest.takeWhile fun other => depth < other.depth) :: rootsAt depth rest := by
  have skipped : rootsAt depth (inner ++ rest) = rootsAt depth rest := by
    induction inner with
    | nil => rfl
    | cons other inner ih =>
        have notSame : ¬ other.depth = depth := (deeper other List.mem_cons_self).ne'
        rw [List.cons_append, rootsAt, if_neg notSame]
        exact ih fun later member => deeper later (List.mem_cons_of_mem other member)
  rw [List.cons_append, rootsAt, if_pos same, skipped, List.takeWhile_append_of_pos]
  intro other member
  simpa using deeper other member

theorem exists_mem_depth_of_mem_nest {entries : List Entry} {block : Block}
    (member : block ∈ nest entries) : ∃ entry ∈ entries, entry.line = block.line := by
  induction entries generalizing block with
  | nil => simp [nest] at member
  | cons entry entries ih =>
      rw [nest, List.foldr_cons, ← nest, attach_eq] at member
      rcases List.mem_cons.mp member with rfl | member
      · exact ⟨entry, List.mem_cons_self, rfl⟩
      · obtain ⟨found, foundMember, same⟩ := ih ((List.dropWhile_sublist _).mem member)
        exact ⟨found, List.mem_cons_of_mem entry foundMember, same⟩

/-- The blocks of entries none of which is above a depth: first those of the
entries in front of the first root, then one block for each root. -/
theorem nest_eq_append_map_rootsAt (depth : Nat) (entries : List Entry)
    (bound : ∀ entry ∈ entries, depth ≤ entry.depth) :
    nest entries =
      nest (entries.takeWhile fun entry => depth < entry.depth) ++
        (rootsAt depth entries).map fun root => root.1.toBlock (nest root.2) := by
  induction entries with
  | nil => rfl
  | cons entry entries ih =>
      have first : depth ≤ entry.depth := bound entry List.mem_cons_self
      have others := ih fun other member => bound other (List.mem_cons_of_mem entry member)
      have seam : ∀ next ∈ ((rootsAt depth entries).map fun root =>
          root.1.toBlock (nest root.2)).head?, next.depth ≤ entry.depth := by
        intro next member
        obtain ⟨root, rootMember, rfl⟩ := List.mem_map.mp (List.mem_of_mem_head? member)
        rw [Block.depth_toBlock, (mem_of_mem_rootsAt rootMember).2]
        exact first
      rw [nest, List.foldr_cons, ← nest, others, rootsAt]
      by_cases same : entry.depth = depth
      · rw [if_pos same, List.takeWhile_cons_of_neg (by simp [same]), List.map_cons]
        refine attach_of_deeper entry _ _ ?_ seam
        intro kid member
        obtain ⟨found, foundMember, line⟩ := exists_mem_depth_of_mem_nest member
        have deeper : depth < found.depth := by simpa using List.mem_takeWhile_imp foundMember
        rw [Block.depth, ← line, same]
        exact deeper
      · have deeper : depth < entry.depth := by omega
        rw [if_neg same, List.takeWhile_cons_of_pos (by simp [deeper]), attach_append _ _ _ seam]
        rfl

/-- Where the first entry stands at the depth, every block is one of a root. -/
theorem nest_eq_map_rootsAt {depth : Nat} {entries : List Entry}
    (bound : ∀ entry ∈ entries, depth ≤ entry.depth)
    (first : ∀ entry ∈ entries.head?, entry.depth = depth) :
    nest entries = (rootsAt depth entries).map fun root => root.1.toBlock (nest root.2) := by
  have none : entries.takeWhile (fun entry => depth < entry.depth) = [] := by
    cases entries with
    | nil => rfl
    | cons entry entries =>
        rw [List.takeWhile_cons_of_neg]
        simp [first entry rfl]
  rw [nest_eq_append_map_rootsAt depth entries bound, none]
  rfl

/-- Roots that fail a test do not matter where the test depends on the entry. -/
theorem filter_rootsAt_append {depth : Nat} {front : List Entry} (back : List Entry)
    (test : Entry -> Bool) (none : ∀ entry ∈ front, entry.depth = depth -> test entry = false) :
    (rootsAt depth (front ++ back)).filter (fun root => test root.1) =
      (rootsAt depth back).filter fun root => test root.1 := by
  induction front with
  | nil => rfl
  | cons entry front ih =>
      have others := ih fun other member => none other (List.mem_cons_of_mem entry member)
      rw [List.cons_append, rootsAt]
      split
      · next same =>
          rw [List.filter_cons_of_neg (by simp [none entry List.mem_cons_self same]), others]
      · exact others

/-- The lines that begin these blocks are those at the depth. -/
theorem map_line_nest {depth : Nat} {entries : List Entry}
    (bound : ∀ entry ∈ entries, depth ≤ entry.depth)
    (first : ∀ entry ∈ entries.head?, entry.depth = depth) :
    (nest entries).map Block.line = (entries.filter (·.depth == depth)).map Entry.line := by
  rw [nest_eq_map_rootsAt bound first, ← map_fst_rootsAt, List.map_map, List.map_map]
  rfl

/-- Nested blocks none of which is above a depth are spelled by such entries, and
those at the depth by the entries there. -/
theorem exists_spells_at (depth : Nat) (blocks : List Block)
    (nested : ∀ block ∈ blocks, block.IsNested ∧ depth ≤ block.depth) :
    ∃ entries, Spells entries blocks ∧ (∀ entry ∈ entries, depth ≤ entry.depth) ∧
      (entries.filter (·.depth == depth)).map Entry.line =
        (blocks.filter (·.depth == depth)).map Block.line ∧
      entries.head?.map Entry.depth = blocks.head?.map Block.depth := by
  induction blocks with
  | nil => exact ⟨[], .nil, by simp, rfl, rfl⟩
  | cons block blocks ih =>
      obtain ⟨firstNested, bound⟩ := nested block List.mem_cons_self
      obtain ⟨entries, spells, deep, lines, _⟩ :=
        ih fun other member => nested other (List.mem_cons_of_mem block member)
      obtain ⟨entry, inner, entered⟩ := firstNested.exists_entered
      have same : entry.depth = block.depth := by rw [Entry.depth, entered.line, Block.depth]
      have none : inner.filter (·.depth == depth) = [] := by
        rw [List.filter_eq_nil_iff]
        intro other member
        have deeper := entered.deeper other member
        have different : other.depth ≠ depth := by omega
        simpa using different
      refine ⟨(entry :: inner) ++ entries, entered.spells.append spells, ?_, ?_, ?_⟩
      · intro other member
        rw [List.mem_append, List.mem_cons] at member
        rcases member with (rfl | member) | member
        · rw [same]
          exact bound
        · have deeper := entered.deeper other member
          omega
        · exact deep other member
      · rw [List.filter_append, List.filter_cons, List.filter_cons, none, same]
        split
        · rw [List.map_append, lines, List.map_cons, List.map_cons, entered.line]
          rfl
        · rw [List.nil_append, lines]
      · rw [List.cons_append, List.head?_cons, List.head?_cons, Option.map_some, Option.map_some,
          same]

end Document

end TabularModel
