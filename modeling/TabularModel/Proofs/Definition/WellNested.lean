import TabularModel.Proofs.Definition.Rendering

/-!
# Well-nested documents

Which forests of blocks a reading can give: among siblings the blank lines come
first and the others do not get deeper, a child is deeper than its parent, and
each line is of the kind of its place. A well-nested document is read back from
its text, and every text whose last line is ended and whose documentation is
always followed by a block is read as a well-nested document. So the well-nested
documents are those that the reading and the rendering carry over to such texts
and back.
-/

set_option autoImplicit false

namespace TabularModel

open Document (Entry IsBlankLine IsDocLine IsHeaderLine Spells beginsBlock group isDoc nest)

namespace Block

/-- Blocks that may stand side by side: blank lines come first, and the others do
not get deeper from one to the next. -/
structure AreSiblings (blocks : List Block) : Prop where
  blanksFirst : blocks.Pairwise fun left right => right.isBlank = true -> left.isBlank = true
  descending : (blocks.filter (!·.isBlank)).Pairwise fun left right => right.depth ≤ left.depth

/-- A blank line is a block of its own. Any other block begins with a line that is
not documentation, has documentation in front of it, and holds siblings of which
all but the blank ones are deeper. -/
inductive IsWellNested : Block -> Prop where
  | blank (line : Text) (blank : IsBlankLine line) : IsWellNested (ofLine line)
  | header (docs : List Text) (line : Text) (children : List Block)
      (areDocs : ∀ doc ∈ docs, IsDocLine doc) (header : IsHeaderLine line)
      (siblings : AreSiblings children)
      (deeper : ∀ child ∈ children, child.isBlank = false -> depthOf line < child.depth)
      (nested : ∀ child ∈ children, IsWellNested child) : IsWellNested ⟨docs, line, children⟩

/-! ## Blank lines in front of nested blocks -/

theorem IsNested.isBlank {block : Block} (nested : block.IsNested) : block.isBlank = false :=
  nested.header.visible

theorem isBlank_ofLine {line : Text} (blank : IsBlankLine line) : (ofLine line).isBlank = true :=
  blank.blank

variable {blanks : List Text} {blocks kids : List Block}

theorem areSiblings_append (areBlank : ∀ line ∈ blanks, IsBlankLine line)
    (visible : ∀ kid ∈ kids, kid.isBlank = false)
    (descending : kids.Pairwise fun left right => right.depth ≤ left.depth) :
    AreSiblings (blanks.map ofLine ++ kids) := by
  have blank : ∀ block ∈ blanks.map ofLine, block.isBlank = true := by
    intro block member
    obtain ⟨line, inside, rfl⟩ := List.mem_map.mp member
    exact isBlank_ofLine (areBlank line inside)
  constructor
  · refine List.pairwise_append.mpr ⟨?_, ?_, fun left member _ _ _ => blank left member⟩
    · exact List.pairwise_of_forall_mem_list fun left member _ _ _ => blank left member
    · refine List.pairwise_of_forall_mem_list fun _ _ right member isBlank => ?_
      rw [visible right member] at isBlank
      cases isBlank
  · have none : (blanks.map ofLine).filter (!·.isBlank) = [] :=
      List.filter_eq_nil_iff.mpr fun block member => by simp [blank block member]
    have all : kids.filter (!·.isBlank) = kids :=
      List.filter_eq_self.mpr fun kid member => by simp [visible kid member]
    rw [List.filter_append, none, all]
    exact descending

theorem forall_isWellNested_append (areBlank : ∀ line ∈ blanks, IsBlankLine line)
    (nested : ∀ kid ∈ kids, kid.IsWellNested) :
    ∀ block ∈ blanks.map ofLine ++ kids, block.IsWellNested := by
  intro block member
  rcases List.mem_append.mp member with blank | kid
  · obtain ⟨line, inside, rfl⟩ := List.mem_map.mp blank
    exact .blank line (areBlank line inside)
  · exact nested block kid

/-- A blank block that is well nested is nothing but its line. -/
theorem IsWellNested.eq_ofLine {block : Block} (wellNested : block.IsWellNested)
    (blank : block.isBlank = true) : IsBlankLine block.line ∧ ofLine block.line = block := by
  cases wellNested with
  | blank line isBlankLine => exact ⟨isBlankLine, rfl⟩
  | header docs line children areDocs header siblings deeper nested =>
      have visible : Text.allBlank line = true := blank
      rw [header.visible] at visible
      cases visible

/-- Where the blank blocks come first, the blocks are these and then the others. -/
theorem filter_append_filter_of_blanksFirst
    (blanksFirst : blocks.Pairwise fun left right => right.isBlank = true -> left.isBlank = true) :
    blocks.filter (·.isBlank) ++ blocks.filter (!·.isBlank) = blocks := by
  induction blocks with
  | nil => rfl
  | cons block blocks ih =>
      obtain ⟨first, others⟩ := List.pairwise_cons.mp blanksFirst
      cases blank : block.isBlank with
      | true =>
          rw [List.filter_cons_of_pos blank, List.filter_cons_of_neg (by simp [blank]),
            List.cons_append, ih others]
      | false =>
          -- Behind a block that is not blank no blank one may come.
          have none : (block :: blocks).filter (·.isBlank) = [] := by
            refine List.filter_eq_nil_iff.mpr (List.forall_mem_cons.mpr ⟨by simp [blank], ?_⟩)
            intro other member isBlank
            rw [first other member isBlank] at blank
            cases blank
          have all : (block :: blocks).filter (!·.isBlank) = block :: blocks := by
            refine List.filter_eq_self.mpr fun other member => ?_
            simpa using List.filter_eq_nil_iff.mp none other member
          rw [none, all, List.nil_append]

/-- Well-nested siblings are blank lines, and then blocks that do not get deeper. -/
theorem AreSiblings.exists_eq_append (siblings : AreSiblings blocks)
    (nested : ∀ block ∈ blocks, block.IsWellNested) :
    ∃ (blanks : List Text) (kids : List Block), blocks = blanks.map ofLine ++ kids ∧
      (∀ line ∈ blanks, IsBlankLine line) ∧ (∀ kid ∈ kids, kid.isBlank = false) ∧
      kids.Pairwise fun left right => right.depth ≤ left.depth := by
  have blank (block : Block) (member : block ∈ blocks.filter (·.isBlank)) :
      IsBlankLine block.line ∧ ofLine block.line = block :=
    (nested block (List.mem_of_mem_filter member)).eq_ofLine (List.mem_filter.mp member).2
  refine ⟨(blocks.filter (·.isBlank)).map line, blocks.filter (!·.isBlank), ?_, ?_, ?_,
    siblings.descending⟩
  · have same : ((blocks.filter (·.isBlank)).map line).map ofLine = blocks.filter (·.isBlank) := by
      rw [List.map_map]
      exact (List.map_congr_left fun block member => (blank block member).2).trans (List.map_id _)
    rw [same, filter_append_filter_of_blanksFirst siblings.blanksFirst]
  · intro text member
    obtain ⟨block, inside, rfl⟩ := List.mem_map.mp member
    exact (blank block inside).1
  · intro kid member
    simpa using (List.mem_filter.mp member).2

/-- A well-nested block that is not blank is nested as the reading nests entries. -/
theorem IsWellNested.isNested {block : Block} (wellNested : block.IsWellNested)
    (visible : block.isBlank = false) : block.IsNested := by
  induction wellNested with
  | blank line blank =>
      rw [isBlank_ofLine blank] at visible
      cases visible
  | header docs line children areDocs header siblings deeper nested ih =>
      obtain ⟨blanks, kids, rfl, areBlank, notBlank, descending⟩ := siblings.exists_eq_append nested
      have inside (kid : Block) (member : kid ∈ kids) : kid ∈ blanks.map ofLine ++ kids :=
        List.mem_append_right _ member
      exact .intro ⟨docs, line, blanks⟩ kids ⟨areDocs, header, areBlank⟩
        (fun kid member => deeper kid (inside kid member) (notBlank kid member)) descending
        (fun kid member => ih kid (inside kid member) (notBlank kid member))

theorem IsNested.isWellNested {block : Block} (nested : block.IsNested) : block.IsWellNested := by
  induction nested with
  | intro entry kids valid deeper descending nested ih =>
      refine .header _ _ _ valid.docs valid.line
        (areSiblings_append valid.blanks (fun kid member => (nested kid member).isBlank) descending)
        ?_ (forall_isWellNested_append valid.blanks ih)
      intro child member visible
      rcases List.mem_append.mp member with blank | kid
      · obtain ⟨line, inside, rfl⟩ := List.mem_map.mp blank
        rw [isBlank_ofLine (valid.blanks line inside)] at visible
        cases visible
      · exact deeper child kid

end Block

namespace Document

/-- A document with an ended last line, whose blocks are well-nested siblings. -/
structure IsWellNested (document : Document) : Prop where
  ended : document.isEnded = true
  nonempty : document.blocks ≠ []
  siblings : Block.AreSiblings document.blocks
  nested : ∀ block ∈ document.blocks, block.IsWellNested

/-- Behind each line of documentation a block begins, at once or later. -/
def DocsAreFollowed (lines : List Text) : Prop :=
  ∀ front doc back, lines = front ++ doc :: back -> isDoc doc = true ->
    ∃ line ∈ back, beginsBlock line = true

/-- A text with an ended last line and no documentation left over at its end. -/
structure IsComplete (text : Text) : Prop where
  ended : endsLine text = true
  followed : DocsAreFollowed (linesOf text)

/-! ## Documentation that is left over -/

theorem docsAreFollowed_cons {line : Text} {lines : List Text} :
    DocsAreFollowed (line :: lines) ↔
      (isDoc line = true -> ∃ later ∈ lines, beginsBlock later = true) ∧ DocsAreFollowed lines := by
  constructor
  · intro followed
    refine ⟨followed [] line lines rfl, fun front doc back shape => ?_⟩
    exact followed (line :: front) doc back (by rw [shape, List.cons_append])
  · rintro ⟨first, others⟩ front doc back shape isDocLine
    cases front with
    | nil =>
        obtain ⟨rfl, rfl⟩ := List.cons.inj shape
        exact first isDocLine
    | cons _ front => exact others front doc back (List.cons.inj shape).2 isDocLine

/-- No documentation is left over exactly if a block follows all of it. -/
theorem docs_group_eq_nil_iff (pending lines : List Text) :
    (group pending lines).docs = [] ↔
      (pending ≠ [] -> ∃ line ∈ lines, beginsBlock line = true) ∧ DocsAreFollowed lines := by
  induction lines generalizing pending with
  | nil =>
      have followed : DocsAreFollowed [] := fun front doc back shape => by simp at shape
      simp [group, followed]
  | cons line lines ih =>
      rw [docsAreFollowed_cons]
      rcases cases_line line with blank | doc | begins
      · have notDoc : isDoc line = false := by
          by_contra doc
          rw [allBlank_eq_false_of_isDoc (by simpa using doc)] at blank
          cases blank
        rw [group, if_pos blank, ih pending]
        simp [beginsBlock, blank, notDoc]
      · rw [group, if_neg (by simp [allBlank_eq_false_of_isDoc doc]), if_pos doc, ih]
        have waiting : pending ++ [line] ≠ [] := by simp
        constructor
        · rintro ⟨follows, others⟩
          obtain ⟨later, member, begins⟩ := follows waiting
          exact ⟨fun _ => ⟨later, List.mem_cons_of_mem line member, begins⟩,
            fun _ => ⟨later, member, begins⟩, others⟩
        · rintro ⟨_, follows, others⟩
          exact ⟨fun _ => follows doc, others⟩
      · have kinds : Text.allBlank line = false ∧ isDoc line = false := by
          simpa [beginsBlock] using begins
        rw [group, if_neg (by simp [kinds.1]), if_neg (by simp [kinds.2]), ih []]
        simp [begins, kinds.2]

instance (lines : List Text) : Decidable (DocsAreFollowed lines) :=
  decidable_of_iff ((group [] lines).docs.isEmpty = true) (by simp [docs_group_eq_nil_iff])

/-! ## Reading and rendering -/

/-- A well-nested document consists of blank lines and the blocks of entries. -/
theorem IsWellNested.exists_spells {document : Document} (wellNested : document.IsWellNested) :
    ∃ (blanks : List Text) (entries : List Entry) (kids : List Block),
      document.blocks = blanks.map Block.ofLine ++ kids ∧ (∀ line ∈ blanks, IsBlankLine line) ∧
        Spells entries kids ∧ nest entries = kids := by
  obtain ⟨blanks, kids, shape, areBlank, visible, descending⟩ :=
    wellNested.siblings.exists_eq_append wellNested.nested
  have nested : ∀ kid ∈ kids, kid.IsNested := fun kid member =>
    (wellNested.nested kid (shape ▸ List.mem_append_right _ member)).isNested (visible kid member)
  obtain ⟨entries, spells, read⟩ := Block.exists_spells kids nested descending
  exact ⟨blanks, entries, kids, shape, areBlank, spells, read⟩

/-- The lines of a well-nested document are read as its blocks, with no
documentation left over. -/
theorem IsWellNested.blocksOfLines_lines {document : Document}
    (wellNested : document.IsWellNested) :
    IsCut document.lines true ∧ blocksOfLines document.lines = document.blocks ∧
      DocsAreFollowed document.lines := by
  obtain ⟨blanks, entries, kids, shape, areBlank, spells, nested⟩ := wellNested.exists_spells
  have lines : document.lines = blanks ++ entries.flatMap Entry.lines := by
    rw [Document.lines, shape, Block.linesOfEach_append, Block.linesOfEach_map_ofLine, spells.lines]
  have grouped : group [] document.lines = ⟨blanks, entries, []⟩ := by
    rw [lines, group_append_blanks _ _ _ areBlank, group_flatMap_lines _ spells.valid]
    simp
  refine ⟨⟨?_, ?_, by simp⟩, ?_, ?_⟩
  · intro line member
    rw [lines, ← spells.lines] at member
    rcases List.mem_append.mp member with blank | inside
    · exact (areBlank line blank).single
    · exact spells.lines_single line inside
  · exact fun _ => mt linesOfEach_eq_nil_iff.mp wellNested.nonempty
  · rw [blocksOfLines, grouped, ← nest, nested, shape, List.map_nil, List.append_nil]
  · exact ((docs_group_eq_nil_iff [] document.lines).mp (by rw [grouped])).2

/-- A complete text is read as a well-nested document. -/
theorem IsComplete.isWellNested_ofText {text : Text} (complete : IsComplete text) :
    (ofText text).IsWellNested := by
  have cut := isCut_linesOf text
  obtain ⟨areBlank, valid, _⟩ := group_valid (linesOf text) [] cut.single (by simp)
  have noDocs : (group [] (linesOf text)).docs = [] :=
    (docs_group_eq_nil_iff [] _).mpr ⟨by simp, complete.followed⟩
  obtain ⟨nested, descending⟩ := nest_isNested _ valid
  have blocks : (ofText text).blocks =
      (group [] (linesOf text)).blanks.map Block.ofLine ++ nest (group [] (linesOf text)).entries := by
    rw [ofText_eq, blocksOfLines, noDocs, List.map_nil, List.append_nil, nest]
  refine ⟨?_, ?_, ?_, ?_⟩
  · rw [ofText_eq, complete.ended]
  · rw [ofText_eq, ne_eq, blocksOfLines_eq_nil_iff]
    exact cut.nonempty complete.ended
  · rw [blocks]
    exact Block.areSiblings_append areBlank (fun kid member => (nested kid member).isBlank) descending
  · rw [blocks]
    exact Block.forall_isWellNested_append areBlank fun kid member => (nested kid member).isWellNested

/-- A well-nested document has a complete text and is read back from it, and every
complete text is read as a well-nested document. -/
theorem ofText_render_of_isWellNested :
    (∀ document : Document, document.IsWellNested ->
        IsComplete document.render ∧ ofText document.render = document) ∧
      ∀ text, IsComplete text -> (ofText text).IsWellNested := by
  refine ⟨fun document wellNested => ?_, fun text complete => complete.isWellNested_ofText⟩
  obtain ⟨cut, read, followed⟩ := wellNested.blocksOfLines_lines
  have rendered : document.render = textOf document.lines true := by
    rw [render, wellNested.ended]
    rfl
  obtain ⟨lines, ended⟩ := cut.linesOf_textOf
  rw [← rendered] at lines ended
  refine ⟨⟨ended, by rw [lines]; exact followed⟩, ?_⟩
  rw [ofText_eq, lines, ended, read, ← wellNested.ended]

/-- A document with blank lines at its beginning and in a block whose second child is
less deep than its first, and a text with a blank line behind documentation. -/
theorem ofText_render_of_isWellNested_outline :
    let children : List Block :=
      [.ofLine "\t", ⟨[], "\t\tnote", [.ofLine ""]⟩, ⟨["\t/// b"], "\tcolumn b", []⟩]
    let document : Document := ⟨[.ofLine " ", ⟨["/// a", " ///"], "table A", children⟩], true⟩
    let text : Text := Block.textOfLines ["/// a", "", "table A", "\t/// b", "\tcolumn b"]
    (document.IsWellNested ∧ ofText document.render = document) ∧
      IsComplete text ∧ (ofText text).IsWellNested := by
  intro children document text
  have note : Block.IsWellNested ⟨[], "\t\tnote", [.ofLine ""]⟩ :=
    .header _ _ _ (by simp) ⟨by decide, by decide, by decide⟩ ⟨by decide, by decide⟩ (by decide)
      (List.forall_mem_singleton.mpr (.blank _ isBlankLine_nil))
  have column : Block.IsWellNested ⟨["\t/// b"], "\tcolumn b", []⟩ :=
    .header _ _ _ (List.forall_mem_singleton.mpr ⟨by decide, by decide, by decide⟩)
      ⟨by decide, by decide, by decide⟩ ⟨by decide, by decide⟩ (by decide) (by simp)
  have blank : Block.IsWellNested (.ofLine "\t") := .blank _ ⟨by decide, by decide⟩
  have nested : ∀ child ∈ children, child.IsWellNested := by
    simp only [children, List.forall_mem_cons]
    exact ⟨blank, note, column, by simp⟩
  have wellNested : document.IsWellNested := by
    refine ⟨rfl, by decide, ⟨by decide, by decide⟩, ?_⟩
    simp only [document, List.forall_mem_cons]
    refine ⟨.blank _ ⟨by decide, by decide⟩, ?_, by simp⟩
    refine .header _ _ _ ?_ ⟨by decide, by decide, by decide⟩ ⟨by decide, by decide⟩ (by decide) nested
    simp only [List.forall_mem_cons]
    exact ⟨⟨by decide, by decide, by decide⟩, ⟨by decide, by decide, by decide⟩, by simp⟩
  have complete : IsComplete text := ⟨by decide, by decide⟩
  exact ⟨⟨wellNested, (ofText_render_of_isWellNested.1 document wellNested).2⟩, complete,
    ofText_render_of_isWellNested.2 text complete⟩

end Document

end TabularModel
