import TabularModel.Prior.Merge
import TabularModel.Proofs.Definition.TableFile

/-!
# What is recovered from a table block

Keys, tags and properties depend on the lines of a block and of its children
alone. So they are recovered from any block that begins with the lines that an
outline settles, whatever stands behind them, and from any block in the shape of
an outline.
-/

set_option autoImplicit false

namespace TabularModel

open Block (node)

namespace Prior

/-- The value of an annotation of the given name. -/
def annotationValue? (name : Text) (block : Block) : Option Text :=
  (annotationOf? block).bind fun found => if found.1 == name then some found.2 else none

theorem hasHeader_of_annotationOf? {block : Block} {found : Text × Text}
    (read : annotationOf? block = some found) : block.hasHeader "annotation" = true := by
  rw [annotationOf?] at read
  rw [Block.hasHeader, Block.header?]
  split at read
  · next c rest shape =>
      rw [shape]
      simp only at read
      split at read
      · cases read
      · next given =>
          have blank : isBlank c = true := by
            by_contra visible
            simp [visible] at given
          simp [blank]
  · cases read

/-! ## Recovery depends on lines -/

/-- A reading of a block that depends on its line alone. -/
def OfLine {α : Type} (read : Block -> Option α) : Prop :=
  ∀ block, read block = read (Block.ofLine block.line)

theorem ofLine_valueOf? (name : Text) : OfLine (Block.valueOf? name) := fun _ => rfl

theorem ofLine_tagOf? : OfLine tagOf? := fun _ => rfl

theorem ofLine_annotationValue? (name : Text) : OfLine (annotationValue? name) := fun _ => rfl

/-- The first result among blocks is that among their lines. -/
theorem findSome?_of_map_line {α : Type} {read : Block -> Option α} (ofLine : OfLine read)
    {left right : List Block} (same : left.map Block.line = right.map Block.line) :
    left.findSome? read = right.findSome? read := by
  have onLines (blocks : List Block) :
      blocks.findSome? read = (blocks.map Block.line).findSome? (read ∘ Block.ofLine) := by
    rw [List.findSome?_map]
    congr 1
    funext block
    exact ofLine block
  rw [onLines left, onLines right, same]

theorem logicalName?_eq (block : Block) :
    logicalName? block = block.children.findSome? (annotationValue? Convention.logicalName) := by
  rw [logicalName?, annotationsOf, Block.childrenWith]
  induction block.children with
  | nil => rfl
  | cons child children ih =>
      rw [List.findSome?_cons, annotationValue?]
      cases read : annotationOf? child with
      | none =>
          have skipped (take : Block -> Option Annotation) (nothing : take child = none) :
              ((child :: children).filter (Block.hasHeader "annotation")).filterMap take =
                (children.filter (Block.hasHeader "annotation")).filterMap take := by
            rw [List.filter_cons]
            split
            · exact List.filterMap_cons_none nothing
            · rfl
          rw [skipped _ (by rw [read]; rfl), ih]
          rfl
      | some found =>
          rw [List.filter_cons_of_pos (hasHeader_of_annotationOf? read), List.filterMap_cons, read]
          by_cases same : found.1 = Convention.logicalName
          · simp [same]
          · rw [Option.map_some]
            simp only
            rw [List.find?_cons_of_neg (by simpa using same), ih]
            simp [same]

end Prior

namespace Prior

/-! ## Tags -/

/-- The form of an identifier: one word. -/
structure IsTag (tag : Text) : Prop where
  nonempty : tag ≠ []
  visible : tag.any isBlank = false

instance (tag : Text) : Decidable (IsTag tag) :=
  decidable_of_iff (tag ≠ [] ∧ tag.any isBlank = false)
    ⟨fun both => ⟨both.1, both.2⟩, fun both => ⟨both.nonempty, both.visible⟩⟩

theorem IsTag.isSingleLine {tag : Text} (isTag : IsTag tag) : Text.IsSingleLine tag := by
  intro member
  have blank := List.any_eq_false.mp isTag.visible '\n' member
  exact blank rfl

/-- A tag that is taken over if there is one. -/
theorem isTag_getD {taken : Option Text} (each : ∀ tag ∈ taken, IsTag tag) {fresh : Text}
    (isTag : IsTag fresh) : IsTag (taken.getD fresh) := by
  cases taken with
  | none => exact isTag
  | some tag => exact each tag rfl

theorem isTag_of_tagOf? {block : Block} {tag : Text} (read : tagOf? block = some tag) :
    IsTag tag := by
  rw [tagOf?] at read
  split at read
  · next value _ =>
      split at read
      · cases read
      · next word =>
          have same : value = tag := Option.some.inj read
          subst same
          simp only [Bool.or_eq_true, not_or, Bool.not_eq_true] at word
          exact ⟨by simpa using word.1, word.2⟩
  · cases read

theorem tagOf?_property {tag : Text} (isTag : IsTag tag) (depth : Nat) (blanks : List Text)
    (kids : List Block) :
    tagOf? (node depth (propertyContent "lineageTag" tag) blanks kids) = some tag := by
  have trimmed : Text.trim tag = tag := Text.isTrimmed_of_noBlank tag isTag.visible
  have some : tag.isEmpty = false := by simpa using isTag.nonempty
  rw [tagOf?, Block.valueOf?_property _ depth tag blanks kids (by decide), trimmed]
  simp [some, isTag.visible]

theorem isTag_of_lineageTag? {block : Block} {tag : Text} (read : lineageTag? block = some tag) :
    IsTag tag := by
  obtain ⟨child, _, found⟩ := List.exists_of_findSome?_eq_some read
  exact isTag_of_tagOf? found

end Prior

open Prior

/-- The first result is found behind blocks that give none. -/
theorem findSome?_append_of_none {α : Type} {read : Block -> Option α} {front : List Block}
    (back : List Block) (none : ∀ block ∈ front, read block = none) :
    (front ++ back).findSome? read = back.findSome? read := by
  rw [List.findSome?_append, List.findSome?_eq_none_iff.mpr none, Option.none_or]

namespace Definition

namespace Column

variable (column : Column)

/-- How the members of a column in front of its tag begin, apart from the format. -/
def plainWords : List Text :=
  ["dataType", "isHidden", "isKey"]

def frontWords : List Text :=
  ["dataType", "isHidden", "isKey", "formatString"]

theorem begins_of_mem_frontNodes_none {block : Block} (member : block ∈ column.frontNodes none) :
    ∃ word ∈ plainWords, block.Begins word := by
  rw [frontNodes, List.mem_cons, List.mem_append, List.mem_append] at member
  rcases member with rfl | (member | member) | member
  · exact ⟨"dataType", by simp [plainWords], Block.begins_property _ 2 _ _ _ (by decide)⟩
  · cases member
  · rw [flagNodes] at member
    split at member
    · rw [List.mem_singleton.mp member]
      exact ⟨"isHidden", by simp [plainWords],
        Block.begins_self (.of_isTrimmed (by decide) (by decide)) 2 _ _⟩
    · cases member
  · rw [flagNodes] at member
    split at member
    · rw [List.mem_singleton.mp member]
      exact ⟨"isKey", by simp [plainWords],
        Block.begins_self (.of_isTrimmed (by decide) (by decide)) 2 _ _⟩
    · cases member

theorem begins_of_mem_frontNodes {format : Option Text} {block : Block}
    (member : block ∈ column.frontNodes format) : ∃ word ∈ frontWords, block.Begins word := by
  have plain : ∀ word ∈ plainWords, word ∈ frontWords := by decide
  cases format with
  | none =>
      obtain ⟨word, found, begins⟩ := column.begins_of_mem_frontNodes_none member
      exact ⟨word, plain word found, begins⟩
  | some format =>
      have apart : block = node 2 (propertyContent "formatString" format) [] [] ∨
          block ∈ column.frontNodes none := by
        rw [frontNodes, List.mem_cons, List.mem_append, List.mem_append] at member
        rcases member with rfl | (member | member) | member
        · exact Or.inr List.mem_cons_self
        · exact Or.inl (List.mem_singleton.mp member)
        · exact Or.inr (List.mem_cons_of_mem _
            (List.mem_append_left _ (List.mem_append_right _ member)))
        · exact Or.inr (List.mem_cons_of_mem _ (List.mem_append_right _ member))
      rcases apart with rfl | others
      · exact ⟨"formatString", by decide, Block.begins_property _ 2 _ _ _ (by decide)⟩
      · obtain ⟨word, found, begins⟩ := column.begins_of_mem_frontNodes_none others
        exact ⟨word, plain word found, begins⟩

theorem name?_column {block : Block}
    (header : block.line = Line.tabs 1 ++ ("column" ++ ' ' :: Name.written column.name)) :
    name? "column" block = some column.name := by
  have same : block.header? "column" =
      (node 1 ("column" ++ ' ' :: Name.written column.name) [] []).header? "column" := by
    rw [Block.header?, Block.text, header]
    rfl
  rw [name?, nameAndRest?, same,
    Block.header?_header "column" 1 [] [] (by decide) (Name.hasVisibleEnds_written column.name)]
  simp [Name.split_written_self]

/-- A block that begins with the lines of a column has the source of the column. -/
theorem columnSource?_of_lines {tag summary : Text} {format : Option Text} {block : Block}
    {more : List Block}
    (header : block.line = Line.tabs 1 ++ ("column" ++ ' ' :: Name.written column.name))
    (lines : block.children.map Block.line =
      (column.memberNodes tag format summary ++ more).map Block.line) :
    columnSource? block = some (Text.trim column.source) := by
  have source : block.property? "sourceColumn" = some (Text.trim column.source) := by
    rw [Block.property?, findSome?_of_map_line (ofLine_valueOf? _) lines, memberNodes,
      List.append_assoc, findSome?_append_of_none]
    · have tagLine := Block.begins_property "lineageTag" 2 tag [] [] (by decide)
      have summaryLine := Block.begins_property "summarizeBy" 2 summary [] [] (by decide)
      rw [List.cons_append, List.findSome?_cons, tagLine.valueOf? (by decide), List.cons_append,
        List.findSome?_cons, summaryLine.valueOf? (by decide), List.cons_append,
        List.findSome?_cons, Block.valueOf?_property "sourceColumn" 2 _ _ _ (by decide)]
    · intro member inside
      obtain ⟨word, found, begins⟩ := column.begins_of_mem_frontNodes inside
      have words : ∀ word ∈ frontWords, Text.differ "sourceColumn" word = true := by decide
      exact begins.valueOf? (words word found)
  rw [columnSource?, column.name?_column header, source]
  rfl

/-- A block that begins with the lines of a column has its tag. -/
theorem lineageTag?_of_lines {tag summary : Text} (isTag : IsTag tag) {format : Option Text}
    {block : Block} {more : List Block}
    (lines : block.children.map Block.line =
      (column.memberNodes tag format summary ++ more).map Block.line) :
    lineageTag? block = some tag := by
  rw [lineageTag?, findSome?_of_map_line ofLine_tagOf? lines, memberNodes, List.append_assoc,
    findSome?_append_of_none, List.cons_append, List.findSome?_cons, tagOf?_property isTag]
  intro member inside
  obtain ⟨word, found, begins⟩ := column.begins_of_mem_frontNodes inside
  have words : ∀ word ∈ frontWords, Text.differ "lineageTag" word = true := by decide
  exact begins.tagOf? (words word found)

end Column

namespace TableOutline

variable (outline : TableOutline)

theorem name?_table {block : Block}
    (header : block.line = Line.tabs 0 ++ ("table" ++ ' ' :: Name.written outline.name)) :
    name? "table" block = some outline.name := by
  have same : block.header? "table" =
      (node 0 ("table" ++ ' ' :: Name.written outline.name) [] []).header? "table" := by
    rw [Block.header?, Block.text, header]
    rfl
  rw [name?, nameAndRest?, same,
    Block.header?_header "table" 0 [] [] (by decide) (Name.hasVisibleEnds_written outline.name)]
  simp [Name.split_written_self]

theorem annotationOf?_headNodes (tag : Text) :
    ∀ block ∈ outline.headNodes tag, annotationOf? block = none := by
  have tagLine (blanks : List Text) :=
    Block.begins_property "lineageTag" 1 tag blanks [] (by decide)
  have categoryLine := Block.begins_property "dataCategory" 1 "Time" [[]] [] (by decide)
  intro block member
  rw [headNodes] at member
  split at member
  · rcases List.mem_cons.mp member with rfl | member
    · exact (tagLine []).annotationOf? (by decide)
    · rw [List.mem_singleton.mp member]
      exact categoryLine.annotationOf? (by decide)
  · rw [List.mem_singleton.mp member]
    exact (tagLine [[]]).annotationOf? (by decide)

/-- A block with the lines of a table has its logical name. -/
theorem logicalName?_of_lines {tag : Text} {block : Block} {middle : List Block}
    (lines : block.children.map Block.line =
      (outline.headNodes tag ++ middle ++ outline.closingNodes).map Block.line)
    (none : ∀ member ∈ middle, annotationOf? member = none) :
    logicalName? block = some (Text.trim outline.logicalName) := by
  rw [logicalName?_eq, findSome?_of_map_line (ofLine_annotationValue? _) lines,
    findSome?_append_of_none, closingNodes, List.findSome?_cons, annotationValue?,
    Block.annotationOf?_annotation Convention.logicalName 1 outline.logicalName [[]] []
      (by decide) (by decide)]
  · simp
  · intro member inside
    rw [annotationValue?]
    rcases List.mem_append.mp inside with inside | inside
    · rw [outline.annotationOf?_headNodes tag member inside, Option.bind_none]
    · rw [none member inside, Option.bind_none]

/-- It is the key of the block. -/
theorem tableKey?_of_lines {tag : Text} {block : Block} {middle : List Block}
    (header : block.line = Line.tabs 0 ++ ("table" ++ ' ' :: Name.written outline.name))
    (lines : block.children.map Block.line =
      (outline.headNodes tag ++ middle ++ outline.closingNodes).map Block.line)
    (none : ∀ member ∈ middle, annotationOf? member = none) :
    tableKey? block = some (Text.trim outline.logicalName) := by
  rw [tableKey?, outline.name?_table header, outline.logicalName?_of_lines lines none]
  rfl

/-- A block that begins with the lines of a table has its tag. -/
theorem lineageTag?_of_lines {tag : Text} (isTag : IsTag tag) {block : Block} {more : List Block}
    (lines : block.children.map Block.line = (outline.headNodes tag ++ more).map Block.line) :
    lineageTag? block = some tag := by
  rw [lineageTag?, findSome?_of_map_line ofLine_tagOf? lines, headNodes]
  split
  · rw [List.cons_append, List.findSome?_cons, tagOf?_property isTag]
  · rw [List.cons_append, List.findSome?_cons, tagOf?_property isTag]

end TableOutline

end Definition

end TabularModel
