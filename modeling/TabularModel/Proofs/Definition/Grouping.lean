import TabularModel.Definition.Block
import TabularModel.Proofs.Text.Trimming

/-!
# Grouping the lines of a file

A line begins a block, documents the one that follows, or is blank. Lines that
come as entries, each with its documentation in front and its blank lines
behind, are grouped into these entries again. Of two runs of lines the groups
are those of the first and then those of the second, as long as no blank line
stands at the seam and no documentation is pending there.
-/

set_option autoImplicit false

namespace TabularModel

namespace Document

structure IsHeaderLine (line : Text) : Prop where
  visible : Text.allBlank line = false
  notDoc : isDoc line = false
  single : Text.IsSingleLine line

structure IsDocLine (line : Text) : Prop where
  visible : Text.allBlank line = false
  doc : isDoc line = true
  single : Text.IsSingleLine line

structure IsBlankLine (line : Text) : Prop where
  blank : Text.allBlank line = true
  single : Text.IsSingleLine line

theorem isBlankLine_nil : IsBlankLine [] := ⟨rfl, by simp [Text.IsSingleLine]⟩

/-- A line whose first visible character is no slash begins a block. -/
theorem isHeaderLine_of_trimLeft {line rest : Text} {c : Char}
    (found : Text.trimLeft line = c :: rest) (different : c ≠ '/')
    (single : Text.IsSingleLine line) : IsHeaderLine line := by
  refine ⟨?_, ?_, single⟩
  · by_contra blank
    have all : Text.allBlank line = true := by simpa using blank
    have none := Text.trimLeft_append_of_allBlank line [] all
    rw [List.append_nil, found] at none
    exact List.cons_ne_nil c rest none
  · rw [isDoc, found]
    simp [List.isPrefixOf, Ne.symm different]

namespace Entry

def lines (entry : Entry) : List Text :=
  entry.docs ++ entry.line :: entry.blanks

def depth (entry : Entry) : Nat :=
  Block.depthOf entry.line

/-- Each line of the entry is of the kind of its place. -/
structure IsValid (entry : Entry) : Prop where
  docs : ∀ line ∈ entry.docs, IsDocLine line
  line : IsHeaderLine entry.line
  blanks : ∀ line ∈ entry.blanks, IsBlankLine line

theorem lines_single {entry : Entry} (valid : entry.IsValid) :
    ∀ line ∈ entry.lines, Text.IsSingleLine line := by
  intro line member
  rw [lines, List.mem_append, List.mem_cons] at member
  rcases member with doc | rfl | blank
  · exact (valid.docs line doc).single
  · exact valid.line.single
  · exact (valid.blanks line blank).single

end Entry

/-! ## From lines to entries -/

theorem group_cons_header (pending : List Text) (line : Text) (lines : List Text)
    (header : IsHeaderLine line) :
    group pending (line :: lines) =
      ⟨[], ⟨pending, line, (group [] lines).blanks⟩ :: (group [] lines).entries,
        (group [] lines).docs⟩ := by
  simp [group, header.visible, header.notDoc]

theorem group_cons_doc (pending : List Text) (line : Text) (lines : List Text)
    (doc : IsDocLine line) : group pending (line :: lines) = group (pending ++ [line]) lines := by
  simp [group, doc.visible, doc.doc]

theorem group_cons_blank (pending : List Text) (line : Text) (lines : List Text)
    (blank : IsBlankLine line) :
    group pending (line :: lines) =
      ⟨line :: (group pending lines).blanks, (group pending lines).entries,
        (group pending lines).docs⟩ := by
  simp [group, blank.blank]

theorem group_append_docs (docs pending lines : List Text) (areDocs : ∀ line ∈ docs, IsDocLine line) :
    group pending (docs ++ lines) = group (pending ++ docs) lines := by
  induction docs generalizing pending with
  | nil => simp
  | cons doc docs ih =>
      have first : IsDocLine doc := areDocs doc List.mem_cons_self
      have others : ∀ line ∈ docs, IsDocLine line := fun line member =>
        areDocs line (List.mem_cons_of_mem doc member)
      rw [List.cons_append, group_cons_doc pending doc _ first, ih (pending ++ [doc]) others]
      simp

theorem group_append_blanks (blanks pending lines : List Text)
    (areBlank : ∀ line ∈ blanks, IsBlankLine line) :
    group pending (blanks ++ lines) =
      ⟨blanks ++ (group pending lines).blanks, (group pending lines).entries,
        (group pending lines).docs⟩ := by
  induction blanks with
  | nil => simp
  | cons blank blanks ih =>
      have first : IsBlankLine blank := areBlank blank List.mem_cons_self
      have others : ∀ line ∈ blanks, IsBlankLine line := fun line member =>
        areBlank line (List.mem_cons_of_mem blank member)
      rw [List.cons_append, group_cons_blank pending blank _ first, ih others]
      simp

/-- The lines of entries are grouped into these entries. -/
theorem group_flatMap_lines (entries : List Entry) (valid : ∀ entry ∈ entries, entry.IsValid) :
    group [] (entries.flatMap Entry.lines) = ⟨[], entries, []⟩ := by
  induction entries with
  | nil => rfl
  | cons entry entries ih =>
      have first : entry.IsValid := valid entry List.mem_cons_self
      have others := ih fun later member => valid later (List.mem_cons_of_mem entry member)
      have behind : group [] (entry.blanks ++ entries.flatMap Entry.lines) =
          ⟨entry.blanks, entries, []⟩ := by
        rw [group_append_blanks _ _ _ first.blanks, others]
        simp
      rw [List.flatMap_cons, Entry.lines, List.append_assoc,
        group_append_docs entry.docs [] _ first.docs, List.nil_append, List.cons_append,
        group_cons_header entry.docs entry.line _ first.line, behind]

/-- Whatever lines are grouped, each line goes to a place of its kind. -/
theorem group_valid (lines pending : List Text) (single : ∀ line ∈ lines, Text.IsSingleLine line)
    (areDocs : ∀ line ∈ pending, IsDocLine line) :
    (∀ line ∈ (group pending lines).blanks, IsBlankLine line) ∧
      (∀ entry ∈ (group pending lines).entries, entry.IsValid) ∧
      ∀ line ∈ (group pending lines).docs, IsDocLine line := by
  induction lines generalizing pending with
  | nil => exact ⟨by simp [group], by simp [group], by simpa [group] using areDocs⟩
  | cons line lines ih =>
      have firstSingle : Text.IsSingleLine line := single line List.mem_cons_self
      have otherSingle : ∀ later ∈ lines, Text.IsSingleLine later := fun later member =>
        single later (List.mem_cons_of_mem line member)
      cases blank : Text.allBlank line with
      | true =>
          have isBlank : IsBlankLine line := ⟨blank, firstSingle⟩
          obtain ⟨blanks, entries, docs⟩ := ih pending otherSingle areDocs
          rw [group_cons_blank pending line lines isBlank]
          refine ⟨?_, entries, docs⟩
          intro found member
          rcases List.mem_cons.mp member with rfl | member
          · exact isBlank
          · exact blanks found member
      | false =>
          cases doc : isDoc line with
          | true =>
              have isDocLine : IsDocLine line := ⟨blank, doc, firstSingle⟩
              rw [group_cons_doc pending line lines isDocLine]
              refine ih (pending ++ [line]) otherSingle ?_
              intro found member
              rcases List.mem_append.mp member with member | member
              · exact areDocs found member
              · exact List.mem_singleton.mp member ▸ isDocLine
          | false =>
              have header : IsHeaderLine line := ⟨blank, doc, firstSingle⟩
              obtain ⟨blanks, entries, docs⟩ := ih [] otherSingle (by simp)
              rw [group_cons_header pending line lines header]
              refine ⟨by simp, ?_, docs⟩
              intro found member
              rcases List.mem_cons.mp member with rfl | member
              · exact ⟨areDocs, header, blanks⟩
              · exact entries found member

/-- Runs of lines are grouped one after the other. -/
theorem group_append (left right pending : List Text) (closed : (group pending left).docs = [])
    (seam : (group [] right).blanks = []) :
    group pending (left ++ right) =
      ⟨(group pending left).blanks, (group pending left).entries ++ (group [] right).entries,
        (group [] right).docs⟩ := by
  induction left generalizing pending with
  | nil =>
      have none : pending = [] := by simpa [group] using closed
      subst none
      rw [List.nil_append, group, List.nil_append]
      cases found : group [] right with
      | mk blanks entries docs =>
          rw [found] at seam
          subst seam
          rfl
  | cons line left ih =>
      simp only [List.cons_append, group] at closed ⊢
      split at closed
      · next blank => rw [if_pos blank, if_pos blank, ih pending closed]
      · next visible =>
          rw [if_neg visible, if_neg visible]
          split at closed
          · next doc => rw [if_pos doc, if_pos doc, ih _ closed]
          · next notDoc =>
              rw [if_neg notDoc, if_neg notDoc, ih [] closed]
              simp

/-- No documentation is pending behind a run that ends without. -/
theorem docs_group_append (left right pending : List Text)
    (closed : ∀ pending, (group pending right).docs = []) :
    (group pending (left ++ right)).docs = [] := by
  induction left generalizing pending with
  | nil => exact closed pending
  | cons line left ih =>
      rw [List.cons_append, group]
      split
      · exact ih pending
      · split
        · exact ih _
        · exact ih []

/-- A run in the middle may be changed for one with the same groups. -/
theorem group_append_append {left middle other right : List Text}
    (same : group [] middle = group [] other) (closedLeft : (group [] left).docs = [])
    (begun : (group [] middle).blanks = []) (closed : (group [] middle).docs = [])
    (seam : (group [] right).blanks = []) :
    group [] (left ++ middle ++ right) = group [] (left ++ other ++ right) := by
  have firstDocs : (group [] (left ++ middle)).docs = [] := by
    rw [group_append left middle [] closedLeft begun]
    exact closed
  have otherDocs : (group [] (left ++ other)).docs = [] := by
    rw [group_append left other [] closedLeft (same ▸ begun)]
    exact same ▸ closed
  rw [group_append _ right [] firstDocs seam, group_append _ right [] otherDocs seam,
    group_append left middle [] closedLeft begun,
    group_append left other [] closedLeft (same ▸ begun), same]

theorem line_mem_of_mem_entries {lines pending : List Text} {entry : Entry}
    (member : entry ∈ (group pending lines).entries) : entry.line ∈ lines := by
  induction lines generalizing pending with
  | nil => simp [group] at member
  | cons line lines ih =>
      rw [group] at member
      split at member
      · exact List.mem_cons_of_mem line (ih member)
      · split at member
        · exact List.mem_cons_of_mem line (ih member)
        · rcases List.mem_cons.mp member with rfl | later
          · exact List.mem_cons_self
          · exact List.mem_cons_of_mem line (ih later)

/-! ## The lines of a text -/

theorem fields_textOfLines_append (front : List Text) (last : Text)
    (single : ∀ line ∈ front, Text.IsSingleLine line) (singleLast : Text.IsSingleLine last) :
    Text.fields '\n' (Block.textOfLines front ++ last) = front ++ [last] := by
  induction front with
  | nil => exact Text.fields_of_absent '\n' last singleLast
  | cons line front ih =>
      have first : Text.IsSingleLine line := single line List.mem_cons_self
      have others := ih fun later member => single later (List.mem_cons_of_mem line member)
      have shape : Block.textOfLines (line :: front) ++ last =
          line ++ '\n' :: (Block.textOfLines front ++ last) := by
        simp [Block.textOfLines]
      rw [shape, Text.fields_append_separator '\n' line _ first, others, List.cons_append]

/-- A text of ended lines is read line by line. -/
theorem ofText_textOfLines (lines : List Text) (nonempty : lines ≠ [])
    (single : ∀ line ∈ lines, Text.IsSingleLine line) :
    ofText (Block.textOfLines lines) = ⟨blocksOfLines lines, true⟩ := by
  rcases List.eq_nil_or_concat lines with rfl | ⟨front, last, rfl⟩
  · exact absurd rfl nonempty
  · rw [List.concat_eq_append] at single ⊢
    have shape : Block.textOfLines (front ++ [last]) =
        (Block.textOfLines front ++ last) ++ ['\n'] := by
      simp [Block.textOfLines]
    have read : Text.fields '\n' (Block.textOfLines front ++ last) = front ++ [last] := by
      refine fields_textOfLines_append front last ?_ ?_
      · intro line member
        exact single line (List.mem_append_left _ member)
      · exact single last (List.mem_append_right _ List.mem_cons_self)
    rw [ofText, shape, if_neg (by simp), if_pos (by simp), List.dropLast_concat, read]

theorem textOfLines_fields (line : Text) :
    Block.textOfLines (Text.fields '\n' line) = line ++ ['\n'] := by
  induction line with
  | nil => rfl
  | cons c line ih =>
      rw [Text.fields]
      split
      · next same => rw [same, Block.textOfLines, List.flatMap_cons, ← Block.textOfLines, ih]; rfl
      · cases found : Text.fields '\n' line with
        | nil => exact absurd found (Text.fields_ne_nil '\n' line)
        | cons piece pieces =>
            rw [found, Block.textOfLines, List.flatMap_cons] at ih
            rw [Block.textOfLines, List.flatMap_cons, List.cons_append, List.cons_append, ih]
            rfl

/-- A line that holds line feeds is read as several lines. -/
theorem textOfLines_flatMap_fields (lines : List Text) :
    Block.textOfLines (lines.flatMap (Text.fields '\n')) = Block.textOfLines lines := by
  induction lines with
  | nil => rfl
  | cons line lines ih =>
      have first := textOfLines_fields line
      rw [Block.textOfLines] at first ih ⊢
      rw [List.flatMap_cons, List.flatMap_append, first, ih]
      rfl

theorem isSingleLine_of_mem_flatMap_fields {lines : List Text} {line : Text}
    (member : line ∈ lines.flatMap (Text.fields '\n')) : Text.IsSingleLine line := by
  obtain ⟨whole, _, inside⟩ := List.mem_flatMap.mp member
  exact Text.absent_of_mem_fields '\n' whole line inside

/-- The blocks of any text come from single lines. -/
theorem exists_lines_of_ofText (text : Text) :
    ∃ lines, (ofText text).blocks = blocksOfLines lines ∧
      ∀ line ∈ lines, Text.IsSingleLine line := by
  rw [ofText]
  split
  · exact ⟨[], rfl, by simp⟩
  · split
    · exact ⟨_, rfl, Text.absent_of_mem_fields '\n' text.dropLast⟩
    · exact ⟨_, rfl, Text.absent_of_mem_fields '\n' text⟩

end Document

/-- Lines are rendered one by one. -/
theorem Line.fileText_eq (lines : List Line) :
    Line.fileText lines = Block.textOfLines (lines.map Line.render) := by
  simp [Line.fileText, Block.textOfLines, List.flatMap_map]

end TabularModel
