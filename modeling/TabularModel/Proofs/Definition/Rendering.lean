import TabularModel.Proofs.Definition.Nesting
import Mathlib.Data.List.Chain

/-!
# Rendering what has been read

A text that is read as blocks is rendered again line by line. All its lines come back,
and those that begin a block in their order. Only documentation may change its place:
where a blank line follows, it is held back until the next block begins. So a text
comes back as it was unless documentation stands loose in it, and what has been
rendered once is read as the same blocks.
-/

set_option autoImplicit false

namespace TabularModel

namespace Document

/-- The lines of a text, of which the last one need not be ended. -/
def linesOf (text : Text) : List Text :=
  if text = [] then [] else Text.fields '\n' (Text.dropFinal '\n' text)

/-- Whether the last line of a text is ended. -/
def endsLine (text : Text) : Bool :=
  text.getLast? == some '\n'

/-- Documentation stands loose if a blank line comes before what it belongs to. -/
def HasLooseDocs (lines : List Text) : Prop :=
  ∃ front doc docs blank back, lines = front ++ doc :: (docs ++ blank :: back) ∧
    isDoc doc = true ∧ (∀ line ∈ docs, isDoc line = true) ∧ Text.allBlank blank = true

/-- Whether a line is neither blank nor documentation. -/
def beginsBlock (line : Text) : Bool :=
  !Text.allBlank line && !isDoc line

/-- A text has the lines of another one, and is read in the same way. -/
structure Rearranges (text rearranged : Text) : Prop where
  lines : (linesOf rearranged).Perm (linesOf text)
  ended : endsLine rearranged = endsLine text
  begins : (linesOf rearranged).filter beginsBlock = (linesOf text).filter beginsBlock
  read : ofText rearranged = ofText text

theorem allBlank_eq_false_of_isDoc {line : Text} (doc : isDoc line = true) :
    Text.allBlank line = false := by
  by_contra blank
  have left := Text.trimLeft_append_of_allBlank line [] (by simpa using blank)
  rw [List.append_nil] at left
  rw [isDoc, left] at doc
  exact Bool.noConfusion doc

/-! ## Texts and their lines -/

/-- The text of some lines, of which the last one may be left unended. -/
def textOf (lines : List Text) (ended : Bool) : Text :=
  if ended then Block.textOfLines lines else (Block.textOfLines lines).dropLast

/-- Lines that a text may be cut into. A last line that is empty has to be ended. -/
structure IsCut (lines : List Text) (ended : Bool) : Prop where
  single : ∀ line ∈ lines, Text.IsSingleLine line
  nonempty : ended = true -> lines ≠ []
  last : ended = false -> lines.getLast? ≠ some []

theorem dropFinal_of_endsLine {text : Text} (ended : endsLine text = true) :
    Text.dropFinal '\n' text ++ ['\n'] = text := by
  have last : text.getLast? = some '\n' := by simpa [endsLine] using ended
  rw [Text.dropFinal, if_pos last, List.dropLast_append_getLast? '\n' last]

theorem dropFinal_of_not_endsLine {text : Text} (ended : endsLine text = false) :
    Text.dropFinal '\n' text = text := by
  rw [Text.dropFinal, if_neg]
  simpa [endsLine] using ended

theorem ofText_eq (text : Text) : ofText text = ⟨blocksOfLines (linesOf text), endsLine text⟩ := by
  rw [ofText, linesOf]
  split
  · next empty =>
      rw [empty]
      rfl
  · split
    · next last =>
        have ended : endsLine text = true := by simp [endsLine, last]
        rw [Text.dropFinal, if_pos last, ended]
    · next last =>
        have ended : endsLine text = false := by simpa [endsLine] using last
        rw [dropFinal_of_not_endsLine ended, ended]

/-- A text is put together from its lines. -/
theorem textOf_linesOf (text : Text) : textOf (linesOf text) (endsLine text) = text := by
  rw [textOf, linesOf]
  by_cases empty : text = []
  · rw [empty]
    rfl
  · rw [if_neg empty, textOfLines_fields]
    cases ended : endsLine text with
    | true => rw [if_pos rfl, dropFinal_of_endsLine ended]
    | false => rw [if_neg Bool.false_ne_true, dropFinal_of_not_endsLine ended, List.dropLast_concat]

theorem isCut_linesOf (text : Text) : IsCut (linesOf text) (endsLine text) := by
  rw [linesOf]
  by_cases empty : text = []
  · rw [empty]
    exact ⟨by simp, by simp [endsLine], by simp⟩
  · rw [if_neg empty]
    refine ⟨Text.absent_of_mem_fields '\n' _, fun _ => Text.fields_ne_nil '\n' _, ?_⟩
    -- Behind the last line feed of an unended text something is left.
    intro unended last
    have whole := textOf_linesOf text
    rw [textOf, linesOf, if_neg empty, unended, if_neg Bool.false_ne_true] at whole
    obtain ⟨front, shape⟩ := List.getLast?_eq_some_iff.mp last
    rw [shape, Block.textOfLines, List.flatMap_append, ← Block.textOfLines, List.flatMap_singleton,
      List.nil_append, List.dropLast_concat] at whole
    rcases List.eq_nil_or_concat front with none | ⟨others, line, concat⟩
    · rw [none] at whole
      exact empty whole.symm
    · rw [concat, List.concat_eq_append, Block.textOfLines, List.flatMap_append,
        List.flatMap_singleton] at whole
      rw [← whole, endsLine] at unended
      simp at unended

/-- The lines of a text that is put together from lines are these lines. -/
theorem IsCut.linesOf_textOf {lines : List Text} {ended : Bool} (cut : IsCut lines ended) :
    linesOf (textOf lines ended) = lines ∧ endsLine (textOf lines ended) = ended := by
  rcases List.eq_nil_or_concat lines with rfl | ⟨front, last, rfl⟩
  · cases ended with
    | true => exact absurd rfl (cut.nonempty rfl)
    | false => exact ⟨rfl, rfl⟩
  · rw [List.concat_eq_append] at cut ⊢
    have shape : Block.textOfLines (front ++ [last]) =
        (Block.textOfLines front ++ last) ++ ['\n'] := by
      simp [Block.textOfLines]
    have fields : Text.fields '\n' (Block.textOfLines front ++ last) = front ++ [last] :=
      fields_textOfLines_append front last
        (fun line member => cut.single line (List.mem_append_left _ member))
        (cut.single last (List.mem_append_right _ List.mem_cons_self))
    cases ended with
    | true =>
        have ends : endsLine (Block.textOfLines (front ++ [last])) = true := by
          simp [shape, endsLine]
        have nonempty : Block.textOfLines (front ++ [last]) ≠ [] := by simp [shape]
        rw [textOf, if_pos rfl, linesOf, if_neg nonempty, ends]
        refine ⟨?_, rfl⟩
        rw [List.append_cancel_right ((dropFinal_of_endsLine ends).trans shape), fields]
    | false =>
        have visible : last ≠ [] := fun empty => cut.last rfl (by simp [empty])
        have nonempty : Block.textOfLines front ++ last ≠ [] :=
          List.append_ne_nil_of_right_ne_nil _ visible
        have ends : endsLine (Block.textOfLines front ++ last) = false := by
          have single := cut.single last (List.mem_append_right _ List.mem_cons_self)
          rw [endsLine, List.getLast?_append_of_ne_nil _ visible, beq_eq_false_iff_ne]
          exact fun found => single (List.mem_of_getLast? found)
        rw [textOf, if_neg Bool.false_ne_true, shape, List.dropLast_concat, linesOf, if_neg nonempty,
          dropFinal_of_not_endsLine ends, fields, ends]
        exact ⟨rfl, rfl⟩

/-! ## Lines in their groups -/

theorem isDoc_of_mem_append {pending : List Text} {line : Text}
    (docs : ∀ other ∈ pending, isDoc other = true) (doc : isDoc line = true) :
    ∀ other ∈ pending ++ [line], isDoc other = true := by
  intro other member
  rcases List.mem_append.mp member with earlier | last
  · exact docs other earlier
  · rw [List.mem_singleton.mp last, doc]

/-- The lines of all groups in the order in which they are rendered. -/
def Entries.lines (grouped : Entries) : List Text :=
  grouped.blanks ++ (grouped.entries.flatMap Entry.lines ++ grouped.docs)

theorem linesOfEach_blocksOfLines (lines : List Text) :
    Block.linesOfEach (blocksOfLines lines) = (group [] lines).lines := by
  rw [blocksOfLines, Block.linesOfEach_append, Block.linesOfEach_append,
    Block.linesOfEach_map_ofLine, Block.linesOfEach_map_ofLine, ← nest, linesOfEach_nest,
    Entries.lines, List.append_assoc]

theorem render_ofText_eq (text : Text) :
    (ofText text).render = textOf (group [] (linesOf text)).lines (endsLine text) := by
  rw [ofText_eq, render, Document.lines, linesOfEach_blocksOfLines]
  rfl

section

variable (pending : List Text) {line : Text} (lines : List Text)

theorem lines_group_cons_of_blank (blank : Text.allBlank line = true) :
    (group pending (line :: lines)).lines = line :: (group pending lines).lines := by
  rw [group, if_pos blank]
  rfl

theorem lines_group_cons_of_doc (doc : isDoc line = true) :
    (group pending (line :: lines)).lines = (group (pending ++ [line]) lines).lines := by
  have visible : ¬Text.allBlank line = true := by simp [allBlank_eq_false_of_isDoc doc]
  rw [group, if_neg visible, if_pos doc]

theorem lines_group_cons_of_begins (begins : beginsBlock line = true) :
    (group pending (line :: lines)).lines = pending ++ line :: (group [] lines).lines := by
  have kinds : ¬Text.allBlank line = true ∧ ¬isDoc line = true := by
    simpa [beginsBlock] using begins
  rw [group, if_neg kinds.1, if_neg kinds.2]
  simp [Entries.lines, Entry.lines]

end

/-- A line is blank, or documentation, or begins a block. -/
theorem cases_line (line : Text) :
    Text.allBlank line = true ∨ isDoc line = true ∨ beginsBlock line = true := by
  cases blank : Text.allBlank line <;> cases doc : isDoc line <;> simp [beginsBlock, blank, doc]

/-- Grouping loses no line. -/
theorem perm_lines_group (pending lines : List Text) :
    (group pending lines).lines.Perm (pending ++ lines) := by
  induction lines generalizing pending with
  | nil => simp [group, Entries.lines]
  | cons line lines ih =>
      rcases cases_line line with blank | doc | begins
      · rw [lines_group_cons_of_blank pending lines blank]
        exact ((ih pending).cons line).trans List.perm_middle.symm
      · rw [lines_group_cons_of_doc pending lines doc]
        simpa using ih (pending ++ [line])
      · rw [lines_group_cons_of_begins pending lines begins]
        exact ((ih []).cons line).append_left pending

theorem lines_group_eq_nil_iff (pending lines : List Text) :
    (group pending lines).lines = [] ↔ pending ++ lines = [] := by
  rw [← List.length_eq_zero_iff, (perm_lines_group pending lines).length_eq,
    List.length_eq_zero_iff]

theorem blocksOfLines_eq_nil_iff (lines : List Text) : blocksOfLines lines = [] ↔ lines = [] := by
  rw [← linesOfEach_eq_nil_iff, linesOfEach_blocksOfLines, lines_group_eq_nil_iff, List.nil_append]

/-- Grouping keeps the order of the lines that begin a block. -/
theorem filter_beginsBlock_group (pending lines : List Text)
    (docs : ∀ line ∈ pending, isDoc line = true) :
    (group pending lines).lines.filter beginsBlock = lines.filter beginsBlock := by
  have silent : pending.filter beginsBlock = [] := by
    refine List.filter_eq_nil_iff.mpr fun line member => ?_
    simp [beginsBlock, docs line member]
  induction lines generalizing pending with
  | nil => simpa [group, Entries.lines] using silent
  | cons line lines ih =>
      rcases cases_line line with blank | doc | begins
      · rw [lines_group_cons_of_blank pending lines blank, List.filter_cons, List.filter_cons,
          ih pending docs silent]
      · rw [lines_group_cons_of_doc pending lines doc,
          ih (pending ++ [line]) (isDoc_of_mem_append docs doc)]
        · simp [beginsBlock, doc]
        · simp [silent, beginsBlock, doc]
      · rw [lines_group_cons_of_begins pending lines begins, List.filter_append, silent,
          List.nil_append, List.filter_cons, List.filter_cons, ih [] (by simp) rfl]

/-- A blank line that comes last was the last one before. -/
theorem getLast?_of_getLast?_group (pending : List Text) {lines : List Text} {blank : Text}
    (docs : ∀ line ∈ pending, isDoc line = true) (isBlank : Text.allBlank blank = true)
    (last : (group pending lines).lines.getLast? = some blank) : lines.getLast? = some blank := by
  induction lines generalizing pending with
  | nil =>
      have member : blank ∈ pending :=
        List.mem_of_getLast? (by simpa [group, Entries.lines] using last)
      rw [allBlank_eq_false_of_isDoc (docs blank member)] at isBlank
      cases isBlank
  | cons line lines ih =>
      -- Among the later lines it is the last one by induction, and else it is this line.
      have behind (waiting : List Text) (areDocs : ∀ other ∈ waiting, isDoc other = true)
          (found : (group waiting lines).lines.getLast? = some blank) :
          (line :: lines).getLast? = some blank := by
        rw [List.getLast?_cons, ih waiting areDocs found, Option.getD_some]
      rcases cases_line line with first | doc | begins
      · rw [lines_group_cons_of_blank pending lines first, List.getLast?_cons] at last
        cases others : (group pending lines).lines.getLast? with
        | some other =>
            rw [others, Option.getD_some] at last
            exact behind pending docs (others.trans last)
        | none =>
            rw [others, Option.getD_none] at last
            rw [List.getLast?_eq_none_iff, lines_group_eq_nil_iff, List.append_eq_nil_iff] at others
            rw [others.2]
            exact last
      · rw [lines_group_cons_of_doc pending lines doc] at last
        exact behind (pending ++ [line]) (isDoc_of_mem_append docs doc) last
      · rw [lines_group_cons_of_begins pending lines begins,
          List.getLast?_append_of_ne_nil _ (List.cons_ne_nil _ _), List.getLast?_cons] at last
        cases others : (group [] lines).lines.getLast? with
        | some other =>
            rw [others, Option.getD_some] at last
            exact behind [] (by simp) (others.trans last)
        | none =>
            rw [others, Option.getD_none] at last
            rw [beginsBlock, Option.some.inj last, isBlank] at begins
            cases begins

theorem IsCut.group {lines : List Text} {ended : Bool} (cut : IsCut lines ended) :
    IsCut (Document.group [] lines).lines ended := by
  refine ⟨fun line member => cut.single line ((perm_lines_group [] lines).subset member), ?_, ?_⟩
  · intro isEnded none
    exact cut.nonempty isEnded ((lines_group_eq_nil_iff [] lines).mp none)
  · intro unended last
    exact cut.last unended (getLast?_of_getLast?_group [] (by simp) rfl last)

/-- Lines that have been grouped are grouped in the same way. -/
theorem group_lines_group {lines : List Text} (single : ∀ line ∈ lines, Text.IsSingleLine line) :
    group [] (group [] lines).lines = group [] lines := by
  obtain ⟨blanks, entries, docs⟩ := group_valid lines [] single (by simp)
  have pending : group [] (group [] lines).docs = ⟨[], [], (group [] lines).docs⟩ := by
    have all := group_append_docs _ [] [] docs
    rw [List.append_nil] at all
    exact all
  have grouped := group_flatMap_lines _ entries
  rw [Entries.lines, group_append_blanks _ _ _ blanks,
    group_append _ _ _ (by rw [grouped]) (by rw [pending]), grouped, pending]
  simp

/-! ## Loose documentation -/

/-- Whether a line may stand in front of another one that is not blank. -/
def MayPrecede (line next : Text) : Prop :=
  isDoc line = true -> Text.allBlank next = false

theorem isChain_of_isDoc {docs : List Text} (each : ∀ line ∈ docs, isDoc line = true) :
    docs.IsChain MayPrecede := by
  have pairs : docs.Pairwise MayPrecede :=
    List.pairwise_of_forall_mem_list fun _ _ next member _ =>
      allBlank_eq_false_of_isDoc (each next member)
  exact pairs.isChain

/-- Documentation stands loose where it is followed by a blank line. -/
theorem hasLooseDocs_iff (lines : List Text) :
    HasLooseDocs lines ↔ ¬lines.IsChain MayPrecede := by
  rw [List.isChain_iff_forall_rel_of_append_cons_cons]
  constructor
  · rintro ⟨front, doc, docs, blank, back, rfl, isDocLine, areDocs, isBlank⟩ settled
    -- The last line of documentation stands right in front of the blank one.
    obtain ⟨others, last, shape, isLast⟩ : ∃ others last, doc :: docs = others ++ [last] ∧
        isDoc last = true := by
      rcases List.eq_nil_or_concat docs with rfl | ⟨more, last, rfl⟩
      · exact ⟨[], doc, rfl, isDocLine⟩
      · rw [List.concat_eq_append] at areDocs ⊢
        exact ⟨doc :: more, last, rfl, areDocs last (by simp)⟩
    have seam : front ++ doc :: (docs ++ blank :: back) =
        (front ++ others) ++ last :: blank :: back := by
      rw [← List.cons_append, shape]
      simp
    rw [settled seam isLast] at isBlank
    cases isBlank
  · intro unsettled
    simp only [MayPrecede, not_forall, Bool.not_eq_false] at unsettled
    obtain ⟨doc, blank, front, back, shape, isDocLine, isBlank⟩ := unsettled
    exact ⟨front, doc, [], blank, back, shape, isDocLine, by simp, isBlank⟩

/-- Grouped lines are in their order if no documentation stands loose. -/
theorem lines_group_eq_iff (pending lines : List Text)
    (docs : ∀ line ∈ pending, isDoc line = true) :
    (group pending lines).lines = pending ++ lines ↔ (pending ++ lines).IsChain MayPrecede := by
  induction lines generalizing pending with
  | nil =>
      rw [List.append_nil]
      exact iff_of_true (by simp [group, Entries.lines]) (isChain_of_isDoc docs)
  | cons line lines ih =>
      rcases cases_line line with blank | doc | begins
      · rw [lines_group_cons_of_blank pending lines blank]
        rcases List.eq_nil_or_concat pending with rfl | ⟨others, last, rfl⟩
        · have free : ∀ next ∈ lines.head?, MayPrecede line next := fun _ _ doc => by
            rw [allBlank_eq_false_of_isDoc doc] at blank
            cases blank
          rw [List.nil_append, List.isChain_cons, List.cons_inj_right, and_iff_right free]
          exact ih [] docs
        · rw [List.concat_eq_append] at docs ⊢
          have isDocLine : isDoc last = true := docs last (by simp)
          refine iff_of_false ?_ ?_
          · intro same
            have first : line ∈ others ++ [last] := by
              cases others with
              | nil => exact (List.cons.inj same).1 ▸ List.mem_cons_self
              | cons other others => exact (List.cons.inj same).1 ▸ List.mem_cons_self
            rw [allBlank_eq_false_of_isDoc (docs line first)] at blank
            cases blank
          · intro settled
            have seam := (List.isChain_append.mp settled).2.2 last (by simp) line rfl isDocLine
            rw [seam] at blank
            cases blank
      · rw [lines_group_cons_of_doc pending lines doc]
        simpa using ih (pending ++ [line]) (isDoc_of_mem_append docs doc)
      · rw [lines_group_cons_of_begins pending lines begins, List.append_cancel_left_eq,
          List.cons_inj_right, List.isChain_append, List.isChain_cons]
        have kinds : Text.allBlank line = false ∧ isDoc line = false := by
          simpa [beginsBlock] using begins
        have free : ∀ next ∈ lines.head?, MayPrecede line next := fun _ _ doc => by
          rw [kinds.2] at doc
          cases doc
        have seam : ∀ last ∈ pending.getLast?, ∀ next ∈ (line :: lines).head?,
            MayPrecede last next := by
          intro last _ next member _
          rw [← Option.some.inj member]
          exact kinds.1
        rw [and_iff_right (isChain_of_isDoc docs), and_iff_left seam, and_iff_right free]
        exact ih [] (by simp)

/-! ## Texts that are read and rendered -/

/-- A text is rendered as it was read unless documentation stands loose in it. In any
case the rendered text has the lines of the text, and is read as the same document. -/
theorem render_ofText (text : Text) :
    ((ofText text).render = text ↔ ¬HasLooseDocs (linesOf text)) ∧
      Rearranges text (ofText text).render := by
  have cut := isCut_linesOf text
  obtain ⟨lines, ended⟩ := cut.group.linesOf_textOf
  rw [← render_ofText_eq] at lines ended
  have whole := lines_group_eq_iff [] (linesOf text) (by simp)
  rw [List.nil_append] at whole
  refine ⟨?_, ?_, ended, ?_, ?_⟩
  · rw [hasLooseDocs_iff, not_not, ← whole]
    constructor
    · intro same
      rw [← lines, same]
    · intro same
      rw [render_ofText_eq, same, textOf_linesOf]
  · rw [lines]
    exact perm_lines_group [] (linesOf text)
  · rw [lines]
    exact filter_beginsBlock_group [] (linesOf text) (by simp)
  · rw [ofText_eq, lines, ended, ofText_eq text, blocksOfLines, blocksOfLines,
      group_lines_group cut.single]

/-- Documentation in front of a blank line comes back behind it. -/
example : (ofText (Block.textOfLines ["table A", "/// about", "", "\tcolumn b"])).render =
    Block.textOfLines ["table A", "", "/// about", "\tcolumn b"] := by
  decide +kernel

end Document

end TabularModel
