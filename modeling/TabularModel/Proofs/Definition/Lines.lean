import TabularModel.Proofs.Definition.Names
import TabularModel.Proofs.Definition.Nesting
import TabularModel.Prior.Reader

/-!
# Written lines are read back

A line of a definition file begins with a keyword or with the name of a
property. From the written form of such a line its value is read back without
the blanks around it, and a line is not taken for one that begins otherwise.
-/

set_option autoImplicit false

namespace TabularModel

open Document (Entry IsHeaderLine IsBlankLine)

namespace Text

/-- The texts have different characters at one place, so that no continuation of
one begins with the other. -/
def differ : (left right : Text) -> Bool
  | a :: left, b :: right => a != b || differ left right
  | _, _ => false

theorem dropStart?_append (start rest : Text) : dropStart? start (start ++ rest) = some rest := by
  induction start with
  | nil => rfl
  | cons c start ih => rw [List.cons_append, dropStart?, if_pos rfl, ih]

theorem eq_append_of_dropStart? {start text rest : Text} (found : dropStart? start text = some rest) :
    text = start ++ rest := by
  induction start generalizing text with
  | nil => simpa [dropStart?] using found
  | cons mark start ih =>
      cases text with
      | nil => simp [dropStart?] at found
      | cons c text =>
          rw [dropStart?] at found
          split at found
          · next same => rw [ih found, same, List.cons_append]
          · cases found

theorem dropStart?_of_differ {start head : Text} (rest : Text) (different : differ start head = true) :
    dropStart? start (head ++ rest) = none := by
  induction start generalizing head with
  | nil => simp [differ] at different
  | cons mark start ih =>
      cases head with
      | nil => simp [differ] at different
      | cons c head =>
          rw [List.cons_append, dropStart?]
          by_cases same : mark = c
          · rw [if_pos same]
            refine ih ?_
            simpa [differ, same] using different
          · rw [if_neg same]

/-- Trimming keeps everything between two visible characters. -/
theorem trim_append_cons (front back : Text) (first c : Char) (visibleFirst : isBlank first = false)
    (visible : isBlank c = false) :
    trim (first :: (front ++ c :: back)) = first :: (front ++ c :: trimRight back) := by
  rw [trim_cons_of_not_blank _ first visibleFirst, trimRight,
    dropRightWhile_append_cons isBlank front back c visible, trimRight]

end Text

namespace Line

theorem allBlank_tabs (depth : Nat) : Text.allBlank (tabs depth) = true := by
  rw [Text.allBlank, List.all_eq_true]
  intro c member
  rw [List.eq_of_mem_replicate member]
  rfl

theorem isSingleLine_tabs (depth : Nat) : Text.IsSingleLine (tabs depth) := by
  intro member
  exact absurd (List.eq_of_mem_replicate member) (by decide)

theorem tabs_zero : tabs 0 = [] := rfl

end Line

/-- The first character of the text is visible. -/
def BeginsVisibly (text : Text) : Prop :=
  (text.head?.any fun c => !isBlank c) = true

instance (text : Text) : Decidable (BeginsVisibly text) :=
  inferInstanceAs (Decidable (_ = true))

theorem BeginsVisibly.exists_cons {text : Text} (visible : BeginsVisibly text) :
    ∃ c rest, text = c :: rest ∧ isBlank c = false := by
  cases text with
  | nil => exact absurd visible (by decide)
  | cons c rest => exact ⟨c, rest, rfl, by simpa [BeginsVisibly] using visible⟩

/-- The depth of a line is the number of tabs in front of it. -/
theorem BeginsVisibly.depthOf {content : Text} (visible : BeginsVisibly content) (depth : Nat) :
    Block.depthOf (Line.tabs depth ++ content) = depth := by
  obtain ⟨c, rest, rfl, visible⟩ := visible.exists_cons
  have notTab : ∀ next ∈ (c :: rest).head?, (next == '\t') = false := by
    intro next member
    have same : c = next := by simpa using member
    subst same
    by_contra tab
    have isTab : c = '\t' := by simpa using tab
    rw [isTab] at visible
    exact Bool.noConfusion visible
  have tabs : ∀ mark ∈ Line.tabs depth, (mark == '\t') = true := fun mark member => by
    simpa using List.eq_of_mem_replicate member
  rw [Block.depthOf, (Text.takeWhile_dropWhile_append _ _ _ tabs notTab).1]
  exact List.length_replicate

/-- A line that begins a block does so at any depth. -/
theorem Document.IsHeaderLine.tabs {line : Text} (header : IsHeaderLine line) (depth : Nat) :
    IsHeaderLine (Line.tabs depth ++ line) := by
  have blanks := Line.allBlank_tabs depth
  refine ⟨?_, ?_, Text.isSingleLine_append.mpr ⟨Line.isSingleLine_tabs depth, header.single⟩⟩
  · rw [Text.allBlank] at blanks
    rw [Text.allBlank, List.all_append, blanks, Bool.true_and]
    exact header.visible
  · rw [Document.isDoc, Text.trimLeft_append_of_allBlank _ _ blanks]
    exact header.notDoc

/-- What stands behind the tabs of a line that begins a block. -/
structure IsContent (content : Text) : Prop where
  head : (content.head?.any fun c => !isBlank c && c != '/') = true
  single : Text.IsSingleLine content

namespace IsContent

theorem exists_cons {content : Text} (isContent : IsContent content) :
    ∃ c rest, content = c :: rest ∧ isBlank c = false ∧ c ≠ '/' := by
  cases content with
  | nil => exact absurd isContent.head (by simp)
  | cons c rest => exact ⟨c, rest, rfl, by simpa using isContent.head⟩

theorem isHeaderLine {content : Text} (isContent : IsContent content) (depth : Nat) :
    IsHeaderLine (Line.tabs depth ++ content) := by
  obtain ⟨c, rest, rfl, visible, notSlash⟩ := isContent.exists_cons
  have found : Text.trimLeft (Line.tabs depth ++ c :: rest) = c :: rest := by
    rw [Text.trimLeft_append_of_allBlank _ _ (Line.allBlank_tabs depth),
      Text.trimLeft_cons_of_not_blank rest c visible]
  exact Document.isHeaderLine_of_trimLeft found notSlash
    (Text.isSingleLine_append.mpr ⟨Line.isSingleLine_tabs depth, isContent.single⟩)

theorem beginsVisibly {content : Text} (isContent : IsContent content) : BeginsVisibly content := by
  obtain ⟨c, rest, rfl, visible, _⟩ := isContent.exists_cons
  simp [BeginsVisibly, visible]

theorem append {head rest : Text} (isContent : IsContent head) (single : Text.IsSingleLine rest) :
    IsContent (head ++ rest) := by
  obtain ⟨c, others, rfl, visible, notSlash⟩ := isContent.exists_cons
  exact ⟨isContent.head, Text.isSingleLine_append.mpr ⟨isContent.single, single⟩⟩

end IsContent

/-- A property with its value. -/
def propertyContent (name value : Text) : Text :=
  name ++ (": " ++ value)

theorem beginsVisibly_append {head : Text} (visible : BeginsVisibly head) (rest : Text) :
    BeginsVisibly (head ++ rest) := by
  obtain ⟨c, others, rfl, _⟩ := visible.exists_cons
  exact visible

/-- An annotation with its value. -/
def annotationContent (name value : Text) : Text :=
  "annotation " ++ (name ++ (" = " ++ value))

theorem annotationContent_eq (name value : Text) :
    annotationContent name value = "annotation " ++ (name ++ (" = " ++ value)) := rfl

namespace Block

/-! ## Blocks by their first line -/

/-- The entry of a line at a depth, without documentation. -/
def entryAt (depth : Nat) (content : Text) (blanks : List Text) : Entry :=
  ⟨[], Line.tabs depth ++ content, blanks⟩

/-- A line at a depth with the blank lines behind it and the blocks inside. -/
def node (depth : Nat) (content : Text) (blanks : List Text) (kids : List Block) : Block :=
  (entryAt depth content blanks).toBlock kids

theorem text_node (depth : Nat) (content : Text) (blanks : List Text) (kids : List Block) :
    (node depth content blanks kids).text = Text.trim content :=
  Text.trim_append_of_allBlank _ _ (Line.allBlank_tabs depth)

theorem lines_node (depth : Nat) (content : Text) (blanks : List Text) (kids : List Block) :
    (node depth content blanks kids).lines =
      (Line.tabs depth ++ content) :: (blanks ++ linesOfEach kids) := by
  rw [node, lines_toBlock]
  rfl

theorem depth_node {content : Text} (visible : BeginsVisibly content) (depth : Nat)
    (blanks : List Text) (kids : List Block) : (node depth content blanks kids).depth = depth :=
  visible.depthOf depth

theorem entryAt_valid {content : Text} (isContent : IsContent content) (depth : Nat)
    {blanks : List Text} (areBlank : ∀ line ∈ blanks, IsBlankLine line) :
    (entryAt depth content blanks).IsValid :=
  ⟨by simp [entryAt], isContent.isHeaderLine depth, areBlank⟩

theorem isNested_node {content : Text} (isContent : IsContent content) (depth : Nat)
    {blanks : List Text} {kids : List Block} (areBlank : ∀ line ∈ blanks, IsBlankLine line)
    (nested : ∀ kid ∈ kids, kid.IsNested) (deeper : ∀ kid ∈ kids, depth < kid.depth)
    (descending : kids.Pairwise fun left right => right.depth ≤ left.depth) :
    (node depth content blanks kids).IsNested := by
  refine .intro _ kids (entryAt_valid isContent depth areBlank) ?_ descending nested
  intro kid member
  have same : (entryAt depth content blanks).depth = depth := isContent.beginsVisibly.depthOf depth
  rw [same]
  exact deeper kid member

/-- Blocks one level below a line may stand inside it in any order. -/
theorem isNested_node_of_level {content : Text} (isContent : IsContent content) (depth : Nat)
    {blanks : List Text} {kids : List Block} (areBlank : ∀ line ∈ blanks, IsBlankLine line)
    (level : ∀ kid ∈ kids, kid.IsNested ∧ kid.depth = depth + 1) :
    (node depth content blanks kids).IsNested := by
  refine isNested_node isContent depth areBlank (fun kid member => (level kid member).1) ?_ ?_
  · intro kid member
    rw [(level kid member).2]
    omega
  · refine List.pairwise_of_forall_mem_list ?_
    intro left leftMember right rightMember
    rw [(level left leftMember).2, (level right rightMember).2]

/-- A line with blank lines behind it, and nothing inside. -/
theorem isNested_leaf {content : Text} (isContent : IsContent content) (depth : Nat)
    {blanks : List Text} (areBlank : ∀ line ∈ blanks, IsBlankLine line) :
    (node depth content blanks []).IsNested ∧ (node depth content blanks []).depth = depth :=
  ⟨isNested_node_of_level isContent depth areBlank (by simp),
    depth_node isContent.beginsVisibly depth _ _⟩

/-- Setting a property changes the value alone. -/
theorem node_with_propertyLine {content : Text} (visible : BeginsVisibly content) (depth : Nat)
    (name value : Text) (blanks : List Text) (kids : List Block) :
    { node depth content blanks kids with
      line := propertyLine (node depth content blanks kids).depth name value } =
      node depth (propertyContent name value) blanks kids := by
  rw [depth_node visible depth blanks kids]
  simp [propertyLine, propertyContent, node, entryAt, Entry.toBlock]

/-! ## Lines that begin otherwise -/

/-- The text of the line begins with the given one. -/
def Begins (head : Text) (block : Block) : Prop :=
  ∃ rest, block.text = head ++ rest

theorem begins_of_hasHeader {keyword : Text} {block : Block}
    (found : block.hasHeader keyword = true) : block.Begins keyword := by
  rw [hasHeader, header?] at found
  cases rest : Text.dropStart? keyword block.text with
  | none => simp [rest] at found
  | some after => exact ⟨after, Text.eq_append_of_dropStart? rest⟩

theorem begins_self {content : Text} (ends : HasVisibleEnds content) (depth : Nat)
    (blanks : List Text) (kids : List Block) : (node depth content blanks kids).Begins content :=
  ⟨[], by rw [text_node, ends.isTrimmed, List.append_nil]⟩

variable {head : Text} {block : Block}

theorem Begins.header? (begins : block.Begins head) {keyword : Text}
    (different : Text.differ keyword head = true) : block.header? keyword = none := by
  obtain ⟨rest, shape⟩ := begins
  rw [Block.header?, shape, Text.dropStart?_of_differ rest different]

theorem Begins.hasHeader (begins : block.Begins head) {keyword : Text}
    (different : Text.differ keyword head = true) : block.hasHeader keyword = false := by
  rw [Block.hasHeader, begins.header? different]
  rfl

theorem Begins.valueOf? (begins : block.Begins head) {name : Text}
    (different : Text.differ name head = true) : block.valueOf? name = none := by
  obtain ⟨rest, shape⟩ := begins
  rw [Block.valueOf?, shape, Text.dropStart?_of_differ rest different]

theorem Begins.isProperty (begins : block.Begins head) {name : Text}
    (different : Text.differ name head = true) : isProperty name block = false := by
  rw [Block.isProperty, begins.valueOf? different]
  rfl

theorem Begins.tagOf? (begins : block.Begins head)
    (different : Text.differ "lineageTag" head = true) : Prior.tagOf? block = none := by
  rw [Prior.tagOf?, begins.valueOf? different]

theorem Begins.annotationOf? (begins : block.Begins head)
    (different : Text.differ "annotation" head = true) : Prior.annotationOf? block = none := by
  obtain ⟨rest, shape⟩ := begins
  rw [Prior.annotationOf?, shape, Text.dropStart?_of_differ rest different]

/-! ## Properties -/

theorem text_property (name : Text) (depth : Nat) (value : Text) (blanks : List Text)
    (kids : List Block) (visible : BeginsVisibly name) :
    (node depth (propertyContent name value) blanks kids).text =
      name ++ ':' :: Text.trimRight (' ' :: value) := by
  obtain ⟨c, rest, rfl, first⟩ := visible.exists_cons
  rw [text_node]
  exact Text.trim_append_cons rest (' ' :: value) c ':' first rfl

theorem valueOf?_property (name : Text) (depth : Nat) (value : Text) (blanks : List Text)
    (kids : List Block) (visible : BeginsVisibly name) :
    (node depth (propertyContent name value) blanks kids).valueOf? name = some (Text.trim value) := by
  have colon (rest : Text) : Text.trimLeft (':' :: rest) = ':' :: rest :=
    Text.trimLeft_cons_of_not_blank rest ':' rfl
  rw [valueOf?, text_property name depth value blanks kids visible, Text.dropStart?_append]
  simp only [colon]
  rw [Text.trim_trimRight, Text.trim_cons_of_blank value ' ' rfl]

theorem begins_property (name : Text) (depth : Nat) (value : Text) (blanks : List Text)
    (kids : List Block) (visible : BeginsVisibly name) :
    (node depth (propertyContent name value) blanks kids).Begins name :=
  ⟨_, text_property name depth value blanks kids visible⟩

/-- The value of a property is trimmed and stands on one line. -/
theorem valueOf?_eq_some {name value : Text} {block : Block}
    (found : block.valueOf? name = some value) (single : Text.IsSingleLine block.line) :
    Text.IsTrimmed value ∧ Text.IsSingleLine value := by
  rw [valueOf?] at found
  cases start : Text.dropStart? name block.text with
  | none => simp [start] at found
  | some rest =>
      rw [start] at found
      simp only at found
      split at found
      · next after shape =>
          have whole := Text.eq_append_of_dropStart? start
          have same : Text.trim after = value := Option.some.inj found
          refine ⟨same ▸ Text.isTrimmed_trim after, same ▸ Text.IsSingleLine.trim ?_⟩
          intro member
          have inRest : '\n' ∈ Text.trimLeft rest := shape ▸ List.mem_cons_of_mem ':' member
          have inText : '\n' ∈ block.text := by
            rw [whole]
            exact List.mem_append_right _ ((List.dropWhile_sublist _).mem inRest)
          exact single (Text.mem_of_mem_trim inText)
      · cases found

/-! ## Headers -/

theorem text_header (keyword : Text) {rest : Text} (depth : Nat) (blanks : List Text)
    (kids : List Block) (visible : BeginsVisibly keyword)
    (ends : HasVisibleEnds rest) :
    (node depth (keyword ++ ' ' :: rest) blanks kids).text = keyword ++ ' ' :: rest := by
  obtain ⟨c, others, rfl, first⟩ := visible.exists_cons
  have whole : HasVisibleEnds (c :: ((others ++ [' ']) ++ rest)) := ends.cons first
  have shape : c :: others ++ ' ' :: rest = c :: ((others ++ [' ']) ++ rest) := by simp
  rw [text_node, shape]
  exact whole.isTrimmed

theorem header?_header (keyword : Text) {rest : Text} (depth : Nat) (blanks : List Text)
    (kids : List Block) (visible : BeginsVisibly keyword)
    (ends : HasVisibleEnds rest) :
    (node depth (keyword ++ ' ' :: rest) blanks kids).header? keyword = some rest := by
  rw [header?, text_header keyword depth blanks kids visible ends, Text.dropStart?_append]
  have blank : TabularModel.isBlank ' ' = true := rfl
  simp only [blank, if_true]
  rw [Text.trimLeft_cons_of_blank rest ' ' rfl, ends.trimLeft]

/-- A header gives what stands behind its keyword, which may be nothing. -/
theorem header?_header_of_isTrimmed (keyword : Text) {rest : Text} (depth : Nat)
    (blanks : List Text) (kids : List Block) (ends : HasVisibleEnds keyword)
    (visible : BeginsVisibly keyword) (trimmed : Text.IsTrimmed rest) :
    (node depth (keyword ++ ' ' :: rest) blanks kids).header? keyword = some rest := by
  by_cases empty : rest = []
  · subst empty
    obtain ⟨c, others, rfl, first⟩ := visible.exists_cons
    have text : (node depth (c :: others ++ [' ']) blanks kids).text = c :: others := by
      have whole : Text.trim (c :: others) = c :: others := ends.isTrimmed
      rw [Text.trim_cons_of_not_blank others c first] at whole
      rw [text_node, List.cons_append, Text.trim_cons_of_not_blank _ c first, Text.trimRight,
        Text.dropRightWhile_append_of_all TabularModel.isBlank others [' '] rfl]
      exact whole
    have nothing := Text.dropStart?_append (c :: others) []
    rw [List.append_nil] at nothing
    rw [header?, text, nothing]
  · exact header?_header keyword depth blanks kids visible (.of_isTrimmed trimmed empty)

/-- What a header gives is trimmed and stands on one line. -/
theorem header?_eq_some {keyword value : Text} {block : Block}
    (found : block.header? keyword = some value) (single : Text.IsSingleLine block.line) :
    Text.IsTrimmed value ∧ Text.IsSingleLine value := by
  rw [header?] at found
  cases start : Text.dropStart? keyword block.text with
  | none => simp [start] at found
  | some rest =>
      have whole := Text.eq_append_of_dropStart? start
      have taken : value = Text.trimLeft rest := by
        cases rest with
        | nil =>
            rw [start] at found
            exact (Option.some.inj found).symm
        | cons c rest =>
            rw [start] at found
            simp only at found
            split at found
            · exact (Option.some.inj found).symm
            · cases found
      have parts := List.takeWhile_append_dropWhile (p := TabularModel.isBlank) (l := rest)
      refine ⟨?_, ?_⟩
      · rcases Text.trimLeft_eq_nil_or_cons rest with ⟨none, _⟩ | ⟨c, after, shape, visible⟩
        · rw [taken, none]
          rfl
        · -- The rest behind its first visible character ends as the trimmed line does.
          have trimmed : Text.trimRight block.text = block.text := Text.trimRight_trimRight _
          have split : block.text = (keyword ++ rest.takeWhile TabularModel.isBlank) ++ c :: after := by
            rw [whole, List.append_assoc, ← shape]
            exact congrArg (keyword ++ ·) parts.symm
          rw [split, Text.trimRight, Text.dropRightWhile_append_cons _ _ after c visible] at trimmed
          have kept := List.append_cancel_left trimmed
          rw [taken, shape, Text.IsTrimmed, Text.trim_cons_of_not_blank after c visible]
          exact kept
      · intro member
        rw [taken] at member
        have inText : '\n' ∈ block.text := by
          rw [whole]
          exact List.mem_append_right _ ((List.dropWhile_sublist _).mem member)
        exact single (Text.mem_of_mem_trim inText)

theorem begins_header (keyword : Text) {rest : Text} (depth : Nat) (blanks : List Text)
    (kids : List Block) (visible : BeginsVisibly keyword)
    (ends : HasVisibleEnds rest) : (node depth (keyword ++ ' ' :: rest) blanks kids).Begins keyword :=
  ⟨_, text_header keyword depth blanks kids visible ends⟩

/-! ## Annotations -/

theorem text_annotation (depth : Nat) (name value : Text) (blanks : List Text) (kids : List Block) :
    (node depth (annotationContent name value) blanks kids).text =
      "annotation" ++ ' ' :: (name ++ ' ' :: '=' :: Text.trimRight (' ' :: value)) := by
  have shape : annotationContent name value =
      'a' :: ((("nnotation " : Text) ++ name ++ (" " : Text)) ++ '=' :: ' ' :: value) := by
    unfold annotationContent
    simp
  rw [text_node, shape, Text.trim_append_cons _ _ 'a' '=' rfl rfl]
  simp

theorem begins_annotation (depth : Nat) (name value : Text) (blanks : List Text)
    (kids : List Block) :
    (node depth (annotationContent name value) blanks kids).Begins "annotation" :=
  ⟨_, text_annotation depth name value blanks kids⟩

theorem hasHeader_annotation (depth : Nat) (name value : Text) (blanks : List Text)
    (kids : List Block) :
    (node depth (annotationContent name value) blanks kids).hasHeader "annotation" = true := by
  have blank : TabularModel.isBlank ' ' = true := rfl
  rw [hasHeader, header?, text_annotation, Text.dropStart?_append]
  simp [blank]

theorem annotationOf?_annotation (name : Text) (depth : Nat) (value : Text) (blanks : List Text)
    (kids : List Block) (nonempty : name ≠ [])
    (plain : (name.all fun c => !TabularModel.isBlank c && c != '=') = true) :
    Prior.annotationOf? (node depth (annotationContent name value) blanks kids) =
      some (name, Text.trim value) := by
  have inside : ∀ c ∈ name, (!TabularModel.isBlank c && c != '=') = true :=
    List.all_eq_true.mp plain
  obtain ⟨taken, left⟩ := Text.takeWhile_dropWhile_append
    (fun c => !TabularModel.isBlank c && c != '=') name
    (' ' :: '=' :: Text.trimRight (' ' :: value)) inside (by simp; decide)
  have visible : Text.trimLeft (' ' :: (name ++ ' ' :: '=' :: Text.trimRight (' ' :: value))) =
      name ++ ' ' :: '=' :: Text.trimRight (' ' :: value) := by
    obtain ⟨c, rest, rfl⟩ := List.exists_cons_of_ne_nil nonempty
    rw [Text.trimLeft_cons_of_blank _ ' ' rfl, List.cons_append,
      Text.trimLeft_cons_of_not_blank _ c]
    have first := inside c List.mem_cons_self
    rw [Bool.and_eq_true] at first
    simpa using first.1
  have equals : Text.trimLeft (' ' :: '=' :: Text.trimRight (' ' :: value)) =
      '=' :: Text.trimRight (' ' :: value) := by
    rw [Text.trimLeft_cons_of_blank _ ' ' rfl, Text.trimLeft_cons_of_not_blank _ '=' rfl]
  have blank : TabularModel.isBlank ' ' = true := rfl
  have given : name.isEmpty = false := by simpa using nonempty
  rw [Prior.annotationOf?, text_annotation, Text.dropStart?_append]
  simp only [visible, taken, left, equals, blank, given]
  rw [Text.trim_trimRight, Text.trim_cons_of_blank value ' ' rfl]
  rfl

end Block

/-! ## Files of lines -/

/-- A file whose first line begins a block at no depth, and whose last lines begin a
block and are blank, is read as nested blocks at no depth. The lines in it may hold
line feeds. -/
theorem Document.exists_ofText_fileText {head content : Text} {depth : Nat} {lines : List Line}
    (begins : IsContent head) (ends : IsContent content)
    (opening : ∃ rest others, lines = line (head ++ rest) :: others)
    (closing : ∃ front, lines = front ++ [.text depth content, .blank]) :
    ∃ blocks, Document.ofText (Line.fileText lines) = ⟨blocks, true⟩ ∧ blocks ≠ [] ∧
      ∀ block ∈ blocks, block.IsNested ∧ block.depth = 0 := by
  obtain ⟨rest, others, opening⟩ := opening
  obtain ⟨front, closing⟩ := closing
  let texts := (lines.map Line.render).flatMap (Text.fields '\n')
  have single : ∀ text ∈ texts, Text.IsSingleLine text :=
    fun _ => Document.isSingleLine_of_mem_flatMap_fields
  obtain ⟨first, later, begun, header⟩ : ∃ first later, texts = first :: later ∧ IsContent first := by
    obtain ⟨field, behind, cut⟩ := Text.fields_append_of_absent '\n' head rest begins.single
    have rendered : (line (head ++ rest)).render = head ++ rest := rfl
    have shape : texts = (head ++ field) ::
        (behind ++ (others.map Line.render).flatMap (Text.fields '\n')) := by
      simp only [texts]
      rw [opening, List.map_cons, List.flatMap_cons, rendered, cut]
      rfl
    have own := single (head ++ field) (shape ▸ List.mem_cons_self)
    exact ⟨_, _, shape, begins.append (Text.isSingleLine_append.mp own).2⟩
  have closed : (Document.group [] texts).docs = [] := by
    have last := ends.isHeaderLine depth
    have shape : texts = (front.map Line.render).flatMap (Text.fields '\n') ++
        [Line.tabs depth ++ content, []] := by
      have cut : Text.fields '\n' (Line.tabs depth ++ content) = [Line.tabs depth ++ content] :=
        Text.fields_of_absent '\n' _ last.single
      simp only [texts, closing, List.map_append, List.map_cons, List.map_nil, Line.render,
        List.flatMap_append, List.flatMap_cons, List.flatMap_nil, List.append_nil, cut]
      rfl
    rw [shape]
    refine Document.docs_group_append _ _ [] fun pending => ?_
    rw [Document.group_cons_header pending _ _ last]
    rfl
  have start : Block.depthOf first = 0 := header.beginsVisibly.depthOf 0
  have opens : IsHeaderLine first := header.isHeaderLine 0
  rw [begun] at single closed
  refine ⟨Document.blocksOfLines (first :: later), ?_, ?_,
    Document.isNested_of_mem_blocksOfLines single opens start closed⟩
  · rw [Line.fileText_eq, ← Document.textOfLines_flatMap_fields]
    simp only [texts] at begun
    rw [begun]
    exact Document.ofText_textOfLines _ (List.cons_ne_nil _ _) single
  · rw [Document.blocksOfLines, Document.group_cons_header [] _ _ opens, List.foldr_cons]
    simp [Document.attach]

end TabularModel
