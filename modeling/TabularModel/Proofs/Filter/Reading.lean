import TabularModel.Filter.Document
import TabularModel.Proofs.Markup.Event

/-!
# Reading piece by piece

A filter is read from the events of its document. Of each piece of the document it is said
what becomes of the reading behind it: an element is attached when it ends, and what fills
the space between elements leaves the reading as it is.
-/

set_option autoImplicit false

namespace TabularModel

namespace Filter

open Markup (Event Tag WrittenTag)

namespace Frame

theorem attribute?_eq (tag : WrittenTag) (key : Text) :
    attribute? tag.tag key = .ok (tag.value? key) := by
  rw [attribute?, tag.attribute?_tag]
  rfl

/-- The local names that the reader of filters knows. -/
def knownNames : List Text :=
  ["entity", "link-entity", "filter", "condition", "value"]

theorem ofTag_of_unknown {tag : Tag} (unknown : tag.localName ∉ knownNames) :
    ofTag tag = .ok .other := by
  simp only [knownNames, List.mem_cons, List.not_mem_nil, or_false, not_or] at unknown
  obtain ⟨noEntity, noLink, noFilter, noCondition, noValue⟩ := unknown
  simp only [ofTag, noEntity, noLink, noFilter, noCondition, noValue, if_false]

def isValue : Frame -> Bool
  | .value _ => true
  | _ => false

end Frame

namespace Reading

/-- What a reading comes to with the events of the rest of the document. -/
def resume (reading : Reading) (pending : List Event × Option Markup.Fault) :
    Except ReadFault Query := do
  let last <- reading.run pending.1
  match pending.2 with
  | some fault => throw (.markup fault)
  | none => last.finish

/-- Reads the rest of a document inside the elements with the given names. -/
def read (reading : Reading) (elements : List Text) (rest : Text) : Except ReadFault Query :=
  reading.resume (Markup.eventsWithin elements rest)

theorem resume_behind (reading : Reading) (event : Event)
    (pending : List Event × Option Markup.Fault) :
    reading.resume (Markup.behind event pending) = reading.step event >>= (·.resume pending) := by
  rw [resume, Markup.behind, run]
  cases reading.step event with
  | error fault => rfl
  | ok next => rfl

variable (reading : Reading) (elements : List Text)

/-! ## Tags -/

theorem read_start (tag : WrittenTag) (rest : Text) :
    reading.read elements ('<' :: (tag.content ++ '>' :: rest)) =
      Frame.ofTag tag.tag >>= fun frame =>
        (reading.within frame reading.opened).read (tag.name :: elements) rest := by
  rw [read, Markup.eventsWithin_start, resume_behind, step]
  cases Frame.ofTag tag.tag with
  | error fault => rfl
  | ok frame => rfl

theorem read_empty (tag : WrittenTag) (rest : Text) :
    reading.read elements ('<' :: (tag.content ++ '/' :: '>' :: rest)) =
      Frame.ofTag tag.tag >>= fun frame =>
        reading.attach frame >>= (·.read elements rest) := by
  rw [read, Markup.eventsWithin_empty, resume_behind, step]
  cases Frame.ofTag tag.tag with
  | error fault => rfl
  | ok frame => rfl

theorem read_ending (tag : WrittenTag) (frame : Frame) (rest : Text) :
    (reading.within frame reading.opened).read (tag.name :: elements)
        ('<' :: '/' :: (tag.name ++ (tag.closing ++ '>' :: rest))) =
      reading.attach frame >>= (·.read elements rest) := by
  rw [read, Markup.eventsWithin_ending tag.isName tag.blankClosing, resume_behind]
  rfl

variable {reading elements} {frame last : Frame} {tag : WrittenTag}

/-- An element that is one tag is attached at once. -/
theorem read_alone (opens : Frame.ofTag tag.tag = .ok frame) (rest : Text) :
    reading.read elements (tag.alone ++ rest) = reading.attach frame >>= (·.read elements rest) := by
  have shape : tag.alone ++ rest = '<' :: (tag.content ++ '/' :: '>' :: rest) := by
    simp [WrittenTag.alone]
  rw [shape, read_empty, opens]
  rfl

/-- An element with content is attached with what its content has made of it. -/
theorem read_around {next : Reading} {inside : Text} (opens : Frame.ofTag tag.tag = .ok frame)
    (filled : ∀ behind, (reading.within frame reading.opened).read (tag.name :: elements)
        (inside ++ '<' :: behind) =
      (next.within last next.opened).read (tag.name :: elements) ('<' :: behind))
    (rest : Text) :
    reading.read elements (tag.around inside ++ rest) =
      next.attach last >>= (·.read elements rest) := by
  have shape : tag.around inside ++ rest = '<' :: (tag.content ++
      '>' :: (inside ++ '<' :: '/' :: (tag.name ++ (tag.closing ++ '>' :: rest)))) := by
    simp [WrittenTag.around]
  rw [shape, read_start, opens, ← next.read_ending elements tag, ← filled]
  rfl

/-! ## What stands between elements -/

variable (reading) in
/-- Text counts for nothing here. -/
def IsOutsideValue : Prop :=
  ∀ frame ∈ reading.opened.head?, frame.isValue = false

theorem isOutsideValue_of_nil (reading : Reading) (none : reading.opened = []) :
    reading.IsOutsideValue := by
  rw [IsOutsideValue, none]
  rintro frame ⟨⟩

theorem addText_of_isOutsideValue (outside : reading.IsOutsideValue)
    (text : Except ReadFault Text) : reading.addText text = .ok reading := by
  rw [addText]
  split
  · next found =>
      rw [IsOutsideValue, found] at outside
      cases outside _ rfl
  · rfl

/-- Nothing counts up to the next piece of markup. -/
theorem read_dropWhile (outside : reading.IsOutsideValue) (text : Text) :
    reading.read elements (text.dropWhile (· != '<')) = reading.read elements text := by
  have spaces : text.dropWhile (· != '<') =
      (text.dropWhile Markup.isSpace).dropWhile (· != '<') := by
    induction text with
    | nil => rfl
    | cons c text ih =>
        cases space : Markup.isSpace c with
        | false => rw [List.dropWhile_cons_of_neg (p := Markup.isSpace) (by simp [space])]
        | true =>
            have notMarkup : (c != '<') = true := by
              rw [bne_iff_ne]
              rintro rfl
              exact absurd space (by decide)
            rw [List.dropWhile_cons_of_pos (p := (· != '<')) notMarkup,
              List.dropWhile_cons_of_pos space, ih]
  rw [spaces, read, read, Markup.eventsWithin_eq elements text]
  cases begins : text.dropWhile Markup.isSpace with
  | nil => rw [List.dropWhile_nil, Markup.eventsWithin_eq, List.dropWhile_nil]
  | cons first others =>
      by_cases markup : first = '<'
      · subst markup
        rw [List.dropWhile_cons_of_neg (by decide), Markup.eventsWithin_eq]
        rfl
      · rw [List.dropWhile_cons_of_pos (p := (· != '<')) (bne_iff_ne.mpr markup),
          Markup.eventsFrom, resume_behind, step, addText_of_isOutsideValue outside]
        · rfl
        · exact markup

theorem read_plain (outside : reading.IsOutsideValue) {plain : Text} (noMarkup : '<' ∉ plain)
    (rest : Text) : reading.read elements (plain ++ rest) = reading.read elements rest := by
  have inside : ∀ c ∈ plain, (c != '<') = true := fun c member =>
    bne_iff_ne.mpr fun same => noMarkup (same ▸ member)
  rw [← read_dropWhile outside, List.dropWhile_append_of_pos inside, read_dropWhile outside]

end Reading

/-- What may stand between elements: spaces or other text, comments, and elements of unknown
name that hold no others. -/
inductive Filler : Text -> Prop where
  | nil : Filler []
  | plain {text rest : Text} (noMarkup : '<' ∉ text) (later : Filler rest) : Filler (text ++ rest)
  | comment {body rest : Text} (absent : ¬['-', '-', '>'] <:+: body) (later : Filler rest) :
      Filler ('<' :: '!' :: '-' :: '-' :: (body ++ '-' :: '-' :: '>' :: rest))
  | element {tag : WrittenTag} {inside text rest : Text}
      (unknown : Markup.localName tag.name ∉ Frame.knownNames) (inner : Filler inside)
      (spelled : tag.Spells True inside text) (later : Filler rest) : Filler (text ++ rest)

namespace Filler

/-- A reading goes on behind a filler as if it were not there. -/
theorem read_append {filler : Text} (isFiller : Filler filler) {reading : Reading}
    (outside : reading.IsOutsideValue) (elements : List Text) (rest : Text) :
    reading.read elements (filler ++ rest) = reading.read elements rest := by
  induction isFiller generalizing reading elements rest with
  | nil => rfl
  | plain noMarkup later ih =>
      rw [List.append_assoc, Reading.read_plain outside noMarkup, ih outside]
  | @comment body left absent later ih =>
      have shape : '<' :: '!' :: '-' :: '-' :: (body ++ '-' :: '-' :: '>' :: left) ++ rest =
          '<' :: '!' :: '-' :: '-' :: (body ++ '-' :: '-' :: '>' :: (left ++ rest)) := by
        simp
      rw [shape, Reading.read, Markup.eventsWithin_comment absent, ← Reading.read, ih outside]
  | @element tag inside text left unknown inner spelled later ihInner ihLater =>
      have opens : Frame.ofTag tag.tag = .ok .other :=
        Frame.ofTag_of_unknown (by rwa [tag.localName_tag])
      have attached : reading.attach .other = .ok reading := by rw [Reading.attach]
      rw [List.append_assoc]
      refine Eq.trans ?_ (ihLater outside elements rest)
      cases spelled with
      | alone =>
          rw [Reading.read_alone opens, attached]
          rfl
      | around =>
          have inside : (reading.within .other reading.opened).IsOutsideValue := by
            rintro frame ⟨⟩
            rfl
          have filled (behind : Text) := ihInner inside (tag.name :: elements) ('<' :: behind)
          rw [Reading.read_around opens filled, attached]
          rfl

end Filler

/-! ## Elements -/

/-- What a piece of the document makes of the element that it stands in. -/
def Turns (inside : Text) (frame last : Frame) : Prop :=
  ∀ (reading : Reading) (outer : List Frame) (elements : List Text) (rest : Text),
    (reading.within frame outer).read elements (inside ++ rest) =
      (reading.within last outer).read elements rest

namespace Turns

variable {frame middle last : Frame} {front back : Text}

theorem nil (frame : Frame) : Turns [] frame frame :=
  fun _ _ _ _ => rfl

theorem append (first : Turns front frame middle) (second : Turns back middle last) :
    Turns (front ++ back) frame last := by
  intro reading outer elements rest
  rw [List.append_assoc, first, second]

theorem of_filler (isFiller : Filler front) (outside : frame.isValue = false) :
    Turns front frame frame := by
  intro reading outer elements rest
  refine isFiller.read_append ?_ elements rest
  rintro found ⟨⟩
  exact outside

end Turns

/-- An element of the document that is read as the given one. -/
def Denotes (text : Text) (frame : Frame) : Prop :=
  ∀ (reading : Reading) (elements : List Text) (rest : Text),
    reading.read elements (text ++ rest) = reading.attach frame >>= (·.read elements rest)

variable {frame last : Frame} {tag : WrittenTag} {bare : Prop} {inside text : Text}

theorem Denotes.of_spells (spelled : tag.Spells bare inside text)
    (opens : Frame.ofTag tag.tag = .ok frame) (unfilled : bare -> last = frame)
    (filled : ∀ (reading : Reading) (outer : List Frame) (elements : List Text) (behind : Text),
      (reading.within frame outer).read elements (inside ++ '<' :: behind) =
        (reading.within last outer).read elements ('<' :: behind)) : Denotes text last := by
  intro reading elements rest
  cases spelled with
  | alone isBare =>
      rw [unfilled isBare]
      exact Reading.read_alone opens rest
  | around => exact Reading.read_around opens (filled reading _ _) rest

/-- An element inside another one that may hold it. -/
theorem Denotes.turns {around : Frame} (denotes : Denotes text frame)
    (held : ∀ (reading : Reading) (outer : List Frame),
      (reading.within around outer).attach frame = .ok (reading.within last outer)) :
    Turns text around last := by
  intro reading outer elements rest
  rw [denotes, held]
  rfl

end Filter

end TabularModel
