import TabularModel.Proofs.Filter.Reading

/-!
# Misplaced elements

The reader of filters keeps a frame for every element that is open. Whatever it reads, the
frames are those of the tags that have begun and not ended, so an element that ends is
refused exactly where the element around it may not hold it.
-/

set_option autoImplicit false

namespace TabularModel

namespace Markup

/-- The open tags behind an event, the innermost first. -/
def Event.openAfter (opened : List Tag) : Event -> List Tag
  | .start tag => tag :: opened
  | .ending => opened.tail
  | .empty _ | .text _ | .verbatim _ => opened

/-- The tags that have begun and not ended. -/
def openTags (events : List Event) : List Tag :=
  events.foldl Event.openAfter []

/-- An element ends inside those with the tags `outer`. The events that have begun and
filled it are `begun`, where an element of one tag counts as begun by it. -/
inductive Ends (tag : Tag) (outer : List Tag) : List Event -> List Event -> Prop where
  | paired {begun after : List Event} (innermost : openTags begun = tag :: outer) :
      Ends tag outer begun (begun ++ .ending :: after)
  | alone {front after : List Event} (around : openTags front = outer) :
      Ends tag outer (front ++ [.start tag]) (front ++ .empty tag :: after)

end Markup

namespace Filter

open Markup (Event Tag)

/-- The name of the element that a frame is of, if it is known. -/
def Frame.knownName? : Frame -> Option Text
  | .entity _ => some "entity"
  | .link _ => some "link-entity"
  | .filter _ => some "filter"
  | .condition _ => some "condition"
  | .value _ => some "value"
  | .other => none

def knownName? (tag : Tag) : Option Text :=
  if tag.localName ∈ Frame.knownNames then some tag.localName else none

/-- The names of the elements that may hold one of the given name. -/
def holderNames (name : Text) : List Text :=
  if name = "condition" then ["filter"]
  else if name = "value" then ["condition"]
  else ["entity", "link-entity", "filter"]

/-- The names of the elements that are parts of others. -/
def partNames : List Text :=
  ["condition", "value", "link-entity", "filter"]

/-- The element around it may not hold the element, or there is none. A group may do without. -/
inductive IsMisplaced (name : Text) : List Tag -> Prop where
  | inside {parent : Tag} {outer : List Tag} (isPart : name ∈ partNames)
      (refused : parent.localName ∉ holderNames name) : IsMisplaced name (parent :: outer)
  | outermost (isPart : name ∈ partNames.erase "filter") : IsMisplaced name []

theorem IsMisplaced.isPart {name : Text} {opened : List Tag} (misplaced : IsMisplaced name opened) :
    name ∈ partNames := by
  cases misplaced with
  | inside isPart refused => exact isPart
  | outermost isPart => exact List.mem_of_mem_erase isPart

/-! ## Frames and tags -/

/-- The frame is of an element with the given name, if there is one. -/
def IsOpenedAs (opened : Except ReadFault Frame) (name : Option Text) : Prop :=
  ∀ frame, opened = .ok frame -> frame.knownName? = name

theorem isOpenedAs_bind {α : Type} {name : Option Text} (first : Except ReadFault α)
    {next : α -> Except ReadFault Frame} (each : ∀ value, IsOpenedAs (next value) name) :
    IsOpenedAs (first >>= next) name := by
  intro frame opens
  cases first with
  | error fault => cases opens
  | ok value => exact each value frame opens

theorem isOpenedAs_map {α : Type} {name : Option Text} (first : Except ReadFault α)
    {make : α -> Frame} (each : ∀ value, (make value).knownName? = name) :
    IsOpenedAs (first.map make) name := by
  intro frame opens
  cases first with
  | error fault => cases opens
  | ok value =>
      cases opens
      exact each value

theorem isOpenedAs_ok {name : Option Text} {made : Frame} (isNamed : made.knownName? = name) :
    IsOpenedAs (.ok made) name := by
  rintro frame ⟨⟩
  exact isNamed

theorem isOpenedAs_openLink (tag : Tag) : IsOpenedAs (Frame.openLink tag) (some "link-entity") :=
  isOpenedAs_bind _ fun _ => isOpenedAs_bind _ fun _ => isOpenedAs_bind _ fun _ =>
    isOpenedAs_bind _ fun _ => isOpenedAs_bind _ fun _ => isOpenedAs_ok rfl

theorem isOpenedAs_openCondition (tag : Tag) :
    IsOpenedAs (Frame.openCondition tag) (some "condition") :=
  isOpenedAs_bind _ fun _ => isOpenedAs_bind _ fun _ => isOpenedAs_bind _ fun _ =>
    isOpenedAs_bind _ fun _ => isOpenedAs_ok rfl

theorem isOpenedAs_ofTag (tag : Tag) : IsOpenedAs (Frame.ofTag tag) (knownName? tag) := by
  by_cases known : tag.localName ∈ Frame.knownNames
  · have name : knownName? tag = some tag.localName := if_pos known
    rw [name, Frame.ofTag]
    simp only [Frame.knownNames, List.mem_cons, List.not_mem_nil, or_false] at known
    rcases known with same | same | same | same | same <;> rw [same]
    · exact isOpenedAs_map _ fun _ => rfl
    · exact isOpenedAs_openLink tag
    · exact isOpenedAs_map _ fun _ => rfl
    · exact isOpenedAs_openCondition tag
    · exact isOpenedAs_ok rfl
  · have noName : knownName? tag = none := if_neg known
    rw [noName, Frame.ofTag_of_unknown known]
    exact isOpenedAs_ok rfl

namespace Reading

/-- The frames of a reading are those of the given tags. -/
def IsInside (reading : Reading) (opened : List Tag) : Prop :=
  reading.opened.map Frame.knownName? = opened.map knownName?

variable {reading next : Reading} {opened : List Tag}

/-- An element that is attached changes what another one holds, and no more. -/
theorem IsInside.attach (inside : reading.IsInside opened) {frame : Frame}
    (attached : reading.attach frame = .ok next) : next.IsInside opened := by
  obtain ⟨frames, query⟩ := reading
  cases frames with
  | nil => cases frame <;> cases query <;> cases attached <;> exact inside
  | cons innermost outer =>
      cases frame <;> cases innermost <;> cases attached <;> exact inside

theorem IsInside.addText (inside : reading.IsInside opened) {text : Except ReadFault Text}
    (added : reading.addText text = .ok next) : next.IsInside opened := by
  rw [Reading.addText] at added
  split at added
  · next before outer frames =>
      rw [IsInside, frames] at inside
      cases text with
      | error fault => cases added
      | ok more =>
          cases added
          exact inside
  · cases added
    exact inside

/-- One event leads from frames and tags that match to such. -/
theorem IsInside.step (inside : reading.IsInside opened) {event : Event}
    (stepped : reading.step event = .ok next) : next.IsInside (event.openAfter opened) := by
  cases event with
  | start tag =>
      rw [Reading.step] at stepped
      have named := isOpenedAs_ofTag tag
      cases opens : Frame.ofTag tag with
      | error fault =>
          rw [opens] at stepped
          cases stepped
      | ok frame =>
          rw [opens] at stepped
          cases stepped
          exact congrArg₂ List.cons (named frame opens) inside
  | empty tag =>
      rw [Reading.step] at stepped
      cases opens : Frame.ofTag tag with
      | error fault =>
          rw [opens] at stepped
          cases stepped
      | ok frame =>
          rw [opens] at stepped
          exact inside.attach stepped
  | ending =>
      rw [Reading.step] at stepped
      split at stepped
      · cases stepped
      · next frame outer frames =>
          have shorter : Reading.IsInside { reading with opened := outer } opened.tail := by
            rw [IsInside, frames, List.map_cons] at inside
            rw [IsInside, List.map_tail, ← inside]
            rfl
          exact shorter.attach stepped
  | text raw => exact inside.addText stepped
  | verbatim content => exact inside.addText stepped

theorem IsInside.run (inside : reading.IsInside opened) {events : List Event}
    (ran : reading.run events = .ok next) : next.IsInside (events.foldl Event.openAfter opened) := by
  induction events generalizing reading opened with
  | nil =>
      cases ran
      exact inside
  | cons event events ih =>
      rw [Reading.run] at ran
      split at ran
      · next later stepped => exact ih (inside.step stepped) ran
      · cases ran

/-- An element is refused by a frame that may not hold it, and outside of all elements if
it is not a group. -/
theorem attach_eq_error {frame : Frame} {name : Text} (named : frame.knownName? = some name)
    (isPart : name ∈ partNames)
    (refused : ∀ innermost ∈ reading.opened.head?, ∀ holder ∈ innermost.knownName?,
      holder ∉ holderNames name)
    (outermost : reading.opened = [] -> name ≠ "filter") :
    reading.attach frame = .error (.misplaced name) := by
  obtain ⟨frames, query⟩ := reading
  cases frames with
  | nil =>
      have notGroup := outermost rfl
      cases frame with
      | entity => cases named; exact absurd isPart (by decide)
      | filter => cases named; exact absurd rfl notGroup
      | link | condition | value => cases named; rfl
      | other => cases named
  | cons innermost outer =>
      have notHeld := refused innermost rfl
      cases frame with
      | entity => cases named; exact absurd isPart (by decide)
      | other => cases named
      | filter | link | condition | value =>
          cases named
          cases innermost <;> first | rfl | exact absurd (by decide) (notHeld _ rfl)

theorem attach_of_isMisplaced (inside : reading.IsInside opened) {frame : Frame} {tag : Tag}
    (named : frame.knownName? = knownName? tag) (misplaced : IsMisplaced tag.localName opened) :
    reading.attach frame = .error (.misplaced tag.localName) := by
  have known : knownName? tag = some tag.localName := by
    have among : partNames ⊆ Frame.knownNames := by decide
    exact if_pos (among misplaced.isPart)
  rw [IsInside] at inside
  refine attach_eq_error (named.trans known) misplaced.isPart ?_ ?_
  · intro innermost first holder isNamed
    cases misplaced with
    | outermost isPart =>
        rw [List.map_nil, List.map_eq_nil_iff] at inside
        rw [inside] at first
        cases first
    | @inside parent outer isPart refused =>
        obtain ⟨_, _, frames, same, _⟩ := List.map_eq_cons_iff.mp inside
        rw [frames] at first
        cases first
        rw [same, knownName?] at isNamed
        split at isNamed
        · cases isNamed
          exact refused
        · cases isNamed
  · intro none
    cases misplaced with
    | outermost isPart =>
        intro isGroup
        rw [isGroup] at isPart
        exact absurd isPart (by decide)
    | inside isPart refused =>
        rw [none] at inside
        cases inside

/-! ## Runs -/

theorem run_append (reading : Reading) (front back : List Event) :
    reading.run (front ++ back) = reading.run front >>= (·.run back) := by
  induction front generalizing reading with
  | nil => rfl
  | cons event front ih =>
      rw [List.cons_append, Reading.run, Reading.run]
      cases reading.step event with
      | error fault => rfl
      | ok later => exact ih later

theorem run_error {event : Event} {fault : ReadFault} (refused : reading.step event = .error fault)
    (events : List Event) : reading.run (event :: events) = .error fault := by
  rw [Reading.run, refused]

theorem run_start {tag : Tag} {frame : Frame} (opens : Frame.ofTag tag = .ok frame)
    (events : List Event) :
    reading.run (.start tag :: events) = (reading.within frame reading.opened).run events := by
  rw [Reading.run, Reading.step, opens]
  rfl

theorem isInside_openTags {events : List Event} (ran : start.run events = .ok next) :
    next.IsInside (Markup.openTags events) := by
  have nothing : start.IsInside [] := rfl
  exact nothing.run ran

/-- A misplaced element is refused when it ends, if nothing else was refused until then. -/
theorem run_of_ends {tag : Tag} {begun events : List Event}
    (ends : Markup.Ends tag opened begun events) (misplaced : IsMisplaced tag.localName opened) :
    start.run events = start.run begun >>= fun _ => .error (.misplaced tag.localName) := by
  cases ends with
  | @paired begun after innermost =>
      rw [run_append]
      cases ran : start.run begun with
      | error fault => rfl
      | ok reading =>
          have inside := isInside_openTags ran
          rw [innermost] at inside
          obtain ⟨frame, frames, isOpened, named, outside⟩ := List.map_eq_cons_iff.mp inside
          have refused : reading.step .ending = .error (.misplaced tag.localName) := by
            have around : Reading.IsInside { reading with opened := frames } opened := outside
            rw [Reading.step, isOpened]
            exact attach_of_isMisplaced around named misplaced
          exact run_error refused after
  | @alone front after around =>
      rw [run_append, run_append]
      cases ran : start.run front with
      | error fault => rfl
      | ok reading =>
          have inside := isInside_openTags ran
          rw [around] at inside
          show reading.run (.empty tag :: after) =
            reading.run [.start tag] >>= fun _ => .error (.misplaced tag.localName)
          cases opens : Frame.ofTag tag with
          | error fault =>
              have refused : reading.step (.empty tag) = .error fault := by
                rw [Reading.step, opens]
                rfl
              have refusedToo : reading.step (.start tag) = .error fault := by
                rw [Reading.step, opens]
                rfl
              rw [run_error refused, run_error refusedToo]
              rfl
          | ok frame =>
              have refused : reading.step (.empty tag) = .error (.misplaced tag.localName) := by
                rw [Reading.step, opens]
                exact attach_of_isMisplaced inside (isOpenedAs_ofTag tag frame opens) misplaced
              rw [run_error refused, run_start opens]
              rfl

end Reading

/-- Whatever document it stands in, a misplaced element is refused, unless the reader met a
fault before the element ended. -/
theorem Query.ofDocument_of_isMisplaced {document : Text} {tag : Tag} {outer : List Tag}
    {begun : List Event} (ends : Markup.Ends tag outer begun (Markup.events document).1)
    (misplaced : IsMisplaced tag.localName outer) :
    Query.ofDocument document =
      Reading.start.run begun >>= fun _ => .error (.misplaced tag.localName) := by
  have shape : Query.ofDocument document = Reading.start.resume (Markup.events document) := rfl
  rw [shape, Reading.resume, Reading.run_of_ends ends misplaced]
  cases Reading.start.run begun with
  | error fault => rfl
  | ok reading => rfl

end Filter

end TabularModel
