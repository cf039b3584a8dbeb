import Mathlib.Data.List.Infix
import TabularModel.Markup.Event
import TabularModel.Proofs.Markup.Tag

/-!
# Written markup

Each piece of markup that is written well is read as one event, with what follows it.
-/

set_option autoImplicit false

namespace TabularModel

theorem Text.dropRightWhile_of_getLast? {p : Char -> Bool} {text : Text}
    (kept : ∀ c ∈ text.getLast?, p c = false) : dropRightWhile p text = text := by
  rw [dropRightWhile_eq, List.rdropWhile_eq_self_iff]
  intro nonempty
  rw [kept _ (List.getLast?_eq_some_getLast nonempty)]
  exact Bool.false_ne_true

namespace Markup

/-! ## Where a piece ends -/

namespace Closing

variable {State : Type} {closing : Closing State} {first middle last : State} {front back : Text}

/-- Characters that lead from one state to another without an end of the piece. -/
inductive Passes (closing : Closing State) : State -> Text -> State -> Prop where
  | nil (state : State) : Passes closing state [] state
  | cons {state last : State} {c : Char} {rest : Text}
      (kept : ¬(c = '>' ∧ closing.allows state = true))
      (later : Passes closing (closing.advance state c) rest last) :
      Passes closing state (c :: rest) last

theorem Passes.append (one : closing.Passes first front middle)
    (other : closing.Passes middle back last) : closing.Passes first (front ++ back) last := by
  induction one with
  | nil state => exact other
  | cons kept later ih => exact .cons kept (ih other)

/-- The piece ends at the first bracket that may end it. -/
theorem Passes.split?_eq (passes : closing.Passes first front last)
    (allowed : closing.allows last = true) (rest : Text) :
    closing.split? first (front ++ '>' :: rest) = some (front, rest) := by
  induction passes with
  | nil state => rw [List.nil_append, split?, if_pos ⟨rfl, allowed⟩]
  | cons kept later ih =>
      rw [List.cons_append, split?, if_neg kept, ih allowed]
      rfl

/-- Outside quotes only a quote leads away. -/
theorem tag_passes_plain {text : Text} (plain : '>' ∉ text ∧ '"' ∉ text ∧ '\'' ∉ text) :
    tag.Passes none text none := by
  induction text with
  | nil => exact .nil none
  | cons c text ih =>
      obtain ⟨noBracket, noQuote, noApostrophe⟩ := plain
      simp only [List.mem_cons, not_or] at noBracket noQuote noApostrophe
      refine .cons (fun both => noBracket.1 both.1.symm) ?_
      have stays : tag.advance none c = none :=
        if_neg (not_or.mpr ⟨Ne.symm noQuote.1, Ne.symm noApostrophe.1⟩)
      rw [stays]
      exact ih ⟨noBracket.2, noQuote.2, noApostrophe.2⟩

/-- A quoted text leads back to where it began. -/
theorem tag_passes_quoted {quote : Char} {text : Text} (isQuote : quote = '"' ∨ quote = '\'')
    (absent : quote ∉ text) : tag.Passes none (quote :: (text ++ [quote])) none := by
  have opens : tag.advance none quote = some quote := if_pos isQuote
  have notBracket : quote ≠ '>' := by
    rcases isQuote with rfl | rfl <;> decide
  refine .cons (fun both => notBracket both.1) ?_
  rw [opens]
  clear opens
  induction text with
  | nil =>
      have closes : tag.advance (some quote) quote = none := if_pos rfl
      refine .cons (fun both => notBracket both.1) ?_
      rw [closes]
      exact .nil none
  | cons c text ih =>
      have stays : tag.advance (some quote) c = some quote :=
        if_neg fun same : c = quote => absent (same ▸ List.mem_cons_self)
      refine .cons (fun both => nomatch both.2) ?_
      rw [stays]
      exact ih fun member => absent (List.mem_cons_of_mem c member)

/-- How many hyphens are counted at the end of the inside of a comment, or in front of it. -/
structure Trails (front : Text) (run : Nat) : Prop where
  one : 1 ≤ run -> front = [] ∨ ['-'] <:+ front
  two : 2 ≤ run -> front.length < 2 ∨ ['-', '-'] <:+ front

theorem Trails.advance {front : Text} {run : Nat} (trails : Trails front run) (c : Char) :
    Trails (front ++ [c]) (countRun '-' run c) := by
  rw [countRun]
  split
  · next hyphen =>
      subst hyphen
      refine ⟨fun _ => Or.inr (List.suffix_append _ _), fun several => ?_⟩
      rcases trails.one (by omega) with empty | ⟨earlier, ends⟩
      · exact Or.inl (by simp [empty])
      · exact Or.inr ⟨earlier, by simp [← ends]⟩
  · exact ⟨fun some => absurd some (by decide), fun several => absurd several (by decide)⟩

/-- The inside of a comment is passed if the end of a comment does not stand in it. -/
theorem comment_passes_inside {front rest : Text} {run : Nat} (trails : Trails front run)
    (absent : ¬['-', '-', '>'] <:+: front ++ rest) :
    ∃ last, comment.Passes (3 + front.length, run) rest (3 + (front ++ rest).length, last) := by
  induction rest generalizing front run with
  | nil => exact ⟨run, by rw [List.append_nil]; exact .nil _⟩
  | cons c rest ih =>
      have moved : front ++ c :: rest = (front ++ [c]) ++ rest := by simp
      rw [moved] at absent ⊢
      obtain ⟨last, passes⟩ := ih (trails.advance c) absent
      refine ⟨last, .cons (fun ends => ?_) ?_⟩
      · obtain ⟨bracket, allowed⟩ := ends
        have counted : 4 < 3 + front.length ∧ 2 ≤ run := by simpa [comment] using allowed
        rcases trails.two counted.2 with short | ⟨earlier, ends⟩
        · omega
        · exact absent ⟨earlier, rest, by simp [← ends, bracket]⟩
      · rw [List.length_append, List.length_singleton, ← Nat.add_assoc] at passes
        exact passes

theorem comment_split?_eq {body : Text} (absent : ¬['-', '-', '>'] <:+: body) (rest : Text) :
    comment.split? comment.initial ('!' :: '-' :: '-' :: (body ++ ['-', '-']) ++ '>' :: rest) =
      some ('!' :: '-' :: '-' :: (body ++ ['-', '-']), rest) := by
  have trails : Trails [] 2 := ⟨fun _ => Or.inl rfl, fun _ => Or.inl (by decide)⟩
  obtain ⟨run, inside⟩ := comment_passes_inside trails absent
  have opening : comment.Passes (0, 0) ['!', '-', '-'] (3, 2) :=
    .cons (by decide) (.cons (by decide) (.cons (by decide) (.nil _)))
  have ending : comment.Passes (3 + body.length, run) ['-', '-'] (3 + body.length + 1 + 1, run + 1 + 1) :=
    .cons (by simp) (.cons (by simp) (.nil _))
  have long : 4 < 3 + body.length + 1 + 1 := by omega
  exact (opening.append (inside.append ending)).split?_eq (by simp [comment, long]) rest

end Closing

/-! ## Tags -/

theorem IsName.plain {name : Text} (isName : IsName name) :
    '>' ∉ name ∧ '"' ∉ name ∧ '\'' ∉ name := by
  have outside (mark : Char) (isMark : isNamePart mark = false) : mark ∉ name := by
    intro member
    rw [isName.2 mark member] at isMark
    cases isMark
  exact ⟨outside '>' (by decide), outside '"' (by decide), outside '\'' (by decide)⟩

theorem IsSpaces.plain {spaces : Text} (blank : IsSpaces spaces) :
    '>' ∉ spaces ∧ '"' ∉ spaces ∧ '\'' ∉ spaces := by
  have outside (mark : Char) (isMark : isSpace mark = false) : mark ∉ spaces := by
    intro member
    rw [blank mark member] at isMark
    cases isMark
  exact ⟨outside '>' (by decide), outside '"' (by decide), outside '\'' (by decide)⟩

theorem WrittenAttribute.passes_spelled (written : WrittenAttribute) :
    Closing.tag.Passes none written.spelled none := by
  have equals : Closing.tag.Passes none ['='] none := Closing.tag_passes_plain (by decide)
  have key := Closing.tag_passes_plain written.isKey.plain
  have value := Closing.tag_passes_quoted written.isQuote written.quote_not_mem
  have gap := Closing.tag_passes_plain written.separated.2.plain
  have before := Closing.tag_passes_plain written.spaced.1.plain
  have after := Closing.tag_passes_plain written.spaced.2.plain
  exact gap.append (key.append (before.append (equals.append (after.append value))))

namespace WrittenTag

variable (written : WrittenTag)

theorem passes_content : Closing.tag.Passes none written.content none := by
  have attributes (list : List WrittenAttribute) :
      Closing.tag.Passes none (list.flatMap (·.spelled)) none := by
    induction list with
    | nil => exact .nil none
    | cons first others ih => exact first.passes_spelled.append ih
  have name := Closing.tag_passes_plain written.isName.plain
  have spaces := Closing.tag_passes_plain written.blank.plain
  exact name.append ((attributes written.attributes).append spaces)

/-- The last character of a tag is not the slash of an empty one. -/
theorem getLast?_content : written.content.getLast? ≠ some '/' := by
  have append {front back : Text} (one : front.getLast? ≠ some '/') (other : back.getLast? ≠ some '/') :
      (front ++ back).getLast? ≠ some '/' := by
    rw [List.getLast?_append]
    cases last : back.getLast? with
    | none => exact one
    | some c =>
        rw [last] at other
        exact other
  have name : written.name.getLast? ≠ some '/' := fun last =>
    absurd (written.isName.2 '/' (List.mem_of_getLast? last)) (by decide)
  have spaces : written.spaces.getLast? ≠ some '/' := fun last =>
    absurd (written.blank '/' (List.mem_of_getLast? last)) (by decide)
  have spelled (own : WrittenAttribute) : own.spelled.getLast? ≠ some '/' := by
    have last : own.spelled.getLast? = some own.quote := by
      simp [WrittenAttribute.spelled, WrittenAttribute.quoted, List.getLast?_append,
        List.getLast?_cons]
    rw [last]
    rcases own.isQuote with same | same <;> rw [same] <;> decide
  have attributes (list : List WrittenAttribute) :
      (list.flatMap (·.spelled)).getLast? ≠ some '/' := by
    induction list with
    | nil =>
        intro last
        cases last
    | cons first others ih => exact append (spelled first) ih
  exact append name (append (attributes written.attributes) spaces)

theorem ofElement_content : Piece.ofElement written.content = .start written.tag := by
  have noSlash := written.getLast?_content
  have whole : Text.dropEnd? "/" written.content = none := by
    have slash : ("/" : Text).reverse = ['/'] := by decide
    rw [Text.dropEnd?, slash, Option.map_eq_none_iff]
    rw [← List.head?_reverse] at noSlash
    cases shape : written.content.reverse with
    | nil => rfl
    | cons c front =>
        rw [shape] at noSlash
        exact if_neg fun same : '/' = c => noSlash (same ▸ rfl)
  rw [Piece.ofElement, whole]
  rfl

theorem ofElement_content_slash : Piece.ofElement (written.content ++ ['/']) = .empty written.tag := by
  have inner : Text.dropEnd? "/" (written.content ++ ['/']) = some written.content := by
    have slash : ("/" : Text).reverse = ['/'] := by decide
    rw [Text.dropEnd?, slash, List.reverse_append]
    simp [Text.dropStart?]
  rw [Piece.ofElement, inner]
  rfl

end WrittenTag

/-! ## Pieces of markup -/

theorem readPiece_eq {State : Type} {closing : Closing State} {unclosed : Fault}
    {interpret : Text -> Except Fault Piece} {text content rest : Text} {piece : Piece}
    (found : closing.split? closing.initial text = some (content, rest))
    (meaning : interpret content = .ok piece) :
    ∃ shorter, readPiece closing unclosed interpret text = .ok (piece, ⟨rest, shorter⟩) := by
  have shorter := closing.length_lt_of_split? _ _ _ _ found
  refine ⟨shorter, ?_⟩
  unfold readPiece
  split
  · next none =>
      rw [found] at none
      cases none
  · next again =>
      rw [found] at again
      cases again
      rw [meaning]
      rfl

theorem WrittenTag.exists_head (written : WrittenTag) :
    ∃ first others, written.content = first :: others ∧ isNamePart first = true := by
  obtain ⟨first, others, shape⟩ := List.exists_cons_of_ne_nil written.isName.1
  have isPart := written.isName.2 first (shape ▸ List.mem_cons_self)
  exact ⟨first, _, by rw [WrittenTag.content, shape]; rfl, isPart⟩

/-- Markup that begins with a name is that of an element. -/
theorem readMarkup_of_isNamePart {first : Char} (isPart : isNamePart first = true) (others : Text) :
    readMarkup (first :: others) =
      readPiece .tag .tagNotClosed (fun content => .ok (.ofElement content)) (first :: others) := by
  have apart (mark : Char) (isMark : isNamePart mark = false) : first ≠ mark := by
    rintro rfl
    rw [isPart] at isMark
    cases isMark
  have notBang := apart '!' (by decide)
  have notQuestion := apart '?' (by decide)
  have notSlash := apart '/' (by decide)
  rw [readMarkup]
  all_goals
    intro rest same
    cases same
    contradiction

theorem readMarkup_start (written : WrittenTag) (rest : Text) :
    ∃ shorter, readMarkup (written.content ++ '>' :: rest) =
      .ok (.start written.tag, ⟨rest, shorter⟩) := by
  obtain ⟨first, others, shape, isPart⟩ := written.exists_head
  have ends := written.passes_content.split?_eq rfl rest
  rw [shape, List.cons_append] at ends ⊢
  rw [readMarkup_of_isNamePart isPart]
  refine readPiece_eq ends ?_
  rw [← shape, written.ofElement_content]

theorem readMarkup_empty (written : WrittenTag) (rest : Text) :
    ∃ shorter, readMarkup (written.content ++ '/' :: '>' :: rest) =
      .ok (.empty written.tag, ⟨rest, shorter⟩) := by
  obtain ⟨first, others, shape, isPart⟩ := written.exists_head
  have slash : Closing.tag.Passes none ['/'] none := Closing.tag_passes_plain (by decide)
  have ends := (written.passes_content.append slash).split?_eq rfl rest
  rw [List.append_assoc, List.singleton_append] at ends
  rw [shape, List.cons_append] at ends ⊢
  rw [readMarkup_of_isNamePart isPart]
  refine readPiece_eq ends ?_
  rw [← shape, written.ofElement_content_slash]

theorem readMarkup_ending {name closing : Text} (isName : IsName name) (blank : IsSpaces closing)
    (rest : Text) : ∃ shorter, readMarkup ('/' :: (name ++ (closing ++ '>' :: rest))) =
      .ok (.ending name, ⟨rest, shorter⟩) := by
  have slash : Closing.tag.Passes none ['/'] none := Closing.tag_passes_plain (by decide)
  have inside := (Closing.tag_passes_plain isName.plain).append (Closing.tag_passes_plain blank.plain)
  have ends := (slash.append inside).split?_eq rfl rest
  have visible (c : Char) (member : c ∈ name) : isSpace c = false := by
    have part := isName.2 c member
    rw [isNamePart, Bool.and_eq_true, Bool.not_eq_true'] at part
    exact part.1
  obtain ⟨first, others, shape⟩ := List.exists_cons_of_ne_nil isName.1
  have notSpaces : (name ++ closing).all isSpace = false := by
    rw [shape, List.cons_append, List.all_cons, visible first (shape ▸ List.mem_cons_self),
      Bool.false_and]
  have whole : Text.dropRightWhile isSpace (name ++ closing) = name := by
    rw [Text.dropRightWhile_append_of_all _ _ _ (List.all_eq_true.mpr blank)]
    exact Text.dropRightWhile_of_getLast? fun c last => visible c (List.mem_of_getLast? last)
  have inner : ('/' :: (name ++ closing)).tail = name ++ closing := rfl
  have meaning : Piece.ofEnding ('/' :: (name ++ closing)) = .ending name := by
    rw [Piece.ofEnding, inner]
    simp only [notSpaces, whole, Bool.false_eq_true, if_false]
  simp only [List.append_assoc, List.cons_append, List.nil_append] at ends
  exact readPiece_eq ends (congrArg Except.ok meaning)

theorem readMarkup_comment {body : Text} (absent : ¬['-', '-', '>'] <:+: body) (rest : Text) :
    ∃ shorter, readMarkup ('!' :: '-' :: '-' :: (body ++ '-' :: '-' :: '>' :: rest)) =
      .ok (.skipped, ⟨rest, shorter⟩) := by
  have ends := Closing.comment_split?_eq absent rest
  simp only [List.append_assoc, List.cons_append, List.nil_append] at ends
  rw [readMarkup]
  exact readPiece_eq ends rfl

/-! ## Events -/

/-- The events behind a first one. -/
def behind (event : Event) (rest : List Event × Option Fault) : List Event × Option Fault :=
  (event :: rest.1, rest.2)

/-- The events from a piece of markup on, with the text behind it. -/
def Piece.eventsThen (opened : List Text) (rest : Text) : Piece -> List Event × Option Fault
  | .skipped => eventsWithin opened rest
  | .start tag => behind (.start tag) (eventsWithin (tag.name :: opened) rest)
  | .empty tag => behind (.empty tag) (eventsWithin opened rest)
  | .verbatim content => behind (.verbatim content) (eventsWithin opened rest)
  | .ending name =>
      match opened with
      | [] => ([], some (.unmatchedEnd name))
      | expected :: outer =>
          if expected = name then behind .ending (eventsWithin outer rest)
          else ([], some (.mismatchedEnd expected name))

/-- The events of a text that does not begin with a space. -/
def eventsFrom (opened : List Text) : Text -> List Event × Option Fault
  | [] => ([], none)
  | '<' :: markup =>
      match readMarkup markup with
      | .error fault => ([], some fault)
      | .ok (piece, ⟨rest, _⟩) => piece.eventsThen opened rest
  | first :: others =>
      behind (.text (Text.dropRightWhile isSpace (first :: others.takeWhile (· != '<'))))
        (eventsWithin opened (others.dropWhile (· != '<')))

theorem eventsWithin_eq (opened : List Text) (text : Text) :
    eventsWithin opened text = eventsFrom opened (text.dropWhile isSpace) := by
  rw [eventsWithin]
  split
  · next nothing =>
      rw [nothing]
      rfl
  · next markup begins =>
      refine Eq.trans ?_ (congrArg (eventsFrom opened) begins).symm
      rw [eventsFrom]
      cases read : readMarkup markup with
      | error fault => rfl
      | ok found =>
          obtain ⟨piece, rest, shorter⟩ := found
          cases piece with
          | skipped | start | empty | verbatim => rfl
          | ending name =>
              cases opened with
              | nil => rfl
              | cons expected outer =>
                  by_cases same : expected = name
                  · simp only [Piece.eventsThen, if_pos same]
                    rfl
                  · simp only [Piece.eventsThen, if_neg same]
  · next first others notMarkup begins =>
      refine Eq.trans ?_ (congrArg (eventsFrom opened) begins).symm
      rw [eventsFrom]
      · rfl
      · exact notMarkup

variable {opened : List Text}

theorem eventsWithin_markup {markup rest : Text} {piece : Piece}
    (read : ∃ shorter, readMarkup markup = .ok (piece, ⟨rest, shorter⟩)) :
    eventsWithin opened ('<' :: markup) = piece.eventsThen opened rest := by
  obtain ⟨_, read⟩ := read
  have begins : ('<' :: markup).dropWhile isSpace = '<' :: markup := rfl
  rw [eventsWithin_eq, begins, eventsFrom, read]

theorem eventsWithin_start (written : WrittenTag) (rest : Text) :
    eventsWithin opened ('<' :: (written.content ++ '>' :: rest)) =
      behind (.start written.tag) (eventsWithin (written.name :: opened) rest) := by
  rw [eventsWithin_markup (readMarkup_start written rest), Piece.eventsThen, written.name_tag]

theorem eventsWithin_empty (written : WrittenTag) (rest : Text) :
    eventsWithin opened ('<' :: (written.content ++ '/' :: '>' :: rest)) =
      behind (.empty written.tag) (eventsWithin opened rest) :=
  eventsWithin_markup (readMarkup_empty written rest)

theorem eventsWithin_ending {name closing : Text} (isName : IsName name) (blank : IsSpaces closing)
    (rest : Text) :
    eventsWithin (name :: opened) ('<' :: '/' :: (name ++ (closing ++ '>' :: rest))) =
      behind .ending (eventsWithin opened rest) := by
  rw [eventsWithin_markup (readMarkup_ending isName blank rest)]
  exact if_pos rfl

theorem eventsWithin_comment {body : Text} (absent : ¬['-', '-', '>'] <:+: body) (rest : Text) :
    eventsWithin opened ('<' :: '!' :: '-' :: '-' :: (body ++ '-' :: '-' :: '>' :: rest)) =
      eventsWithin opened rest :=
  eventsWithin_markup (readMarkup_comment absent rest)

/-- Text in front of markup is one event. -/
theorem eventsWithin_text {first : Char} {others rest : Text} (visible : isSpace first = false)
    (noMarkup : '<' ∉ first :: others) (boundary : ∀ c ∈ rest.head?, c = '<') :
    eventsWithin opened (first :: others ++ rest) =
      behind (.text (Text.dropRightWhile isSpace (first :: others))) (eventsWithin opened rest) := by
  obtain ⟨apart, absent⟩ := not_or.mp (List.mem_cons.not.mp noMarkup)
  obtain ⟨taken, dropped⟩ := Text.takeWhile_dropWhile_append (· != '<') others rest
    (fun c member => bne_iff_ne.mpr fun same => absent (same ▸ member))
    (fun c member => by simp [boundary c member])
  have begins : (first :: others ++ rest).dropWhile isSpace = first :: (others ++ rest) :=
    List.dropWhile_cons_of_neg (by simp [visible])
  rw [eventsWithin_eq, begins, eventsFrom, taken, dropped]
  exact fun same => apart same.symm

end Markup

end TabularModel
