import TabularModel.Markup.Tag

/-!
# Events of a markup document

A document is read as a sequence of start tags, empty tags, end tags, text runs
and verbatim character data. Comments, instructions, declarations and the
document type are passed over. Text runs lose the spaces at their ends before
references in them are read. Reading stops at the first fault; the events in
front of it have been delivered by then.
-/

set_option autoImplicit false

namespace TabularModel

namespace Markup

inductive Event where
  | start (tag : Tag)
  | empty (tag : Tag)
  | ending
  | text (raw : Text)
  | verbatim (content : Text)
deriving DecidableEq, Repr

/-- How the end of a piece of markup is recognised: by a state that follows the
characters, and that allows a closing bracket to end the piece or not. -/
structure Closing (State : Type) where
  initial : State
  advance : State -> Char -> State
  allows : State -> Bool

/-- Splits at the first closing bracket that may end the piece. -/
def Closing.split? {State : Type} (closing : Closing State) (state : State) :
    Text -> Option (Text × Text)
  | [] => none
  | c :: rest =>
      if c = '>' ∧ closing.allows state then some ([], rest)
      else
        (closing.split? (closing.advance state c) rest).map
          fun (content, after) => (c :: content, after)

theorem Closing.length_lt_of_split? {State : Type} (closing : Closing State) (state : State)
    (text content after : Text) (found : closing.split? state text = some (content, after)) :
    after.length < text.length := by
  induction text generalizing state content with
  | nil => simp [Closing.split?] at found
  | cons c rest ih =>
      rw [Closing.split?] at found
      split at found
      · simp only [Option.some.injEq, Prod.mk.injEq] at found
        simp [found.2]
      · obtain ⟨⟨inner, left⟩, innerFound, same⟩ := Option.map_eq_some_iff.mp found
        simp only [Prod.mk.injEq] at same
        have smaller := ih (closing.advance state c) inner (same.2 ▸ innerFound)
        simp only [List.length_cons]
        omega

namespace Closing

/-- A tag ends outside quotes. -/
def tag : Closing (Option Char) where
  initial := none
  advance
    | none, c => if c = '"' ∨ c = '\'' then some c else none
    | some quote, c => if c = quote then none else some quote
  allows state := state.isNone

def countRun (mark : Char) (run : Nat) (c : Char) : Nat :=
  if c = mark then run + 1 else 0

/-- A comment ends after two hyphens that are not the ones that opened it. -/
def comment : Closing (Nat × Nat) where
  initial := (0, 0)
  advance state c := (state.1 + 1, countRun '-' state.2 c)
  allows state := 4 < state.1 && 2 ≤ state.2

def characterData : Closing Nat where
  initial := 0
  advance := countRun ']'
  allows run := 2 ≤ run

/-- A document type ends where its brackets are balanced. -/
def documentType : Closing Nat where
  initial := 0
  advance depth c := if c = '<' then depth + 1 else if c = '>' then depth - 1 else depth
  allows depth := depth == 0

def instruction : Closing Bool where
  initial := false
  advance _ c := c == '?'
  allows questioned := questioned

end Closing

/-- One piece of markup. -/
inductive Piece where
  | start (tag : Tag)
  | empty (tag : Tag)
  | ending (name : Text)
  | verbatim (content : Text)
  | skipped
deriving DecidableEq, Repr

namespace Piece

def ofElement (content : Text) : Piece :=
  match Text.dropEnd? "/" content with
  | some inner => .empty ⟨inner⟩
  | none => .start ⟨content⟩

/-- Spaces behind the name of an end tag are not part of it. If there is nothing
else, they are taken as the name. -/
def ofEnding (content : Text) : Piece :=
  let written := content.tail
  .ending (if written.all isSpace then written else Text.dropRightWhile isSpace written)

def ofComment? (content : Text) : Except Fault Piece :=
  if (Text.dropStart? "!--" content).isSome then .ok .skipped
  else .error .commentNotClosed

def ofCharacterData? (content : Text) : Except Fault Piece :=
  match Text.dropStart? "![CDATA[" content with
  | some inner => .ok (.verbatim (inner.take (inner.length - 2)))
  | none => .error .characterDataNotClosed

def ofDocumentType? (content : Text) : Except Fault Piece :=
  match Text.dropStart? "!doctype" (Text.lower content) with
  | some name =>
      if name.all isSpace then .error .documentTypeWithoutName else .ok .skipped
  | none => .error .documentTypeNotClosed

def ofInstruction? (content : Text) : Except Fault Piece :=
  if 1 < content.length then .ok .skipped else .error .instructionNotClosed

end Piece

/-- Reads one piece up to its end, with the text that follows it. -/
def readPiece {State : Type} (closing : Closing State) (unclosed : Fault)
    (interpret : Text -> Except Fault Piece) (text : Text) :
    Except Fault (Piece × { rest : Text // rest.length < text.length }) :=
  match found : closing.split? closing.initial text with
  | none => .error unclosed
  | some (content, rest) =>
      (interpret content).map fun piece =>
        (piece, ⟨rest, closing.length_lt_of_split? _ _ _ _ found⟩)

/-- Reads the markup that follows an opening bracket. What it begins with says
of which kind it is. -/
def readMarkup (text : Text) :
    Except Fault (Piece × { rest : Text // rest.length < text.length }) :=
  match text with
  | '!' :: '[' :: rest =>
      readPiece .characterData .characterDataNotClosed Piece.ofCharacterData? ('!' :: '[' :: rest)
  | '!' :: '-' :: rest =>
      readPiece .comment .commentNotClosed Piece.ofComment? ('!' :: '-' :: rest)
  | '!' :: 'D' :: rest =>
      readPiece .documentType .documentTypeNotClosed Piece.ofDocumentType? ('!' :: 'D' :: rest)
  | '!' :: 'd' :: rest =>
      readPiece .documentType .documentTypeNotClosed Piece.ofDocumentType? ('!' :: 'd' :: rest)
  | '!' :: _ => .error .unknownMarkup
  | '?' :: rest =>
      readPiece .instruction .instructionNotClosed Piece.ofInstruction? ('?' :: rest)
  | '/' :: rest =>
      readPiece .tag .tagNotClosed (fun content => .ok (.ofEnding content)) ('/' :: rest)
  | text => readPiece .tag .tagNotClosed (fun content => .ok (.ofElement content)) text

/-- The events of a text inside the elements whose full names are given, the
innermost first. -/
def eventsWithin (opened : List Text) (text : Text) : List Event × Option Fault :=
  match h : text.dropWhile isSpace with
  | [] => ([], none)
  | '<' :: markup =>
      match readMarkup markup with
      | .error fault => ([], some fault)
      | .ok (piece, ⟨rest, shorter⟩) =>
          have : rest.length < text.length := by
            have whole := length_dropWhile_le isSpace text
            rw [h] at whole
            simp only [List.length_cons] at whole
            omega
          match piece with
          | .skipped => eventsWithin opened rest
          | .start tag =>
              let (events, fault) := eventsWithin (tag.name :: opened) rest
              (.start tag :: events, fault)
          | .empty tag =>
              let (events, fault) := eventsWithin opened rest
              (.empty tag :: events, fault)
          | .verbatim content =>
              let (events, fault) := eventsWithin opened rest
              (.verbatim content :: events, fault)
          | .ending name =>
              match opened with
              | [] => ([], some (.unmatchedEnd name))
              | expected :: outer =>
                  if expected = name then
                    let (events, fault) := eventsWithin outer rest
                    (.ending :: events, fault)
                  else ([], some (.mismatchedEnd expected name))
  | first :: others =>
      have : (others.dropWhile (· != '<')).length < text.length := by
        have whole := length_dropWhile_le isSpace text
        have afterRun := length_dropWhile_le (· != '<') others
        rw [h] at whole
        simp only [List.length_cons] at whole
        omega
      let run := first :: others.takeWhile (· != '<')
      let (events, fault) := eventsWithin opened (others.dropWhile (· != '<'))
      (.text (Text.dropRightWhile isSpace run) :: events, fault)
termination_by text.length

/-- The events of a document, which may begin with a byte order mark. -/
def events (document : Text) : List Event × Option Fault :=
  match document with
  | '\uFEFF' :: rest => eventsWithin [] rest
  | document => eventsWithin [] document

end Markup

end TabularModel
