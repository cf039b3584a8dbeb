import TabularModel.Markup.Entity

/-!
# Tags and their attributes

The content of a tag is its name and a list of attributes. Attributes are read
from the left until the wanted one is found, so a fault behind it is never
noticed, while one in front of it is.
-/

set_option autoImplicit false

namespace TabularModel

namespace Markup

def isSpace (c : Char) : Bool :=
  c == ' ' || c == '\t' || c == '\r' || c == '\n'

/-- The part of a name after its first colon, or the whole of it. -/
def localName (name : Text) : Text :=
  match Text.splitAt? ':' name with
  | some (_, rest) => rest
  | none => name

/-- A tag without its angle brackets and without the slash that ends an empty
one. -/
structure Tag where
  content : Text
deriving DecidableEq, Repr

/-- An attribute with its value as written. -/
structure Attribute where
  key : Text
  value : Text
deriving DecidableEq, Repr

theorem length_dropWhile_le (p : Char -> Bool) (text : Text) :
    (text.dropWhile p).length ≤ text.length :=
  (List.dropWhile_suffix p).length_le

/-- What stands after a key and its equals sign: a quoted value and the rest. -/
def readValue (position : Nat) (text : Text) :
    Except Fault (Text × Nat × { rest : Text // rest.length ≤ text.length }) :=
  let start := position + (text.takeWhile isSpace).length
  match h : text.dropWhile isSpace with
  | [] => .error (.expectedValue start)
  | quote :: quoted =>
      if quote = '"' ∨ quote = '\'' then
        let value := quoted.takeWhile (· != quote)
        let closing := start + 1 + Text.byteLength value
        match hq : quoted.dropWhile (· != quote) with
        | [] => .error (.unclosedQuote closing quote)
        | _ :: rest =>
            .ok (value, closing + 1, ⟨rest, by
              have first := length_dropWhile_le isSpace text
              have second := length_dropWhile_le (· != quote) quoted
              rw [h] at first
              rw [hq] at second
              simp only [List.length_cons] at first second
              omega⟩)
      else .error (.unquotedValue start)

/-- The attributes in `text`, which starts at `position` of its tag, up to the
first fault. `earlier` has the keys already read with their positions. -/
def readAttributes (position : Nat) (earlier : List (Text × Nat)) (text : Text) :
    List Attribute × Option Fault :=
  let start := position + (text.takeWhile isSpace).length
  match h : text.dropWhile isSpace with
  | [] => ([], none)
  | first :: others =>
      let inKey := fun c => c ≠ '=' && !isSpace c
      let key := first :: others.takeWhile inKey
      let past := start + Text.byteLength key
      let gap := (others.dropWhile inKey).takeWhile isSpace
      let equals := past + gap.length
      match he : (others.dropWhile inKey).dropWhile isSpace with
      | '=' :: valueText =>
          match earlier.find? (·.1 == key) with
          | some (_, previous) => ([], some (.duplicated start previous))
          | none =>
              match readValue (equals + 1) valueText with
              | .error fault => ([], some fault)
              | .ok (value, next, ⟨rest, bound⟩) =>
                  have : rest.length < text.length := by
                    have whole := length_dropWhile_le isSpace text
                    have afterKey := length_dropWhile_le inKey others
                    have afterGap := length_dropWhile_le isSpace (others.dropWhile inKey)
                    rw [h] at whole
                    rw [he] at afterGap
                    simp only [List.length_cons] at whole afterGap
                    omega
                  let (attributes, fault) := readAttributes next (earlier ++ [(key, start)]) rest
                  (⟨key, value⟩ :: attributes, fault)
      | _ => ([], some (.expectedEquals equals))
termination_by text.length

namespace Tag

def name (tag : Tag) : Text :=
  tag.content.takeWhile (!isSpace ·)

def localName (tag : Tag) : Text :=
  Markup.localName tag.name

def attributes (tag : Tag) : List Attribute × Option Fault :=
  readAttributes (Text.byteLength tag.name) [] (tag.content.drop tag.name.length)

/-- The value of the first attribute with the given local name. -/
def attribute? (tag : Tag) (key : Text) : Except Fault (Option Text) :=
  let (attributes, fault) := tag.attributes
  match attributes.find? (Markup.localName ·.key == key) with
  | some found => (unescape found.value).map some
  | none =>
      match fault with
      | some fault => .error fault
      | none => .ok none

end Tag

end Markup

end TabularModel
