import TabularModel.Json.Basic

/-!
# Reading interchange text

A text is cut into tokens, and the tokens are put together with a stack of the
containers that are still open. Strings may not hold a bare control character,
and are texts only if every escaped surrogate is one half of a pair.
-/

set_option autoImplicit false

namespace TabularModel

namespace Json

inductive Token where
  | openArray
  | closeArray
  | openObject
  | closeObject
  | comma
  | colon
  | value (json : Json)
deriving Repr

def isSpace (c : Char) : Bool :=
  c == ' ' || c == '\n' || c == '\t' || c == '\r'

def hexValue? (c : Char) : Option Nat :=
  if '0' ≤ c ∧ c ≤ '9' then some (c.toNat - '0'.toNat)
  else if 'a' ≤ c ∧ c ≤ 'f' then some (c.toNat - 'a'.toNat + 10)
  else if 'A' ≤ c ∧ c ≤ 'F' then some (c.toNat - 'A'.toNat + 10)
  else none

/-- The number written by four hexadecimal digits. -/
def unit? (a b c d : Char) : Option Nat := do
  return (<- hexValue? a) * 4096 + (<- hexValue? b) * 256 + (<- hexValue? c) * 16 +
    (<- hexValue? d)

def simpleEscape? (c : Char) : Option Char :=
  if c = '"' ∨ c = '\\' ∨ c = '/' then some c
  else if c = 'b' then some '\x08'
  else if c = 'f' then some '\x0c'
  else if c = 'n' then some '\n'
  else if c = 'r' then some '\r'
  else if c = 't' then some '\t'
  else none

def isLeading (unit : Nat) : Bool :=
  0xD800 ≤ unit && unit ≤ 0xDBFF

def isTrailing (unit : Nat) : Bool :=
  0xDC00 ≤ unit && unit ≤ 0xDFFF

/-- The codes in a string up to its closing quote, and what follows it. An escape
with four digits gives its number as it is. -/
def stringBody? : Text -> Option (List Nat × Text)
  | [] => none
  | '"' :: rest => some ([], rest)
  | '\\' :: 'u' :: a :: b :: c :: d :: rest =>
      match unit? a b c d with
      | none => none
      | some unit => (stringBody? rest).map fun (codes, after) => (unit :: codes, after)
  | '\\' :: c :: rest =>
      match simpleEscape? c with
      | none => none
      | some escaped =>
          (stringBody? rest).map fun (codes, after) => (escaped.toNat :: codes, after)
  | c :: rest =>
      if c.toNat < 32 ∨ c = '\\' then none
      else (stringBody? rest).map fun (codes, after) => (c.toNat :: codes, after)

/-- The text of some codes, in which a leading surrogate is one character with the
trailing one behind it. A surrogate that is no half of a pair belongs to no
text. -/
def textOf? : List Nat -> Option Text
  | [] => some []
  | code :: codes =>
      if isLeading code then
        match codes with
        | trailing :: rest =>
            if isTrailing trailing then
              let joined := 0x10000 + (code - 0xD800) * 0x400 + (trailing - 0xDC00)
              (textOf? rest).map (Char.ofNat joined :: ·)
            else none
        | [] => none
      else if isTrailing code then none
      else (textOf? codes).map (Char.ofNat code :: ·)

def ofCodes (codes : List Nat) : Json :=
  match textOf? codes with
  | some content => .string content
  | none => .broken

def isDigit := Decimal.isDigit

/-- The whole part of a number: a zero alone, or digits that begin with another
one. -/
def wholePart? (text : Text) : Option (Text × Text) :=
  match text with
  | '0' :: rest => some (['0'], rest)
  | _ =>
      let digits := text.takeWhile isDigit
      if digits.isEmpty then none else some (digits, text.dropWhile isDigit)

def fractionPart? (text : Text) : Option (Option Text × Text) :=
  match text with
  | '.' :: rest =>
      let digits := rest.takeWhile isDigit
      if digits.isEmpty then none else some (some digits, rest.dropWhile isDigit)
  | _ => some (none, text)

def exponentDigits? (text : Text) : Option (Nat × Text) :=
  let digits := text.takeWhile isDigit
  if digits.isEmpty then none else some (Decimal.value digits, text.dropWhile isDigit)

def exponentPart? (text : Text) : Option (Option Int × Text) :=
  match text with
  | mark :: rest =>
      if mark = 'e' ∨ mark = 'E' then
        match rest with
        | '-' :: rest => (exponentDigits? rest).map fun (n, after) => (some (-(n : Int)), after)
        | '+' :: rest => (exponentDigits? rest).map fun (n, after) => (some (n : Int), after)
        | rest => (exponentDigits? rest).map fun (n, after) => (some (n : Int), after)
      else some (none, text)
  | [] => some (none, [])

def numeral? (negative : Bool) (text : Text) : Option (Decimal.Numeral × Text) := do
  let (whole, text) <- wholePart? text
  let (fraction, text) <- fractionPart? text
  let (exponent, text) <- exponentPart? text
  return (⟨negative, whole, fraction, exponent⟩, text)

/-- The first token of a text that does not begin with a space. -/
def token? (text : Text) : Option (Token × Text) :=
  match text with
  | [] => none
  | '[' :: rest => some (.openArray, rest)
  | ']' :: rest => some (.closeArray, rest)
  | '{' :: rest => some (.openObject, rest)
  | '}' :: rest => some (.closeObject, rest)
  | ',' :: rest => some (.comma, rest)
  | ':' :: rest => some (.colon, rest)
  | '"' :: rest => (stringBody? rest).map fun (codes, after) => (.value (ofCodes codes), after)
  | '-' :: rest =>
      (numeral? true rest).map fun (numeral, after) => (.value (.number numeral), after)
  | 't' :: 'r' :: 'u' :: 'e' :: rest => some (.value (.bool true), rest)
  | 'f' :: 'a' :: 'l' :: 's' :: 'e' :: rest => some (.value (.bool false), rest)
  | 'n' :: 'u' :: 'l' :: 'l' :: rest => some (.value .null, rest)
  | _ => (numeral? false text).map fun (numeral, after) => (.value (.number numeral), after)

/-- The tokens of a text, if it consists of tokens and spaces. -/
def tokens? (text : Text) : Option (List Token) :=
  match text.dropWhile isSpace with
  | [] => some []
  | first :: rest =>
      match token? (first :: rest) with
      | none => none
      | some (token, after) =>
          if after.length < text.length then (tokens? after).map (token :: ·) else none
termination_by text.length

/-- A container that has begun, with its items or members in reverse. The key of
a member, which may be no text, is held until its value is complete. -/
inductive Container where
  | array (items : List Json)
  | object (members : List (Json × Json)) (key : Option Json)
deriving Repr

/-- The members of an object, if all their keys are texts. -/
def textMembers? (members : List (Json × Json)) : Option (List (Text × Json)) :=
  members.mapM fun (key, value) => key.string?.map fun name => (name, value)

def ofMembers (members : List (Json × Json)) : Json :=
  match textMembers? members with
  | some named => .object named
  | none => .broken

/-- What the next token may be. -/
inductive Expectation where
  | value
  | valueOrClose
  | key
  | keyOrClose
  | colon
  | more
  | nothing
deriving DecidableEq, Repr

/-- The containers that have begun, the innermost first. -/
structure Assembly where
  opened : List Container
  expected : Expectation
  result : Option Json
deriving Repr

namespace Assembly

def start : Assembly := ⟨[], .value, none⟩

/-- Puts a complete value where it belongs. -/
def complete? (assembly : Assembly) (value : Json) : Option Assembly :=
  match assembly.opened with
  | [] => some ⟨[], .nothing, some value⟩
  | .array items :: outer => some ⟨.array (value :: items) :: outer, .more, none⟩
  | .object members (some key) :: outer =>
      some ⟨.object ((key, value) :: members) none :: outer, .more, none⟩
  | .object _ none :: _ => none

def beginArray (assembly : Assembly) : Assembly :=
  ⟨.array [] :: assembly.opened, .valueOrClose, none⟩

def beginObject (assembly : Assembly) : Assembly :=
  ⟨.object [] none :: assembly.opened, .keyOrClose, none⟩

def endArray? (assembly : Assembly) : Option Assembly :=
  match assembly.opened with
  | .array items :: outer =>
      { assembly with opened := outer }.complete? (.array items.reverse)
  | _ => none

def endObject? (assembly : Assembly) : Option Assembly :=
  match assembly.opened with
  | .object members none :: outer =>
      { assembly with opened := outer }.complete? (ofMembers members.reverse)
  | _ => none

def takeKey? (assembly : Assembly) (key : Json) : Option Assembly :=
  match assembly.opened with
  | .object members none :: outer => some ⟨.object members (some key) :: outer, .colon, none⟩
  | _ => none

def takeComma? (assembly : Assembly) : Option Assembly :=
  match assembly.opened with
  | .array _ :: _ => some { assembly with expected := .value }
  | .object _ _ :: _ => some { assembly with expected := .key }
  | [] => none

def step? (assembly : Assembly) (token : Token) : Option Assembly :=
  match assembly.expected, token with
  | .value, .value json | .valueOrClose, .value json => assembly.complete? json
  | .value, .openArray | .valueOrClose, .openArray => some assembly.beginArray
  | .value, .openObject | .valueOrClose, .openObject => some assembly.beginObject
  | .valueOrClose, .closeArray | .more, .closeArray => assembly.endArray?
  | .keyOrClose, .closeObject | .more, .closeObject => assembly.endObject?
  | .key, .value (.string key) | .keyOrClose, .value (.string key) =>
      assembly.takeKey? (.string key)
  | .key, .value .broken | .keyOrClose, .value .broken => assembly.takeKey? .broken
  | .colon, .colon => some { assembly with expected := .value }
  | .more, .comma => assembly.takeComma?
  | _, _ => none

end Assembly

/-- The value that a whole text stands for. -/
def ofText? (text : Text) : Option Json := do
  let tokens <- tokens? text
  let assembly <- tokens.foldlM Assembly.step? Assembly.start
  assembly.result

end Json

end TabularModel
