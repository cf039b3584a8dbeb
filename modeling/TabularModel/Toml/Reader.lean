import TabularModel.Toml.Quoted

/-!
# Reading settings documents

A document has one statement in a line: a header that opens a table, or a key
with its value. Arrays and tables that are written in line may take several
lines and may end with a comma. A path may have eighty keys, and as deep arrays
and tables may be nested.
-/

set_option autoImplicit false

namespace TabularModel

namespace Toml

/-- Drops blanks, line ends and comments. -/
def dropFiller : Text -> Text
  | [] => []
  | c :: rest =>
      if isSpace c ∨ c = '\n' ∨ (c = '\r' ∧ rest.head? = some '\n') then dropFiller rest
      else if c = '#' then dropFiller (rest.dropWhile isPrintable)
      else c :: rest
termination_by text => text.length
decreasing_by
  · exact Nat.lt_succ_self _
  · exact Nat.lt_succ_of_le (List.dropWhile_sublist isPrintable).length_le

/-- What follows the end of the line, where only blanks and a comment may stand
in front of it. -/
def nextLine? (text : Text) : Option Text :=
  let trimmed := text.dropWhile isSpace
  let bare :=
    match trimmed with
    | '#' :: rest => rest.dropWhile isPrintable
    | _ => trimmed
  match bare with
  | [] => some []
  | _ => dropNewline? bare

def isBareKeyCharacter (c : Char) : Bool :=
  Text.isLetterOrDigit c || c == '-'

def key? (text : Text) : Option (Text × Text) :=
  match text with
  | '"' :: _ | '\'' :: _ => shortString? text
  | _ =>
      match text.takeWhile isBareKeyCharacter with
      | [] => none
      | name => some (name, text.dropWhile isBareKeyCharacter)

/-- How many keys a path may have, and how deep arrays and tables in line may be
nested. -/
def deepest : Nat := 80

/-- At most the given number of keys, which are joined by points, and what follows
them. -/
def keys? : (most : Nat) -> Text -> Option (List Text × Text)
  | 0, _ => none
  | most + 1, text =>
      match key? (text.dropWhile isSpace) with
      | none => none
      | some (name, after) =>
          match after.dropWhile isSpace with
          | '.' :: rest => (keys? most rest).map fun (names, left) => (name :: names, left)
          | left => some ([name], left)

/-- The keys of a path and what follows it. -/
def path? (text : Text) : Option (List Text × Text) :=
  keys? deepest text

/-- A word ends in front of a blank, a quote or a mark that has a meaning of its
own. -/
def isWordCharacter (c : Char) : Bool :=
  !(isSpace c || "\n\r,[]\x7b\x7d#=\"'".toList.contains c)

/-- A word, with the time that may follow a date after one space. -/
def word (text : Text) : Text × Text :=
  let first := text.takeWhile isWordCharacter
  let rest := text.dropWhile isWordCharacter
  match rest with
  | ' ' :: digit :: after =>
      if (day? first).isSome ∧ Decimal.isDigit digit then
        (first ++ ' ' :: (digit :: after).takeWhile isWordCharacter,
          (digit :: after).dropWhile isWordCharacter)
      else (first, rest)
  | _ => (first, rest)

/-- Reads a value at the start of a text. -/
abbrev ValueReader := Text -> Option (Toml × Text)

/-- The items of an array up to its closing bracket. -/
def items? (value : ValueReader) (text : Text) : Option (List Toml × Text) :=
  match dropFiller text with
  | ']' :: rest => some ([], rest)
  | body =>
      match value body with
      | none => none
      | some (item, after) =>
          match dropFiller after with
          | ']' :: rest => some ([item], rest)
          | ',' :: rest =>
              if rest.length < text.length then
                (items? value rest).map fun (items, left) => (item :: items, left)
              else none
          | _ => none
termination_by text.length

/-- A path with the value behind the equals sign. What may stand around the sign
is dropped. -/
def assignment? (dropped : Text -> Text) (value : ValueReader) (text : Text) :
    Option ((List Text × Toml) × Text) :=
  match path? text with
  | none => none
  | some (path, after) =>
      match dropped after with
      | '=' :: rest =>
          (value (dropped rest)).map fun (assigned, after) => ((path, assigned), after)
      | _ => none

/-- The members of a table in line up to its closing brace. -/
def members? (value : ValueReader) (members : Members) (text : Text) :
    Option (Members × Text) :=
  match dropFiller text with
  | '}' :: rest => some (members, rest)
  | body =>
      match assignment? dropFiller value body with
      | none => none
      | some ((path, assigned), after) =>
          match assign path assigned .inLine members with
          | none => none
          | some extended =>
              match dropFiller after with
              | '}' :: rest => some (extended, rest)
              | ',' :: rest =>
                  if rest.length < text.length then members? value extended rest else none
              | _ => none
termination_by text.length

/-- A value in which containers may be nested to the given depth. -/
def value? : (depth : Nat) -> ValueReader
  | depth, '[' :: rest =>
      match depth with
      | 0 => none
      | inner + 1 =>
          (items? (value? inner) rest).map fun (items, after) => (.array false items, after)
  | depth, '{' :: rest =>
      match depth with
      | 0 => none
      | inner + 1 =>
          (members? (value? inner) [] rest).map fun (members, after) =>
            (.table .inLine members, after)
  | _, text =>
      match text with
      | '"' :: _ | '\'' :: _ => (string? text).map fun (content, after) => (.string content, after)
      | _ => (scalar? (word text).1).map fun scalar => (scalar, (word text).2)

/-- Carries out the statement at the start of a line, if there is one. -/
def statement? (document : Document) (text : Text) : Option (Document × Text) :=
  match text.dropWhile isSpace with
  | [] => some (document, [])
  | '[' :: '[' :: rest =>
      match path? rest with
      | some (path, ']' :: ']' :: after) =>
          (document.open? path openItem).map fun opened => (opened, after)
      | _ => none
  | '[' :: rest =>
      match path? rest with
      | some (path, ']' :: after) =>
          (document.open? path openTable).map fun opened => (opened, after)
      | _ => none
  | c :: rest =>
      if c = '#' ∨ c = '\n' ∨ c = '\r' then some (document, c :: rest)
      else
        match assignment? (·.dropWhile isSpace) (value? deepest) (c :: rest) with
        | some ((path, assigned), after) =>
            (document.assign? path assigned).map fun extended => (extended, after)
        | none => none

/-- Carries out the statements of a text, line by line. -/
def readFrom? (document : Document) (text : Text) : Option Document :=
  match statement? document text with
  | none => none
  | some (changed, after) =>
      match nextLine? after with
      | none => none
      | some rest => if rest.length < text.length then readFrom? changed rest else some changed
termination_by text.length

def byteOrderMark : Char := '\uFEFF'

/-- The table that a whole text stands for. A byte order mark in front is passed
over. -/
def ofText? (text : Text) : Option Toml :=
  let body := if text.head? = some byteOrderMark then text.drop 1 else text
  (readFrom? .empty body).map Document.root

end Toml

end TabularModel
