import TabularModel.Toml.Scalar

/-!
# Strings of a settings document

A string stands in double quotes, where a backslash begins an escape, or in
single quotes, where everything stands for itself. Three quotes begin a string
of several lines; a line feed right behind them does not belong to it, and up to
two quotes may stand in front of the closing ones.
-/

set_option autoImplicit false

namespace TabularModel

namespace Toml

/-- A tab, or any other character that is no control character. -/
def isPrintable (c : Char) : Bool :=
  c == '\t' || (0x20 ≤ c.toNat && c.toNat != 0x7F)

/-- The character whose code is written by the given number of digits in base
sixteen. -/
def codePoint? (count : Nat) (text : Text) : Option (Char × Text) :=
  let digits := text.take count
  if digits.length = count ∧ digits.all (isDigitBelow 16) then
    let code := digits.foldl (fun total c => total * 16 + (hexValue? c).getD 0) 0
    if code.isValidChar then some (Char.ofNat code, text.drop count) else none
  else none

/-- The character that is written by what follows a backslash. -/
def escape? : Text -> Option (Char × Text)
  | [] => none
  | c :: rest =>
      if c = '"' ∨ c = '\\' then some (c, rest)
      else if c = 'b' then some ('\x08', rest)
      else if c = 't' then some ('\t', rest)
      else if c = 'n' then some ('\n', rest)
      else if c = 'f' then some ('\x0c', rest)
      else if c = 'r' then some ('\r', rest)
      else if c = 'e' then some ('\x1b', rest)
      else if c = 'x' then codePoint? 2 rest
      else if c = 'u' then codePoint? 4 rest
      else if c = 'U' then codePoint? 8 rest
      else none

def dropNewline? : Text -> Option Text
  | '\n' :: rest => some rest
  | '\r' :: '\n' :: rest => some rest
  | _ => none

def isSpace (c : Char) : Bool :=
  c == ' ' || c == '\t'

def dropSpacesAndNewlines : Text -> Text
  | [] => []
  | '\r' :: '\n' :: rest => dropSpacesAndNewlines rest
  | c :: rest => if isSpace c ∨ c = '\n' then dropSpacesAndNewlines rest else c :: rest

/-- A backslash at the end of a line drops all blanks up to the next character. -/
def continuedLine? (text : Text) : Option Text :=
  (dropNewline? (text.dropWhile isSpace)).map dropSpacesAndNewlines

/-- Where a string of several lines ends: the quotes that still belong to it, and
what follows it. -/
def closing? (mark : Char) : Text -> Option (Text × Text)
  | a :: b :: c :: rest =>
      if a = mark ∧ b = mark ∧ c = mark then
        match rest with
        | d :: e :: after =>
            if d = mark then
              if e = mark then some ([d, e], after) else some ([d], e :: after)
            else some ([], rest)
        | [d] => if d = mark then some ([d], []) else some ([], rest)
        | [] => some ([], [])
      else none
  | _ => none

/-- The kinds of strings: whether escapes are read, and whether the string may
have several lines. -/
structure Quoting where
  mark : Char
  escapes : Bool
  manyLines : Bool
deriving DecidableEq, Repr

/-- A part of a string at the start of a text: some characters, or its end. -/
inductive Piece where
  | content (characters : Text) (rest : Text)
  | finished (characters : Text) (rest : Text)
deriving Repr

def piece? (quoting : Quoting) (text : Text) : Option Piece :=
  match text with
  | [] => none
  | c :: rest =>
      if c = quoting.mark then
        if quoting.manyLines then
          match closing? quoting.mark text with
          | some (quotes, after) => some (.finished quotes after)
          | none => some (.content [c] rest)
        else some (.finished [] rest)
      else if c = '\\' ∧ quoting.escapes then
        match (if quoting.manyLines then continuedLine? rest else none) with
        | some after => some (.content [] after)
        | none => (escape? rest).map fun (character, after) => .content [character] after
      else if isPrintable c then some (.content [c] rest)
      else if quoting.manyLines then
        (dropNewline? text).map fun after => .content (text.take (text.length - after.length)) after
      else none

/-- A string up to its closing quotes, and what follows them. -/
def body? (quoting : Quoting) (text : Text) : Option (Text × Text) :=
  match piece? quoting text with
  | none => none
  | some (.finished characters rest) => some (characters, rest)
  | some (.content characters rest) =>
      if rest.length < text.length then
        (body? quoting rest).map fun (content, after) => (characters ++ content, after)
      else none
termination_by text.length

/-- A string of one line, if one begins the text. -/
def shortString? : Text -> Option (Text × Text)
  | '"' :: rest => body? ⟨'"', true, false⟩ rest
  | '\'' :: rest => body? ⟨'\'', false, false⟩ rest
  | _ => none

/-- A string of any kind, if one begins the text. -/
def string? (text : Text) : Option (Text × Text) :=
  let first := fun (rest : Text) => (dropNewline? rest).getD rest
  match text with
  | '"' :: '"' :: '"' :: rest => body? ⟨'"', true, true⟩ (first rest)
  | '\'' :: '\'' :: '\'' :: rest => body? ⟨'\'', false, true⟩ (first rest)
  | _ => shortString? text

end Toml

end TabularModel
