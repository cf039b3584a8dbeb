import TabularModel.Markup.Fault

/-!
# Character references

A reference stands between an ampersand and the next semicolon. It is one of
five names, or the number of a character in decimal or hexadecimal digits. A
text is cut at its ampersands, so each piece but the first begins with a
reference.
-/

set_option autoImplicit false

namespace TabularModel

namespace Markup

def digitIn (base : Nat) (c : Char) : Option Nat :=
  let digit :=
    if '0' ≤ c ∧ c ≤ '9' then c.toNat - '0'.toNat
    else if 'a' ≤ c ∧ c ≤ 'z' then c.toNat - 'a'.toNat + 10
    else if 'A' ≤ c ∧ c ≤ 'Z' then c.toNat - 'A'.toNat + 10
    else base
  if digit < base then some digit else none

/-- Digits of a number of 32 bits. The first digit that is none, or that makes
the number too large, decides the fault. -/
def numberIn (base total : Nat) : Text -> Except ReferenceFault Nat
  | [] => .ok total
  | c :: rest =>
      match digitIn base c with
      | none => .error .invalidDigit
      | some digit =>
          let next := total * base + digit
          if next < 4294967296 then numberIn base next rest else .error .tooLarge

def unsignedIn (base : Nat) (digits : Text) : Except ReferenceFault Nat :=
  match digits with
  | [] => .error .noDigits
  | first :: _ =>
      if first = '+' ∨ first = '-' then .error .signed else numberIn base 0 digits

def characterOf (code : Nat) : Except ReferenceFault Char :=
  if code = 0 then .error .zero
  else if code < 0xD800 ∨ (0xDFFF < code ∧ code < 0x110000) then .ok (Char.ofNat code)
  else .error (.notACharacter code)

def numericReference : Text -> Except ReferenceFault Char
  | 'x' :: digits => unsignedIn 16 digits >>= characterOf
  | digits => unsignedIn 10 digits >>= characterOf

def namedReference? (name : Text) : Option Char :=
  if name = "lt" then some '<'
  else if name = "gt" then some '>'
  else if name = "amp" then some '&'
  else if name = "apos" then some '\''
  else if name = "quot" then some '"'
  else none

/-- The character that a reference stands for; `first` is the position of its
name. -/
def referenced (first : Nat) (name : Text) : Except Fault Char :=
  match name with
  | '#' :: number => (numericReference number).mapError .reference
  | _ =>
      match namedReference? name with
      | some c => .ok c
      | none => .error (.unrecognizedEntity first (first + Text.byteLength name) name)

/-- Reads pieces that each follow an ampersand, the first of which stands at
`position`. -/
def unescapePieces (past position : Nat) : List Text -> Except Fault Text
  | [] => .ok []
  | piece :: pieces =>
      match Text.splitAt? ';' piece with
      | none => .error (.unterminatedEntity position past)
      | some (name, plain) => do
          let c <- referenced (position + 1) name
          let rest <- unescapePieces past (position + 1 + Text.byteLength piece) pieces
          return c :: (plain ++ rest)

/-- Replaces every reference in a text by its character. -/
def unescape (text : Text) : Except Fault Text :=
  match Text.fields '&' text with
  | [] => .ok []
  | plain :: pieces =>
      (unescapePieces (Text.byteLength text) (Text.byteLength plain) pieces).map (plain ++ ·)

end Markup

end TabularModel
