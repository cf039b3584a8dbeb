import TabularModel.Sql.Token

/-!
# Reading tokens

A reader takes something from the start of the tokens and leaves fewer of them. A
tail is what may follow something and may also be absent. Both are put together
from smaller ones.
-/

set_option autoImplicit false

namespace TabularModel

namespace Sql

inductive Fault where
  | tooDeep
  | unreadable
  | expected (what : Text) (found : Option Token)
deriving DecidableEq, Repr

namespace Fault

def foundText : Option Token -> Text
  | none => "EOF"
  | some token =>
      token.symbol.render ++ " at Line: " ++ Decimal.natural token.position.line ++
        ", Column: " ++ Decimal.natural token.position.column

def message : Fault -> Text
  | .tooDeep => "sql parser error: recursion limit exceeded"
  | .unreadable => "sql parser error: unreadable token"
  | .expected what found =>
      "sql parser error: Expected: " ++ what ++ ", found: " ++ foundText found

end Fault

/-- The tokens that are left after something has been read. -/
abbrev Shorter (tokens : List Token) :=
  { rest : List Token // rest.length < tokens.length }

abbrev NotLonger (tokens : List Token) :=
  { rest : List Token // rest.length ≤ tokens.length }

/-- Reads something at the start of the tokens. -/
abbrev Reader := (tokens : List Token) -> Except Fault (Shorter tokens)

/-- Reads what is at the start of the tokens, if anything is. -/
abbrev Tail := (tokens : List Token) -> Except Fault (NotLonger tokens)

namespace Shorter

variable {tokens : List Token}

def weaken (rest : Shorter tokens) : NotLonger tokens :=
  ⟨rest.val, Nat.le_of_lt rest.property⟩

def continueWith (first : Shorter tokens) (reader : Reader) : Except Fault (Shorter tokens) :=
  (reader first.val).map fun rest => ⟨rest.val, Nat.lt_trans rest.property first.property⟩

def extend (first : Shorter tokens) (rest : NotLonger first.val) : Shorter tokens :=
  ⟨rest.val, Nat.lt_of_le_of_lt rest.property first.property⟩

end Shorter

namespace NotLonger

variable {tokens : List Token}

def same (tokens : List Token) : NotLonger tokens := ⟨tokens, Nat.le_refl _⟩

def extend (first : NotLonger tokens) (rest : NotLonger first.val) : NotLonger tokens :=
  ⟨rest.val, Nat.le_trans rest.property first.property⟩

end NotLonger

/-! ## Single tokens -/

/-- The upper-case form of a bare word. -/
def keyword? (token : Token) : Option Text :=
  match token.symbol with
  | .word value => some (value.map Char.toUpper)
  | _ => none

def isKeyword (keyword : Text) (token : Token) : Bool :=
  keyword? token == some keyword

def isOneOf (keywords : List Text) (token : Token) : Bool :=
  (keyword? token).any keywords.contains

def isWord (token : Token) : Bool :=
  token.symbol.isWord

def isString (token : Token) : Bool :=
  match token.symbol with
  | .string _ => true
  | _ => false

def isNumber (token : Token) : Bool :=
  match token.symbol with
  | .number _ => true
  | _ => false

/-- A name may also be written as a string. -/
def isName (token : Token) : Bool :=
  isWord token || isString token

def isMark (mark : Text) (token : Token) : Bool :=
  token.symbol == .mark mark

def startsWith (test : Token -> Bool) (tokens : List Token) : Bool :=
  tokens.head?.any test

/-- Whether the tokens begin with some keywords in their order. -/
def startsWithKeywords : List Text -> List Token -> Bool
  | [], _ => true
  | _ :: _, [] => false
  | keyword :: keywords, token :: tokens =>
      isKeyword keyword token && startsWithKeywords keywords tokens

def expectedAt {tokens : List Token} (what : Text) (rest : List Token) :
    Except Fault (Shorter tokens) :=
  .error (.expected what rest.head?)

/-- Reads one token that satisfies a test. -/
def one (what : Text) (test : Token -> Bool) : Reader
  | [] => .error (.expected what none)
  | token :: rest =>
      if test token then .ok ⟨rest, Nat.lt_succ_self _⟩ else .error (.expected what (some token))

def mark (characters : Text) : Reader :=
  one characters (isMark characters)

def keyword (name : Text) : Reader :=
  one name (isKeyword name)

def name : Reader :=
  one "identifier" isName

/-! ## Sequences -/

def both (first second : Reader) : Reader := fun tokens =>
  match first tokens with
  | .ok rest => rest.continueWith second
  | .error fault => .error fault

def followedBy (first : Reader) (second : Tail) : Reader := fun tokens =>
  match first tokens with
  | .error fault => .error fault
  | .ok rest => (second rest.val).map rest.extend

def precededBy (first : Tail) (second : Reader) : Reader := fun tokens =>
  match first tokens with
  | .error fault => .error fault
  | .ok rest =>
      (second rest.val).map fun left =>
        ⟨left.val, Nat.lt_of_lt_of_le left.property rest.property⟩

/-- The tails in their order. -/
def inTurn : List Tail -> Tail
  | [], tokens => .ok (.same tokens)
  | tail :: tails, tokens =>
      match tail tokens with
      | .error fault => .error fault
      | .ok rest => (inTurn tails rest.val).map rest.extend

def inParentheses (inner : Reader) : Reader :=
  both (mark "(") (both inner (mark ")"))

/-! ## Choices -/

/-- Reads something if the tokens start in the right way. -/
def whenStarting (test : List Token -> Bool) (reader : Reader) : Tail := fun tokens =>
  if test tokens then (reader tokens).map Shorter.weaken else .ok (.same tokens)

def optionalToken (test : Token -> Bool) : Tail :=
  whenStarting (startsWith test) (one "a token" test)

def optionalKeyword (name : Text) : Tail :=
  optionalToken (isKeyword name)

/-- What a keyword announces, if it stands at the start of the tokens. -/
def clause (name : Text) (reader : Reader) : Tail :=
  whenStarting (startsWith (isKeyword name)) (both (keyword name) reader)

def either (test : List Token -> Bool) (first second : Reader) : Reader := fun tokens =>
  if test tokens then first tokens else second tokens

/-- Reads something if it is there as a whole. Only what is too deep cannot be
passed over. -/
def attempt (reader : Reader) : Tail := fun tokens =>
  match reader tokens with
  | .ok rest => .ok rest.weaken
  | .error .tooDeep => .error .tooDeep
  | .error _ => .ok (.same tokens)

/-! ## Repetitions -/

/-- Reads as often as the tokens start in the right way. -/
def whileStarting (test : List Token -> Bool) (reader : Reader) (tokens : List Token) :
    Except Fault (NotLonger tokens) :=
  if test tokens then
    match reader tokens with
    | .error fault => .error fault
    | .ok ⟨rest, shorter⟩ =>
        (whileStarting test reader rest).map fun left =>
          ⟨left.val, Nat.le_trans left.property (Nat.le_of_lt shorter)⟩
  else .ok (.same tokens)
termination_by tokens.length

/-- The items of a list with commas between them. -/
def listOf (item : Reader) : Reader :=
  followedBy item (whileStarting (startsWith (isMark ",")) (both (mark ",") item))

end Sql

end TabularModel
