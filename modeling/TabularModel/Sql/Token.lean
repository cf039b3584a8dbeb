import TabularModel.Decimal.Integer
import TabularModel.Text.Alphanumeric
import TabularModel.Text.Blank

/-!
# Tokens of a query

A query is cut into words, numbers, strings and marks, each with the line and
column at which it begins. A word in brackets or double quotes is never a
keyword. Blanks and comments separate tokens. A character that begins nothing
else is a mark of its own, which no query has a place for.
-/

set_option autoImplicit false

namespace TabularModel

namespace Sql

/-- A constant is any value that is neither a plain number nor a plain string. -/
inductive Symbol where
  | word (value : Text)
  | quotedWord (opening closing : Char) (value : Text)
  | number (written : Text)
  | string (content : Text)
  | constant (written : Text)
  | mark (characters : Text)
deriving DecidableEq, Repr

def Symbol.render : Symbol -> Text
  | .word value => value
  | .quotedWord opening closing value => opening :: (value ++ [closing])
  | .number written => written
  | .string content => '\'' :: (content ++ ['\''])
  | .constant written => written
  | .mark characters => characters

def Symbol.isWord : Symbol -> Bool
  | .word _ | .quotedWord _ _ _ => true
  | _ => false

structure Position where
  line : Nat
  column : Nat
deriving DecidableEq, Repr

namespace Position

def start : Position := ⟨1, 1⟩

def after (position : Position) (c : Char) : Position :=
  if c = '\n' then ⟨position.line + 1, 1⟩ else ⟨position.line, position.column + 1⟩

def afterText (position : Position) (text : Text) : Position :=
  text.foldl after position

end Position

structure Token where
  symbol : Symbol
  position : Position
deriving DecidableEq, Repr

/-! ## Blanks -/

/-- What follows the end of a comment, which holds comments itself to the given
depth. -/
def afterComment? : (depth : Nat) -> Text -> Option Text
  | 0, rest => some rest
  | depth + 1, '*' :: '/' :: rest => afterComment? depth rest
  | depth + 1, '/' :: '*' :: rest => afterComment? (depth + 2) rest
  | depth + 1, _ :: rest => afterComment? (depth + 1) rest
  | _ + 1, [] => none

/-- What follows the first blank or comment of a text, if it begins with one. A
comment begins with two hyphens and runs to the end of its line, or begins with a
slash and an asterisk and runs to the counterpart of those. -/
def afterBlank? : Text -> Option Text
  | '-' :: '-' :: comment => some (comment.dropWhile (· != '\n'))
  | '/' :: '*' :: comment => afterComment? 1 comment
  | c :: rest => if isBlank c then some rest else none
  | [] => none

/-- What follows the blanks and comments at the start of a text. -/
def afterBlanks (text : Text) : Text :=
  match afterBlank? text with
  | none => text
  | some rest => if rest.length < text.length then afterBlanks rest else text
termination_by text.length

/-! ## Words -/

def startsWord (c : Char) : Bool :=
  Text.isLetter c || isAlphabetic c

def continuesWord (c : Char) : Bool :=
  startsWord c || Decimal.isDigit c || c == '#' || c == '@' || c == '$'

/-- A word that begins with the given characters. -/
def wordFrom (first rest : Text) : Symbol × Text :=
  (.word (first ++ rest.takeWhile continuesWord), rest.dropWhile continuesWord)

/-- What begins with a hash or an at sign: a word with any character behind the
sign, unless there is none or one of those that belong to marks. -/
def signed (sign : Char) (marks : List Text) (text : Text) : Symbol × Text :=
  match marks.find? fun mark => mark.isPrefixOf text with
  | some mark => (.mark (sign :: mark), text.drop mark.length)
  | none =>
      match text with
      | ' ' :: _ | [] => (.mark [sign], text)
      | c :: rest => wordFrom [sign, c] rest

def hashed (text : Text) : Symbol × Text :=
  signed '#' [['-'], ['>', '>'], ['>']] text

def atSigned (text : Text) : Symbol × Text :=
  match text with
  | ['@'] => (.mark ['@', '@'], [])
  | '@' :: ' ' :: rest => (.mark ['@', '@'], ' ' :: rest)
  | '@' :: c :: rest => wordFrom ['@', '@', c] rest
  | _ => signed '@' [['>'], ['?']] text

/-! ## Strings -/

/-- The content up to a closing character that is not doubled, and the rest. -/
def delimited? (closing : Char) : Text -> Option (Text × Text)
  | [] => none
  | [c] => if c = closing then some ([], []) else none
  | c :: next :: rest =>
      if c = closing then
        if next = closing then
          (delimited? closing rest).map fun (content, after) => (closing :: content, after)
        else some ([], next :: rest)
      else (delimited? closing (next :: rest)).map fun (content, after) => (c :: content, after)

/-- What follows the closing quote of a string in which a backslash takes the
meaning from the next character. -/
def afterEscaped? : Text -> Option Text
  | [] => none
  | '\'' :: '\'' :: rest => afterEscaped? rest
  | '\'' :: rest => some rest
  | '\\' :: _ :: rest => afterEscaped? rest
  | _ :: rest => afterEscaped? rest

/-- What follows the first occurrence of a text. -/
def afterFirst? (part : Text) : Text -> Option Text
  | [] => if part.isEmpty then some [] else none
  | c :: rest =>
      match Text.dropStart? part (c :: rest) with
      | some after => some after
      | none => afterFirst? part rest

/-- What a dollar sign begins: a placeholder with a name, or a string between two
copies of the name in dollar signs. -/
def dollar? (text : Text) : Option Text :=
  let isTag := fun c => isAlphanumeric c || c == '_'
  match text.dropWhile isTag with
  | '$' :: content => afterFirst? ('$' :: text.takeWhile isTag ++ ['$']) content
  | rest => some rest

/-! ## Numbers -/

/-- What follows the exponent of a number, or the whole text if it has none. -/
def afterExponent (text : Text) : Text :=
  match text with
  | [] => []
  | mark :: rest =>
      let unsigned :=
        if rest.head?.any fun c => c == '+' || c == '-' then rest.tail else rest
      if (mark == 'e' || mark == 'E') && unsigned.head?.any Decimal.isDigit then
        unsigned.dropWhile Decimal.isDigit
      else text

/-- The part of a text in front of what follows it. -/
def upTo (after text : Text) : Text :=
  text.take (text.length - after.length)

/-- A number at the start of a text that begins with a digit or a point. It may
have a fraction and an exponent, and a capital L behind them. A point without
digits is a mark. -/
def number (text : Text) : Symbol × Text :=
  let decimals :=
    match text.dropWhile Decimal.isDigit with
    | '.' :: rest => rest.dropWhile Decimal.isDigit
    | rest => rest
  match text with
  | '0' :: 'x' :: digits =>
      let after := digits.dropWhile Text.isHexDigit
      (.constant (upTo after text), after)
  | _ =>
      if upTo decimals text = "." then (.mark ['.'], decimals)
      else
        match afterExponent decimals with
        | 'L' :: after => (.number (upTo after text), after)
        | after => (.number (upTo after text), after)

/-! ## Cutting -/

/-- The marks of several characters, the longer ones before their beginnings. -/
def longMarks : List Text :=
  ["!~~*", "<=>", "->>", "||/", "~~*", "!~~", "!~*", "<=", "<>", "<<", "<@", ">=", ">>", "::",
    ":=", "->", "||", "|/", "&&", "^@", "~*", "~~", "!=", "!!", "!~", "=>", "=="].map
    String.toList

/-- The mark at the start of a text. -/
def markAt (first : Char) (rest : Text) : Symbol × Text :=
  match longMarks.find? fun mark => mark.isPrefixOf (first :: rest) with
  | some mark => (.mark mark, (first :: rest).drop mark.length)
  | none => (.mark [first], rest)

/-- A point in front of an underscore joins two names, and belongs to no number. -/
def pointed? (previous : Option Symbol) (text : Text) : Option (Symbol × Text) :=
  match text with
  | '.' :: '_' :: rest =>
      if previous.any Symbol.isWord then some (.mark ['.'], '_' :: rest) else none
  | _ => some (number text)

/-- What begins with a quote or another opening character. -/
def quoted? (opening : Char) (rest : Text) : Option (Symbol × Text) :=
  if opening = '\'' then
    (delimited? '\'' rest).map fun (content, after) => (.string content, after)
  else
    let closing := if opening = '[' then ']' else opening
    (delimited? closing rest).map fun (value, after) => (.quotedWord opening closing value, after)

/-- The first symbol of a text that does not begin with a blank, where the
previous symbol stands directly in front of it. -/
def symbol? (previous : Option Symbol) (text : Text) : Option (Symbol × Text) :=
  match text with
  | [] => none
  | first :: rest =>
      let constant := fun (after : Text) => (Symbol.constant (upTo after text), after)
      if ['N', 'n', 'X', 'x'].contains first ∧ rest.head? = some '\'' then
        (afterEscaped? rest.tail).map constant
      else if ['\'', '"', '['].contains first then quoted? first rest
      else if first = '/' ∧ rest.head? = some '*' then none
      else if first = '.' ∨ Decimal.isDigit first then pointed? previous text
      else if first = '#' then some (hashed rest)
      else if first = '@' then some (atSigned rest)
      else if first = '$' then (dollar? rest).map constant
      else if first = '?' then some (constant (rest.dropWhile isNumeric))
      else if startsWord first then some (wordFrom [first] rest)
      else some (markAt first rest)

/-- The tokens of a text, unless a string or a comment in it has no end. -/
def tokensFrom? (position : Position) (previous : Option Symbol) (text : Text) :
    Option (List Token) :=
  let body := afterBlanks text
  let start := position.afterText (upTo body text)
  match symbol? (if body.length = text.length then previous else none) body with
  | none => if body.isEmpty then some [] else none
  | some (symbol, rest) =>
      if rest.length < text.length then
        (tokensFrom? (start.afterText (upTo rest body)) (some symbol) rest).map
          (⟨symbol, start⟩ :: ·)
      else none
termination_by text.length

def tokens? (text : Text) : Option (List Token) :=
  tokensFrom? .start none text

end Sql

end TabularModel
