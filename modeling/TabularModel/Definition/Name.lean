import TabularModel.Text.Blank

/-!
# Names in definition files

A plain name is written bare and any other in single quotes, with a quote inside
it doubled. A bare name ends at a blank, an equals sign or a point, a quoted one
at its closing quote, so a written name can be told from what follows it.
-/

set_option autoImplicit false

namespace TabularModel

namespace Name

def quoted (name : Text) : Text :=
  '\'' :: (Text.doubling '\'' name ++ ['\''])

def written (name : Text) : Text :=
  if Text.isPlainName name then name else quoted name

/-- A column of a table, as the endpoints of a relationship give it. -/
def columnReference (table column : Text) : Text :=
  written table ++ '.' :: written column

/-- The name that a text is the written form of. Blanks around it are dropped,
and a text without quotes stands for itself. -/
def ofWritten (text : Text) : Text :=
  match Text.trim text with
  | '\'' :: rest =>
      if rest.getLast? = some '\'' then Text.halving '\'' rest.dropLast else '\'' :: rest
  | trimmed => trimmed

/-- The name up to its closing quote, and what follows that. Without a closing
quote everything belongs to the name. -/
def splitQuoted : Text -> Text × Text
  | [] => ([], [])
  | '\'' :: '\'' :: rest =>
      let (name, after) := splitQuoted rest
      ('\'' :: name, after)
  | '\'' :: rest => ([], rest)
  | c :: rest =>
      let (name, after) := splitQuoted rest
      (c :: name, after)

def endsBareName (c : Char) : Bool :=
  isBlank c || c == '=' || c == '.'

/-- The written name at the start of a text, and what follows it. -/
def split (text : Text) : Text × Text :=
  match Text.trimLeft text with
  | '\'' :: rest => splitQuoted rest
  | trimmed => (trimmed.takeWhile (!endsBareName ·), trimmed.dropWhile (!endsBareName ·))

def splitColumnReference? (reference : Text) : Option (Text × Text) :=
  let (table, rest) := split reference
  match Text.trimLeft rest with
  | '.' :: rest => some (table, (split rest).1)
  | _ => none

end Name

end TabularModel
