import TabularModel.Sql.Identifier
import TabularModel.Text.Timestamp

/-!
# Literals of a query

A filter value becomes a literal of one of three forms. An integer of 64 bits
stands bare. The text of a globally unique identifier or of a timestamp stands
in quotes as it is, since it holds no quote. Any other text is a quoted string.
The first two forms drop the blanks around the value, the last keeps them.
-/

set_option autoImplicit false

namespace TabularModel

namespace Sql

def withoutBraces (text : Text) : Text :=
  match text with
  | '{' :: rest => if rest.getLast? = some '}' then rest.dropLast else text
  | _ => text

/-- Groups of 8, 4, 4, 4 and 12 hexadecimal digits joined by hyphens, with or
without braces around the whole. -/
def isUniqueIdentifier (text : Text) : Bool :=
  let groups := Text.fields '-' (withoutBraces text)
  groups.map List.length == [8, 4, 4, 4, 12] && groups.all (·.all Text.isHexDigit)

inductive Literal where
  | integer (numeral : Text)
  | verbatim (content : Text)
  | string (content : Text)
deriving DecidableEq, Repr

namespace Literal

def isInteger (text : Text) : Bool :=
  (Decimal.integer? text).any Decimal.fits64

def ofText (text : Text) : Literal :=
  let trimmed := Text.trim text
  if isInteger trimmed then .integer trimmed
  else if isUniqueIdentifier trimmed || isTimestamp trimmed then .verbatim trimmed
  else .string text

def render : Literal -> Text
  | .integer numeral => numeral
  | .verbatim content => '\'' :: (content ++ ['\''])
  | .string content => stringLiteral content

end Literal

end Sql

end TabularModel
