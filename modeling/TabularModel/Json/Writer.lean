import TabularModel.Json.Basic

/-!
# Compact text of interchange values

No blanks are written. In a string only the quote, the backslash and the
characters below the space are escaped. What is no text is written as null.
-/

set_option autoImplicit false

namespace TabularModel

namespace Json

def hexDigit (n : Nat) : Char :=
  if n < 10 then Char.ofNat ('0'.toNat + n) else Char.ofNat ('a'.toNat + (n - 10))

def escaped (c : Char) : Text :=
  if c = '"' then "\\\""
  else if c = '\\' then "\\\\"
  else if c = '\n' then "\\n"
  else if c = '\r' then "\\r"
  else if c = '\t' then "\\t"
  else if c.toNat = 8 then "\\b"
  else if c.toNat = 12 then "\\f"
  else if c.toNat < 32 then "\\u00" ++ [hexDigit (c.toNat / 16), hexDigit (c.toNat % 16)]
  else [c]

def quoted (content : Text) : Text :=
  '"' :: (content.flatMap escaped ++ ['"'])

def numeralText (numeral : Decimal.Numeral) : Text :=
  (if numeral.negative then ['-'] else []) ++ numeral.whole ++
    (match numeral.fraction with
      | some digits => '.' :: digits
      | none => []) ++
    (match numeral.exponent with
      | some exponent => 'e' :: Decimal.integer exponent
      | none => [])

mutual

def render : Json -> Text
  | .null | .broken => "null"
  | .bool true => "true"
  | .bool false => "false"
  | .number numeral => numeralText numeral
  | .string content => quoted content
  | .array items => '[' :: (Text.joined "," (renderEach items) ++ [']'])
  | .object members => '{' :: (Text.joined "," (renderMembers members) ++ ['}'])

def renderEach : List Json -> List Text
  | [] => []
  | item :: items => render item :: renderEach items

def renderMembers : List (Text × Json) -> List Text
  | [] => []
  | (key, value) :: members => (quoted key ++ ':' :: render value) :: renderMembers members

end

end Json

end TabularModel
