import TabularModel.Text.Basic

/-!
# Names and strings in queries

A plain name is written bare and any other in brackets, with a closing bracket
inside it doubled. A string stands in single quotes, with a quote inside it
doubled. Names come from a catalog and may hold any character.
-/

set_option autoImplicit false

namespace TabularModel

namespace Sql

def bracketed (name : Text) : Text :=
  '[' :: (Text.doubling ']' name ++ [']'])

def identifier (name : Text) : Text :=
  if Text.isPlainName name then name else bracketed name

def stringLiteral (content : Text) : Text :=
  '\'' :: (Text.doubling '\'' content ++ ['\''])

def qualified (tableAlias column : Text) : Text :=
  identifier tableAlias ++ '.' :: identifier column

end Sql

end TabularModel
