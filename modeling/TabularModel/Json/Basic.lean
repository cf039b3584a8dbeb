import TabularModel.Decimal.Numeral
import TabularModel.SortedMap

/-!
# Interchange values

Values of the text format in which catalog data arrives. Members of an object
keep their order, and a key may occur more than once. Numbers stay as they are
written, since some are integers and some become doubles.

A string whose escapes write half of a surrogate pair is no text. It may stand
where a value is passed over, but nothing can be taken from it.
-/

set_option autoImplicit false

namespace TabularModel

inductive Json where
  | null
  | bool (value : Bool)
  | number (numeral : Decimal.Numeral)
  | string (content : Text)
  /-- A string that is no text, or an object with such a key. -/
  | broken
  | array (items : List Json)
  | object (members : List (Text × Json))
deriving Repr, Inhabited

namespace Json

def ofInt (n : Int) : Json :=
  .number (.ofInt n)

def ofNat (n : Nat) : Json :=
  .number (.ofInt n)

def ofOption {α : Type} (encode : α -> Json) : Option α -> Json
  | none => .null
  | some value => encode value

/-- An object with the given members. -/
def ofFields (members : List (String × Json)) : Json :=
  .object (members.map fun (key, value) => (key.toList, value))

/-- An object with the entries of a map as members. -/
def ofMap {α : Type} (encode : α -> Json) (map : SortedMap α) : Json :=
  .object (map.entries.map fun (key, value) => (key, encode value))

def strings (texts : List Text) : Json :=
  .array (texts.map .string)

/-- The value of the last member with the given key. -/
def member? (json : Json) (key : Text) : Option Json :=
  match json with
  | .object members => (members.findRev? (·.1 == key)).map (·.2)
  | _ => none

def string? : Json -> Option Text
  | .string content => some content
  | _ => none

def bool? : Json -> Option Bool
  | .bool value => some value
  | _ => none

def int? : Json -> Option Int
  | .number numeral => numeral.integer?
  | _ => none

def double? : Json -> Option Float
  | .number numeral => numeral.scaled?
  | _ => none

def array? : Json -> Option (List Json)
  | .array items => some items
  | _ => none

def members? : Json -> Option (List (Text × Json))
  | .object members => some members
  | _ => none

end Json

end TabularModel
