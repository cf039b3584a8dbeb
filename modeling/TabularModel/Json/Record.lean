import TabularModel.Json.Basic

/-!
# Records

A record is read from an object by the names of its fields, or from an array by
their order. Unknown members of an object are passed over, while a known one may
occur only once; an array may end early but not go on after the last field.
-/

set_option autoImplicit false

namespace TabularModel

namespace Json

/-- The values of the fields of a record, where they are given. -/
abbrev Fields := Text -> Option Json

def isRepeated (members : List (Text × Json)) (name : Text) : Bool :=
  1 < (members.filter (·.1 == name)).length

/-- The fields of a record with the given field names. -/
def fields? (names : List Text) : Json -> Option Fields
  | .object members =>
      if names.any (isRepeated members) then none
      else some fun name => (members.find? (·.1 == name)).map (·.2)
  | .array items =>
      if names.length < items.length then none
      else some fun name => ((names.zip items).find? (·.1 == name)).map (·.2)
  | _ => none

namespace Fields

variable {α : Type} (fields : Fields) (name : Text)

def required? (decode : Json -> Option α) : Option α :=
  (fields name).bind decode

/-- An absent field has a default. -/
def defaulted? (default : α) (decode : Json -> Option α) : Option α :=
  match fields name with
  | none => some default
  | some json => decode json

/-- A field that may be absent or null. -/
def optional? (decode : Json -> Option α) : Option (Option α) :=
  match fields name with
  | none | some .null => some none
  | some json => (decode json).map some

end Fields

/-- The items of an array. -/
def list? {α : Type} (decode : Json -> Option α) (json : Json) : Option (List α) :=
  json.array?.bind (·.mapM decode)

/-- The members of an object; of several with one key the last counts. -/
def map? {α : Type} (decode : Json -> Option α) (json : Json) : Option (List (Text × α)) :=
  json.members?.bind (·.mapM fun (key, value) => (decode value).map (key, ·))

/-- The name of a constructor without arguments, written as a string or as the
only key of an object, with null behind it. -/
def constructorName? : Json -> Option Text
  | .string name => some name
  | .object [(name, .null)] => some name
  | _ => none

end Json

end TabularModel
