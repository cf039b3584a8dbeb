import TabularModel.SortedMap
import TabularModel.Toml.Basic

/-!
# Records in a settings document

A record is read from a table by the names of its fields, or from an array by
their order. What is not known is passed over.
-/

set_option autoImplicit false

namespace TabularModel

namespace Toml

/-- The values of the fields of a record, where they are given. -/
abbrev Fields := Text -> Option Toml

/-- The name of the only field of a moment, which is its written form. -/
def momentField : Text := "$__toml_private_datetime"

/-- The fields of a record with the given field names. A moment is a record with a
field of its own. -/
def fields? (names : List Text) : Toml -> Option Fields
  | .table _ members => some fun name => member? members name
  | .array _ items => some fun name => member? (names.zip items) name
  | .moment written => some fun name => member? [(momentField, .string written.render)] name
  | _ => none

namespace Fields

variable {α : Type} (fields : Fields) (name : Text)

def required? (decode : Toml -> Option α) : Option α :=
  (fields name).bind decode

/-- An absent field has a default. -/
def defaulted? (default : α) (decode : Toml -> Option α) : Option α :=
  match fields name with
  | none => some default
  | some value => decode value

def optional? (decode : Toml -> Option α) : Option (Option α) :=
  match fields name with
  | none => some none
  | some value => (decode value).map some

end Fields

def text? : Toml -> Option Text
  | .string content => some content
  | _ => none

def bool? : Toml -> Option Bool
  | .boolean value => some value
  | _ => none

/-- An integer of 32 bits. -/
def int32? : Toml -> Option Int
  | .integer n => if Decimal.fits32 n then some n else none
  | _ => none

/-- The integers of 64 bits, with or without a sign. -/
def fitsDouble (n : Int) : Bool :=
  -9223372036854775808 ≤ n && n ≤ 18446744073709551615

/-- A float, or an integer in its place. -/
def double? : Toml -> Option Float
  | .float x => some x
  | .integer n => if fitsDouble n then some (Float.ofInt n) else none
  | _ => none

def isEmptyContainer : Toml -> Bool
  | .array _ items => items.isEmpty
  | .table _ members => members.isEmpty
  | _ => false

/-- The name of a constructor without arguments, written as a string or as the
only key of a table, with an empty container behind it. -/
def constructorName? : Toml -> Option Text
  | .string name => some name
  | .table _ [(name, value)] => if value.isEmptyContainer then some name else none
  | _ => none

def texts? : Toml -> Option (SortedMap Text)
  | .table _ members =>
      (members.mapM fun (member : Text × Toml) =>
        (text? member.2).map fun content => (member.1, content)).map SortedMap.ofList
  | .moment written => some (.ofList [(momentField, written.render)])
  | _ => none

end Toml

end TabularModel
