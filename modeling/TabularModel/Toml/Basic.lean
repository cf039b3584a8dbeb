import TabularModel.Toml.Moment

/-!
# Settings documents

The values of a settings document. A table remembers how it was opened, since
that decides in which ways it may still be extended.
-/

set_option autoImplicit false

namespace TabularModel

namespace Toml

/-- How a table came about: by a header of its own, by the header of a table
inside it, by a dotted key, or written in line. -/
inductive Origin where
  | header
  | implied
  | dotted
  | inLine
deriving DecidableEq, Repr

end Toml

/-- An array is extensible if it was begun by a header in double brackets. -/
inductive Toml where
  | string (content : Text)
  | integer (n : Int)
  | float (x : Float)
  | boolean (value : Bool)
  | moment (written : Toml.Moment)
  | array (extensible : Bool) (items : List Toml)
  | table (origin : Toml.Origin) (members : List (Text × Toml))
deriving Repr, Inhabited

namespace Toml

abbrev Members := List (Text × Toml)

def member? (members : Members) (key : Text) : Option Toml :=
  (members.find? (·.1 == key)).map (·.2)

/-- Puts a value in the place of the one with the same key, or at the end. -/
def setMember (members : Members) (key : Text) (value : Toml) : Members :=
  match members with
  | [] => [(key, value)]
  | (other, kept) :: rest =>
      if other = key then (key, value) :: rest else (other, kept) :: setMember rest key value

/-- The change of a table of a given origin, if it is allowed. -/
abbrev TableChange := Origin -> Members -> Option Members

/-- Changes the table at a path, where tables that are absent begin with the
given origin. In an extensible array the path leads to the last table. By dotted
keys a table with a header of its own cannot be reached. -/
def descend (opened : Origin) (change : TableChange) :
    (path : List Text) -> (origin : Origin) -> Members -> Option Members
  | [], origin, members => change origin members
  | key :: path, _, members =>
      match member? members key with
      | none =>
          (descend opened change path opened []).map fun inner =>
            setMember members key (.table opened inner)
      | some (.table .inLine _) => none
      | some (.table origin inner) =>
          if opened = .dotted ∧ origin = .header then none
          else
            (descend opened change path origin inner).map fun changed =>
              setMember members key (.table origin changed)
      | some (.array true items) =>
          match items.getLast? with
          | some (.table origin inner) =>
              (descend opened change path origin inner).map fun changed =>
                setMember members key (.array true (items.dropLast ++ [.table origin changed]))
          | _ => none
      | some _ => none

/-- Adds a value. Behind a dotted key only tables that dotted keys have opened
may be extended. -/
def addValue (isDotted : Bool) (key : Text) (value : Toml) : TableChange := fun origin members =>
  if (origin == .dotted) != isDotted || (member? members key).isSome then none
  else some (setMember members key value)

/-- Opens a table by its header, which may be done once. -/
def openTable (key : Text) : TableChange := fun _ members =>
  match member? members key with
  | none => some (setMember members key (.table .header []))
  | some (.table .implied inner) => some (setMember members key (.table .header inner))
  | some _ => none

/-- Adds a table to an array of tables. -/
def openItem (key : Text) : TableChange := fun _ members =>
  match member? members key with
  | none => some (setMember members key (.array true [.table .header []]))
  | some (.array true items) =>
      some (setMember members key (.array true (items ++ [.table .header []])))
  | some _ => none

/-- Splits a path into the keys before the last one, and that. -/
def splitPath? (path : List Text) : Option (List Text × Text) :=
  path.getLast?.map fun last => (path.dropLast, last)

/-- Adds the value of a key, which may be dotted. -/
def assign (path : List Text) (value : Toml) : TableChange := fun origin members =>
  match splitPath? path with
  | none => none
  | some (outer, key) => descend .dotted (addValue (!outer.isEmpty) key value) outer origin members

/-- A document while it is read: its members, and the path of the table to which
keys are added. -/
structure Document where
  members : Members
  current : List Text
deriving Repr

namespace Document

def empty : Document := ⟨[], []⟩

def change? (document : Document) (path : List Text) (change : TableChange) : Option Members :=
  descend .implied change path .header document.members

def assign? (document : Document) (path : List Text) (value : Toml) : Option Document :=
  (document.change? document.current (assign path value)).map fun members =>
    { document with members := members }

def open? (document : Document) (path : List Text) (opening : Text -> TableChange) :
    Option Document :=
  match splitPath? path with
  | none => none
  | some (outer, key) => (document.change? outer (opening key)).map fun members => ⟨members, path⟩

end Document

/-- The value of a whole document. -/
def Document.root (document : Document) : Toml :=
  .table .header document.members

end Toml

end TabularModel
