import TabularModel.Catalog.Table

/-!
# Attributes and the lookups they belong to

A catalog lists the name, kind and phonetic name of a lookup as attributes of
their own. Such an attribute belongs to the lookup whose name it continues, and
is shown through the lookup alone. All other attributes lead a group, in their
order.
-/

set_option autoImplicit false

namespace TabularModel

namespace Lookup

open Catalog (Attribute LookupColumn)

inductive Group where
  | standalone (attr : Attribute)
  | lookup (parent : Attribute) (virtualColumns : List (LookupColumn × Attribute))
deriving DecidableEq, Repr

def Group.leader : Group -> Attribute
  | .standalone attr => attr
  | .lookup parent _ => parent

/-- The suffixes in the order in which they are tried. The phonetic suffix ends
with the one of the name and so comes first. -/
def suffixOrder : List LookupColumn := [.phonetic, .name, .kind]

def mayHave (parent : Attribute) : LookupColumn -> Bool
  | .id => false
  | .name => parent.type.isLookup
  | .kind | .phonetic => parent.type.isPolymorphic

/-- The position of the last attribute with the given lower-case name. -/
def lastNamed? (attributes : List Attribute) (name : Text) : Option (Attribute × Nat) :=
  attributes.zipIdx.findRev? fun (attr, _) => Text.lower attr.logicalName == name

/-- The lookup that an attribute is a column of, by its position. -/
def parent? (attributes : List Attribute) (attr : Attribute) : Option (Nat × LookupColumn) :=
  if attr.type.isLookup then none
  else
    suffixOrder.findSome? fun column =>
      match Text.dropEnd? column.suffix (Text.lower attr.logicalName) with
      | none | some [] => none
      | some stem =>
          match lastNamed? attributes stem with
          | some (parent, position) =>
              if mayHave parent column then some (position, column) else none
          | none => none

/-- The attributes that are columns of the lookup at a position, by kind. -/
def virtualColumns (attributes : List Attribute) (position : Nat) :
    List (LookupColumn × Attribute) :=
  LookupColumn.all.flatMap fun column =>
    (attributes.filter fun attr => parent? attributes attr == some (position, column)).map
      fun attr => (column, attr)

def groups (attributes : List Attribute) : List Group :=
  attributes.zipIdx.filterMap fun (attr, position) =>
    if (parent? attributes attr).isSome then none
    else if attr.type.isLookup then some (.lookup attr (virtualColumns attributes position))
    else some (.standalone attr)

end Lookup

end TabularModel
