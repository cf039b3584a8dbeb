import TabularModel.Catalog.Table

/-!
# Which columns of a lookup are shown

Stored settings decide for each flag; what is not set depends on whether a
relationship starts at the lookup and on whether it is one of the owning
lookups, which have no columns besides their key. Only polymorphic lookups have
a kind and a phonetic name.
-/

set_option autoImplicit false

namespace TabularModel

namespace Lookup

open Catalog (Attribute Edge LookupColumn LookupSettings)

structure Visibility where
  included : Bool
  hidden : Bool
deriving DecidableEq, Repr

/-- What is not included is not hidden either. -/
def Visibility.of (included hidden : Bool) : Visibility :=
  ⟨included, included && hidden⟩

def Visibility.absent : Visibility := ⟨false, false⟩

/-- Whether an edge, active or not, starts at the attribute. -/
def isJoined (table logicalName : Text) (edges : List Edge) : Bool :=
  edges.any (·.startsAt table logicalName)

def owningNames : List Text :=
  ["owninguser", "owningteam", "owningbusinessunit"]

def isOwning (logicalName : Text) : Bool :=
  owningNames.any (Text.sameIgnoringCase · logicalName)

/-- A joined lookup shows its hidden key, an owning one its key, any other its
name. -/
def defaultVisibility (joined owning : Bool) (column : LookupColumn) : Visibility :=
  if joined then .of (column == .id) true
  else if owning then .of (column == .id) false
  else .of (column == .name) false

/-- Whether the row source has such a column for the lookup. -/
def hasColumn (attr : Attribute) (column : LookupColumn) : Bool :=
  match column with
  | .id => true
  | .name => !isOwning attr.logicalName
  | .kind | .phonetic => attr.type.isPolymorphic && !isOwning attr.logicalName

/-- The visibility of each column of a lookup of `table`. -/
def resolve (table : Text) (attr : Attribute) (stored : Option LookupSettings)
    (edges : List Edge) (column : LookupColumn) : Visibility :=
  let joined := isJoined table attr.logicalName edges
  let default := defaultVisibility joined (isOwning attr.logicalName) column
  let setting := (stored.getD .unset).get column
  if hasColumn attr column then
    .of (setting.included.getD default.included) (setting.hidden.getD default.hidden)
  else .absent

/-- The columns that are shown, in the order in which they are written. -/
def shown (visibility : LookupColumn -> Visibility) : List LookupColumn :=
  LookupColumn.all.filter fun column => (visibility column).included

end Lookup

end TabularModel
