import TabularModel.SortedMap
import TabularModel.Catalog.Attribute
import TabularModel.Catalog.Lookup

/-!
# Tables and edges chosen for a model
-/

set_option autoImplicit false

namespace TabularModel

namespace Catalog

inductive Role where
  | fact
  | dimension
deriving DecidableEq, Repr

/-- A chosen table with its chosen attributes and the filter of its view.
Settings of lookups and overriding names stand under logical names. -/
structure Table where
  logicalName : Text
  displayName : Option Text
  primaryKey : Text
  primaryName : Option Text
  role : Role
  attributes : List Attribute
  filter : Option Text
  lookups : SortedMap LookupSettings
  overrides : SortedMap Text
deriving DecidableEq, Repr

namespace Table

/-- A table of which nothing but the name and the key is given. -/
def plain (logicalName primaryKey : Text) : Table :=
  { logicalName := logicalName
    displayName := none
    primaryKey := primaryKey
    primaryName := none
    role := .dimension
    attributes := []
    filter := none
    lookups := .empty
    overrides := .empty }

/-- The name of the table in the model. -/
def modelName (table : Table) : Text :=
  (table.displayName.bind Text.unlessBlank).getD table.logicalName

def isFact (table : Table) : Bool :=
  table.role == .fact

def attribute? (table : Table) (logicalName : Text) : Option Attribute :=
  table.attributes.find? fun found => Text.sameIgnoringCase found.logicalName logicalName

/-- The name of an attribute in the model: the overriding name, else the name in
the catalog. -/
def nameOf (table : Table) (attr : Attribute) : Text :=
  ((table.overrides.get? attr.logicalName).bind Text.unlessBlank).getD attr.catalogName

/-- The text of the view's filter, unless it is blank. -/
def filterText? (table : Table) : Option Text :=
  table.filter.bind Text.unlessBlank

end Table

/-- A reference from an attribute of one table to the key of another. -/
structure Edge where
  sourceTable : Text
  sourceAttribute : Text
  targetTable : Text
  isActive : Bool
  isSnowflake : Bool
  assumesIntegrity : Bool
deriving DecidableEq, Repr

namespace Edge

def plain (sourceTable sourceAttribute targetTable : Text) : Edge :=
  ⟨sourceTable, sourceAttribute, targetTable, true, false, false⟩

def startsAt (edge : Edge) (table sourceAttribute : Text) : Bool :=
  Text.sameIgnoringCase edge.sourceTable table &&
    Text.sameIgnoringCase edge.sourceAttribute sourceAttribute

end Edge

end Catalog

end TabularModel
