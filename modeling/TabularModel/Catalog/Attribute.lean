import TabularModel.Text.Blank

/-!
# Attributes of catalog tables
-/

set_option autoImplicit false

namespace TabularModel

namespace Catalog

/-- The types a catalog declares. A type that makes no difference here is
`other`. -/
inductive AttributeType where
  | string
  | memo
  | integer
  | bigInt
  | decimal
  | double
  | money
  | boolean
  | dateTime
  | picklist
  | state
  | status
  | multiSelectPicklist
  | lookup
  | owner
  | customer
  | uniqueIdentifier
  | entityName
  | virtual
  | other
deriving DecidableEq, Repr

namespace AttributeType

def all : List AttributeType :=
  [.string, .memo, .integer, .bigInt, .decimal, .double, .money, .boolean, .dateTime, .picklist,
    .state, .status, .multiSelectPicklist, .lookup, .owner, .customer, .uniqueIdentifier,
    .entityName, .virtual, .other]

/-- The name of a type in the catalog. -/
def name : AttributeType -> Text
  | .string => "String"
  | .memo => "Memo"
  | .integer => "Integer"
  | .bigInt => "BigInt"
  | .decimal => "Decimal"
  | .double => "Double"
  | .money => "Money"
  | .boolean => "Boolean"
  | .dateTime => "DateTime"
  | .picklist => "Picklist"
  | .state => "State"
  | .status => "Status"
  | .multiSelectPicklist => "MultiSelectPicklist"
  | .lookup => "Lookup"
  | .owner => "Owner"
  | .customer => "Customer"
  | .uniqueIdentifier => "Uniqueidentifier"
  | .entityName => "EntityName"
  | .virtual => "Virtual"
  | .other => "Other"

def ofName (name : Text) : AttributeType :=
  (all.find? (·.name == name)).getD .other

/-- References to rows of other tables. -/
def isLookup : AttributeType -> Bool
  | .lookup | .owner | .customer => true
  | _ => false

/-- References whose target table differs from row to row. -/
def isPolymorphic : AttributeType -> Bool
  | .owner | .customer => true
  | _ => false

/-- Coded values, which are shown through their labels. -/
def isChoice : AttributeType -> Bool
  | .picklist | .state | .status | .boolean | .multiSelectPicklist => true
  | _ => false

end AttributeType

structure Attribute where
  logicalName : Text
  displayName : Option Text
  type : AttributeType
  targets : List Text
  schemaName : Option Text
deriving DecidableEq, Repr

namespace Attribute

/-- The display name, or the logical name where there is none. -/
def catalogName (attr : Attribute) : Text :=
  (attr.displayName.bind Text.unlessBlank).getD attr.logicalName

end Attribute

end Catalog

end TabularModel
