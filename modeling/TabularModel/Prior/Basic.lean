import TabularModel.SortedMap
import TabularModel.Definition.Block
import TabularModel.Definition.Convention

/-!
# What is known from earlier definitions

The identity and the contents of tables and relationships as an earlier
definition set gives them. Tables are known by a key, columns by the column of
the row source they come from, relationships by their two endpoints. User
content is kept as whole blocks.
-/

set_option autoImplicit false

namespace TabularModel

/-- The endpoints of a relationship, as column references. -/
structure RelationshipKey where
  source : Text
  target : Text
deriving DecidableEq, Repr

namespace RelationshipKey

def sourceTable? (key : RelationshipKey) : Option Text :=
  (Name.splitColumnReference? key.source).map (·.1)

def targetTable? (key : RelationshipKey) : Option Text :=
  (Name.splitColumnReference? key.target).map (·.1)

/-- Relationships to the calendar come and go with its configuration. -/
def isCalendar (key : RelationshipKey) : Bool :=
  key.targetTable? == some Convention.calendarTable

def render (key : RelationshipKey) : Text :=
  key.source ++ " -> " ++ key.target

/-- Keys are listed by their source and then by their target. -/
def before (left right : RelationshipKey) : Bool :=
  Text.before left.source right.source ||
    (left.source == right.source && Text.before left.target right.target)

end RelationshipKey

namespace Prior

/-- An annotation with the block that holds it. -/
structure Annotation where
  name : Text
  value : Text
  block : Block
deriving Repr

structure Column where
  name : Text
  source : Text
  dataType : Option Text
  formatString : Option Text
  summarizeBy : Option Text
  isHidden : Bool
  isKey : Bool
  annotations : List Annotation
deriving Repr

/-- A measure; a generated one bears the name of the row count. -/
structure Measure where
  name : Text
  expression : Text
  isGenerated : Bool
  block : Block
deriving Repr

structure Partition where
  name : Text
  kind : Text
  mode : Option Text
  source : Text
deriving Repr

/-- A table with its lineage tags. A generated table carries the logical-name
annotation. -/
structure Table where
  key : Text
  name : Text
  isGenerated : Bool
  tag : Option Text
  columnTags : SortedMap Text
  measureTags : SortedMap Text
  columns : SortedMap Column
  measures : List Measure
  partition : Option Partition
deriving Repr

namespace Table

def userMeasures (table : Table) : List Measure :=
  table.measures.filter (!·.isGenerated)

def keyColumnCount (table : Table) : Nat :=
  (table.columns.values.filter (·.isKey)).length

end Table

/-- A relationship; `position` counts the relationship blocks of its file. -/
structure Relationship where
  name : Text
  key : RelationshipKey
  isActive : Bool
  isGenerated : Bool
  position : Nat
  block : Block
deriving Repr

/-- What could not be recovered. -/
inductive Problem where
  | repeatedTable (key : Text)
  | noTable
  | relationshipWithoutEnds (name : Text)
  | repeatedRelationship (key : RelationshipKey)
deriving DecidableEq, Repr

def Problem.message : Problem -> Text
  | .repeatedTable key => "table key '" ++ key ++ "' appears more than once"
  | .noTable => "no table block found"
  | .relationshipWithoutEnds name =>
      "relationship '" ++ name ++ "' has no fromColumn/toColumn"
  | .repeatedRelationship key => "relationship " ++ key.render ++ " appears more than once"

structure Warning where
  path : Text
  problem : Problem
deriving DecidableEq, Repr

def Warning.message (warning : Warning) : Text :=
  warning.path ++ ": " ++ warning.problem.message

/-- An earlier model. Relationships have distinct keys and stand in the order of
their file. -/
structure Model where
  tables : SortedMap Table
  expressionTags : SortedMap Text
  relationships : List Relationship
  warnings : List Warning
deriving Repr

namespace Model

def empty : Model := ⟨.empty, .empty, [], []⟩

def isEmpty (model : Model) : Bool :=
  model.tables.isEmpty && model.expressionTags.isEmpty && model.relationships.isEmpty

/-- The first table in key order with the given name. -/
def tableNamed? (model : Model) (name : Text) : Option Table :=
  model.tables.values.find? (·.name == name)

def relationship? (model : Model) (key : RelationshipKey) : Option Relationship :=
  model.relationships.find? (·.key == key)

def relationshipsByKey (model : Model) : List Relationship :=
  model.relationships.mergeSort fun left right => !right.key.before left.key

/-- Relationships that a person added: not among the fresh ones, not to the
calendar and not marked as generated. -/
def userRelationships (model : Model) (fresh : List RelationshipKey) : List Relationship :=
  model.relationships.filter fun relationship =>
    !fresh.contains relationship.key && !relationship.key.isCalendar && !relationship.isGenerated

end Model

end Prior

end TabularModel
