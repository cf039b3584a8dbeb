import TabularModel.Generation.Basic
import TabularModel.Prior.Basic

/-!
# Changes of a model

What a new version of a model changes, entry by entry. Every change has a kind,
an impact and a description, which follow from what happened. An impact is
destructive if something that is there would be lost.
-/

set_option autoImplicit false

namespace TabularModel

open Catalog (StorageMode)

inductive ColumnChange where
  | sourceChanged (earlier fresh : Text)
  | typeChanged (earlier fresh : Option Text)
  | renamed (earlier : Text)
  | unchanged
  | added (source : Text)
  | removed (source : Text)
deriving DecidableEq, Repr

inductive MeasureChange where
  | generatedAdded
  | generatedRemoved
  | userKept
  | userLost
deriving DecidableEq, Repr

inductive RelationshipChange where
  | activated
  | deactivated
  | unchanged
  | calendarReplaced
  | userKept
  | moved (earlierTarget : Text)
  | removed
  | added
deriving DecidableEq, Repr

/-- Tables, columns and measures are given by their names in the model. -/
inductive Change where
  | tableAdded (table : Text)
  | tableRemoved (table : Text)
  | keyCount (table : Text) (count : Nat)
  | modeChanged (table earlier : Text) (fresh : StorageMode)
  | unreachable (table fact : Text)
  | column (table name : Text) (change : ColumnChange)
  | measure (table name : Text) (change : MeasureChange)
  | queryChanged (table : Text)
  | relationship (key : RelationshipKey) (change : RelationshipChange)
  | finding (table : Text) (finding : Generation.Finding)
deriving Repr

namespace Change

inductive Subject where
  | table
  | column
  | relationship
  | measure
  | query
deriving DecidableEq, Repr

def Subject.name : Subject -> Text
  | .table => "Table"
  | .column => "Column"
  | .relationship => "Relationship"
  | .measure => "Measure"
  | .query => "Query"

inductive Kind where
  | new
  | update
  | preserve
  | warning
  | error
  | info
deriving DecidableEq, Repr

def Kind.name : Kind -> Text
  | .new => "New"
  | .update => "Update"
  | .preserve => "Preserve"
  | .warning => "Warning"
  | .error => "Error"
  | .info => "Info"

inductive Impact where
  | safe
  | additive
  | moderate
  | destructive
deriving DecidableEq, Repr

def Impact.name : Impact -> Text
  | .safe => "Safe"
  | .additive => "Additive"
  | .moderate => "Moderate"
  | .destructive => "Destructive"

def subject : Change -> Subject
  | .tableAdded _ | .tableRemoved _ | .keyCount _ _ | .modeChanged _ _ _ | .unreachable _ _ =>
      .table
  | .column _ _ _ => .column
  | .measure _ _ _ => .measure
  | .queryChanged _ | .finding _ _ => .query
  | .relationship _ _ => .relationship

def objectName : Change -> Text
  | .tableAdded table | .tableRemoved table | .keyCount table _ | .modeChanged table _ _
  | .unreachable table _ | .queryChanged table | .finding table _ => table
  | .column table name _ | .measure table name _ => table ++ '.' :: name
  | .relationship key _ => key.render

/-- What a change of a kind can do to the model in use. -/
abbrev Weight := Kind × Impact

def columnWeight : ColumnChange -> Weight
  | .sourceChanged _ _ | .typeChanged _ _ => (.update, .moderate)
  | .renamed _ | .unchanged => (.preserve, .safe)
  | .added _ => (.new, .additive)
  | .removed _ => (.warning, .destructive)

def measureWeight : MeasureChange -> Weight
  | .generatedAdded => (.new, .additive)
  | .generatedRemoved | .userLost => (.warning, .destructive)
  | .userKept => (.preserve, .safe)

def relationshipWeight : RelationshipChange -> Weight
  | .activated | .deactivated | .moved _ => (.update, .moderate)
  | .unchanged | .userKept => (.preserve, .safe)
  | .calendarReplaced => (.info, .safe)
  | .removed => (.warning, .destructive)
  | .added => (.new, .additive)

def weight : Change -> Weight
  | .tableAdded _ => (.new, .additive)
  | .tableRemoved _ => (.warning, .destructive)
  | .keyCount _ _ => (.error, .moderate)
  | .modeChanged _ _ _ => (.info, .safe)
  | .unreachable _ _ | .finding _ _ => (.warning, .safe)
  | .column _ _ change => columnWeight change
  | .measure _ _ change => measureWeight change
  | .queryChanged _ => (.update, .moderate)
  | .relationship _ change => relationshipWeight change

def kind (change : Change) : Kind := change.weight.1

def impact (change : Change) : Impact := change.weight.2

def typeName (dataType : Option Text) : Text :=
  dataType.getD "unset"

def columnDescription (name : Text) : ColumnChange -> Text
  | .sourceChanged earlier fresh =>
      "source column changed from '" ++ earlier ++ "' to '" ++ fresh ++ "'"
  | .typeChanged earlier fresh =>
      "data type changed from " ++ typeName earlier ++ " to " ++ typeName fresh
  | .renamed earlier => "renamed from '" ++ earlier ++ "'; identity kept"
  | .unchanged => "unchanged"
  | .added source => "column added (source '" ++ source ++ "')"
  | .removed source => "column '" ++ name ++ "' removed (source '" ++ source ++ "')"

def measureDescription : MeasureChange -> Text
  | .generatedAdded => "generated measure added"
  | .generatedRemoved => "generated measure removed"
  | .userKept => "user measure kept"
  | .userLost => "user measure is lost with its table"

def relationshipDescription : RelationshipChange -> Text
  | .activated => "relationship activated"
  | .deactivated => "relationship deactivated"
  | .unchanged => "unchanged"
  | .calendarReplaced => "calendar relationship replaced"
  | .userKept => "user relationship kept"
  | .moved earlierTarget => "endpoint changed from " ++ earlierTarget
  | .removed => "relationship removed"
  | .added => "relationship added"

def description : Change -> Text
  | .tableAdded _ => "table added"
  | .tableRemoved _ => "table removed"
  | .keyCount _ count =>
      "table has " ++ Decimal.natural count ++ " key columns; exactly one is required"
  | .modeChanged _ earlier fresh =>
      "storage mode changes from " ++ earlier ++ " to " ++ fresh.name
  | .unreachable _ fact => "no relationship path from fact table '" ++ fact ++ "'"
  | .column _ name change => columnDescription name change
  | .measure _ _ change => measureDescription change
  | .queryChanged _ => "row-source query changed"
  | .relationship _ change => relationshipDescription change
  | .finding _ found => found.message

def isDestructive (change : Change) : Bool :=
  change.impact == .destructive

def render (change : Change) : Text :=
  "[" ++ change.kind.name ++ "/" ++ change.impact.name ++ "] " ++ change.subject.name ++ " " ++
    change.objectName ++ ": " ++ change.description

end Change

end TabularModel
