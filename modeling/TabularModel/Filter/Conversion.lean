import TabularModel.Filter.Basic
import TabularModel.Filter.LocalTime

/-!
# From a view to a row filter

A view is converted to a predicate of the query language. Conversion never
fails: what has no counterpart is left out and reported. Notes record, in
document order, everything that was converted, skipped or reported.

A link becomes an existence test on a subquery. A link without an alias gets
the next one of `le0`, `le1` and so on.
-/

set_option autoImplicit false

namespace TabularModel

namespace Filter

open Sql (Expression Literal Predicate)

/-- What the source of the rows cannot answer. -/
structure Environment where
  replicaSource : Bool
  importMode : Bool
deriving DecidableEq, Repr

namespace Environment

def unrestricted : Environment := ⟨false, false⟩

def missingUser? (environment : Environment) : Option Text :=
  if environment.replicaSource then some "no current-user context on a Fabric Link source"
  else if environment.importMode then some "no current-user context in import mode"
  else none

end Environment

inductive Unsupported where
  | otherJoin (column joinAlias : Text)
  | unknownOperator (name column : Text)
  | noValue (operator : ConditionOperator) (column : Text)
  | badCount (operator : ConditionOperator) (column value : Text)
  | outOfRange (operator : ConditionOperator) (column : Text)
  | notTwoValues (operator : ConditionOperator) (column : Text)
  | noUser (operator : ConditionOperator) (column reason : Text)
  | teamMembership (operator : ConditionOperator) (column : Text)
  | linkKind (table kind : Text)
  | linkWithoutColumns (table : Text)
deriving DecidableEq, Repr

namespace Unsupported

def onOperator (operator : ConditionOperator) (column : Text) : Text :=
  "operator '" ++ operator.name ++ "' on attribute '" ++ column ++ "'"

def message : Unsupported -> Text
  | .otherJoin column joinAlias =>
      "condition on attribute '" ++ column ++ "' references join alias '" ++ joinAlias ++ "'"
  | .unknownOperator name column =>
      "unsupported operator '" ++ name ++ "' on attribute '" ++ column ++ "'"
  | .noValue operator column => onOperator operator column ++ " has no value"
  | .badCount operator column value =>
      onOperator operator column ++ " needs a count between 0 and 2147483647, got '" ++
        value ++ "'"
  | .outOfRange operator column =>
      onOperator operator column ++ " moves past the supported date range"
  | .notTwoValues operator column => onOperator operator column ++ " needs exactly two values"
  | .noUser operator column reason => onOperator operator column ++ ": " ++ reason
  | .teamMembership operator column =>
      onOperator operator column ++
        " is partially supported: team membership relation may be unavailable"
  | .linkKind table kind => "link-entity '" ++ table ++ "' with link-type '" ++ kind ++ "'"
  | .linkWithoutColumns table => "link-entity '" ++ table ++ "' without from/to attributes"

end Unsupported

inductive Note where
  | started (entity tableAlias : Text)
  | unsupported (feature : Unsupported)
  | converted (condition : Condition) (predicate : Predicate)
  | emptyList (condition : Condition)
  | outerLink (table : Text)
  | joined (join : Sql.Join)
  | finished (result : Option Predicate)
deriving Repr

namespace Note

def message : Note -> Text
  | .started entity tableAlias =>
      "converting filter for entity '" ++ entity ++ "' as " ++ tableAlias
  | .unsupported feature => "unsupported: " ++ feature.message
  | .converted condition predicate =>
      "condition " ++ condition.column ++ " " ++ condition.operator.name ++ " -> " ++
        predicate.render
  | .emptyList condition =>
      "'" ++ condition.operator.name ++ "' on attribute '" ++ condition.column ++
        "' has no values; clause dropped"
  | .outerLink table => "outer link-entity '" ++ table ++ "' does not restrict rows; skipped"
  | .joined join =>
      "link-entity '" ++ join.table ++ "' as " ++ join.tableAlias ++ " joined on " ++
        join.tableAlias ++ "." ++ join.column ++ " = " ++ join.outerAlias ++ "." ++
        join.outerColumn
  | .finished none => "result: <empty>"
  | .finished (some predicate) => "result: " ++ predicate.render

def unsupported? : Note -> Option Unsupported
  | .unsupported feature => some feature
  | _ => none

end Note

/-- What becomes of one condition. -/
inductive Outcome where
  | full (predicate : Predicate)
  | partly (predicate : Predicate) (feature : Unsupported)
  | dropped (feature : Unsupported)
  | vacuous
deriving Repr

namespace Outcome

def predicate? : Outcome -> Option Predicate
  | .full predicate => some predicate
  | .partly predicate _ => some predicate
  | .dropped _ => none
  | .vacuous => none

def notes (condition : Condition) : Outcome -> List Note
  | .full predicate => [.converted condition predicate]
  | .partly predicate feature => [.unsupported feature, .converted condition predicate]
  | .dropped feature => [.unsupported feature]
  | .vacuous => [.emptyList condition]

end Outcome

structure Settings where
  time : LocalTime
  environment : Environment
deriving Repr

namespace Condition

variable (condition : Condition)

def withValue (use : Text -> Outcome) : Outcome :=
  match condition.scalarValue with
  | some value => use value
  | none => .dropped (.noValue condition.operator condition.column)

/-- The largest count a relative date may have. -/
def greatestCount : Int := 2147483647

/-- The predicate for the count a condition gives. The increment that the
predicate will ask for has to fit into 32 bits. -/
def withCount (increment : Int -> Int) (use : Int -> Predicate) : Outcome :=
  condition.withValue fun value =>
    match Decimal.integer? (Text.trim value) with
    | some count =>
        if 0 ≤ count ∧ count ≤ greatestCount then
          if Decimal.fits32 (increment count) then .full (use count)
          else .dropped (.outOfRange condition.operator condition.column)
        else .dropped (.badCount condition.operator condition.column value)
    | none => .dropped (.badCount condition.operator condition.column value)

def withUser (environment : Environment) (outcome : Outcome) : Outcome :=
  match environment.missingUser? with
  | some reason => .dropped (.noUser condition.operator condition.column reason)
  | none => outcome

def pattern (shape : TextMatch) (value : Text) : Text :=
  match shape with
  | .whole => value
  | .start => value ++ "%"
  | .ending => "%" ++ value

def comparedWithDay (time : LocalTime) (column : Expression) (day : Expression) :
    DayRelation -> Predicate
  | .on => .compare .equal (.asDate (time.localise column)) (.asDate day)
  | .onOrAfter => .compare .greaterOrEqual (time.localise column) day
  | .onOrBefore => .compare .lessOrEqual (time.localise column) day

/-- The outcome of a condition on the table known as `tableAlias`. -/
def convert (settings : Settings) (tableAlias : Text) : Outcome :=
  match condition.joinAlias with
  | some joinAlias => .dropped (.otherJoin condition.column joinAlias)
  | none =>
      let column : Expression := .column tableAlias condition.column
      let time := settings.time
      match condition.operator with
      | .compare comparison =>
          condition.withValue fun value =>
            .full (.compare comparison column (.literal (.ofText value)))
      | .isNull negated => .full (.isNull negated column)
      | .like shape negated =>
          condition.withValue fun value => .full (.like negated column (pattern shape value))
      | .oneOf negated =>
          match condition.listValues with
          | [] => .vacuous
          | values => .full (.isIn negated column (values.map .ofText))
      | .between negated =>
          match condition.listValues with
          | [low, high] => .full (.between negated column (.ofText low) (.ofText high))
          | _ => .dropped (.notTwoValues condition.operator condition.column)
      | .inPeriod period neighbour => .full (time.inPeriod column period neighbour)
      | .sevenDays direction => .full (time.window column .day 7 direction)
      | .window direction unit =>
          condition.withCount (LocalTime.farBound · direction)
            fun count => time.window column unit count direction
      | .olderThan unit =>
          condition.withCount (- ·) fun count => time.olderThan column unit count
      | .day relation =>
          condition.withValue fun value =>
            .full (comparedWithDay time column (.literal (.ofText value)) relation)
      | .currentUser negated =>
          condition.withUser settings.environment
            (.full (.compare (if negated then .notEqual else .equal) column .currentUser))
      | .userTeams negated =>
          condition.withUser settings.environment
            (.partly (.inUserTeams negated column)
              (.teamMembership condition.operator condition.column))
      | .unrecognized name => .dropped (.unknownOperator name condition.column)

end Condition

/-- A value with the notes made on the way to it, and the number of the next
alias that may be given out. -/
structure Step (α : Type) where
  value : α
  notes : List Note
  nextAlias : Nat

def generatedAlias (number : Nat) : Text :=
  "le" ++ Decimal.natural number

/-- The kept parts of a group under its connective. -/
def Group.join (connective : Connective) : List Predicate -> Option Predicate
  | [] => none
  | [only] => some only
  | parts => some (.junction connective parts)

mutual

def Item.convert (settings : Settings) (tableAlias : Text) (next : Nat) :
    Item -> Step (Option Predicate)
  | .condition condition =>
      let outcome := condition.convert settings tableAlias
      ⟨outcome.predicate?, outcome.notes condition, next⟩
  | .group group =>
      let step := group.convert settings tableAlias next
      ⟨step.value.map .grouped, step.notes, step.nextAlias⟩
  | .link link => link.convert settings tableAlias next

def Item.convertEach (settings : Settings) (tableAlias : Text) (next : Nat) :
    List Item -> Step (List Predicate)
  | [] => ⟨[], [], next⟩
  | item :: items =>
      let first := item.convert settings tableAlias next
      let others := Item.convertEach settings tableAlias first.nextAlias items
      ⟨first.value.toList ++ others.value, first.notes ++ others.notes, others.nextAlias⟩

def Group.convert (settings : Settings) (tableAlias : Text) (next : Nat) :
    Group -> Step (Option Predicate)
  | ⟨connective, items⟩ =>
      let step := Item.convertEach settings tableAlias next items
      ⟨Group.join connective step.value, step.notes, step.nextAlias⟩

def Group.convertEach (settings : Settings) (tableAlias : Text) (next : Nat) :
    List Group -> Step (List Predicate)
  | [] => ⟨[], [], next⟩
  | group :: groups =>
      let first := group.convert settings tableAlias next
      let others := Group.convertEach settings tableAlias first.nextAlias groups
      ⟨first.value.toList ++ others.value, first.notes ++ others.notes, others.nextAlias⟩

def Link.convert (settings : Settings) (outerAlias : Text) (next : Nat) :
    Link -> Step (Option Predicate)
  | ⟨table, column, outerColumn, tableAlias, kind, filters, links⟩ =>
      match kind with
      | .outer => ⟨none, [.outerLink table], next⟩
      | .other name => ⟨none, [.unsupported (.linkKind table name)], next⟩
      | .inner | .any | .notAny =>
          if Text.allBlank column || Text.allBlank outerColumn then
            ⟨none, [.unsupported (.linkWithoutColumns table)], next⟩
          else
            let join : Sql.Join :=
              { table := table
                tableAlias := tableAlias.getD (generatedAlias next)
                column := column
                outerAlias := outerAlias
                outerColumn := outerColumn }
            let afterAlias := if tableAlias.isSome then next else next + 1
            let inner := Group.convertEach settings join.tableAlias afterAlias filters
            let nested := Link.convertEach settings join.tableAlias inner.nextAlias links
            let negated := kind == .notAny
            let predicate :=
              match Predicate.all? (inner.value ++ nested.value) with
              | none => .linked negated join
              | some condition => .linkedWhere negated join condition
            ⟨some predicate, .joined join :: inner.notes ++ nested.notes, nested.nextAlias⟩

def Link.convertEach (settings : Settings) (outerAlias : Text) (next : Nat) :
    List Link -> Step (List Predicate)
  | [] => ⟨[], [], next⟩
  | link :: links =>
      let first := link.convert settings outerAlias next
      let others := Link.convertEach settings outerAlias first.nextAlias links
      ⟨first.value.toList ++ others.value, first.notes ++ others.notes, others.nextAlias⟩

end

structure Conversion where
  predicate : Option Predicate
  notes : List Note
deriving Repr

namespace Conversion

/-- The text after `WHERE`, empty if every row is kept. -/
def clause (conversion : Conversion) : Text :=
  (conversion.predicate.map Predicate.render).getD []

def unsupported (conversion : Conversion) : List Unsupported :=
  conversion.notes.filterMap Note.unsupported?

def isFullySupported (conversion : Conversion) : Bool :=
  conversion.unsupported.isEmpty

end Conversion

/-- The row filter of a view on the table known as `tableAlias`. Filters and links at
the root all have to hold. -/
def Query.convert (settings : Settings) (tableAlias : Text) (query : Query) : Conversion :=
  let filters := Group.convertEach settings tableAlias 0 query.filters
  let links := Link.convertEach settings tableAlias filters.nextAlias query.links
  let result := Predicate.all? (filters.value ++ links.value)
  { predicate := result
    notes :=
      .started query.entity tableAlias :: filters.notes ++ links.notes ++ [.finished result] }

end Filter

end TabularModel
