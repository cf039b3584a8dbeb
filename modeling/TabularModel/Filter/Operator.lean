import TabularModel.Text.Blank
import TabularModel.Sql.Predicate

/-!
# Condition operators

The operators a filter condition may use, each with one canonical name. Names
are read without regard to blanks around them or to letter case, and two of
them have a second spelling. A name that means nothing here is kept as written.
-/

set_option autoImplicit false

namespace TabularModel

namespace Filter

inductive DateUnit where
  | hour
  | day
  | week
  | month
  | year
deriving DecidableEq, Repr

namespace DateUnit

def all : List DateUnit := [.hour, .day, .week, .month, .year]

def part : DateUnit -> Sql.DatePart
  | .hour => .hour
  | .day => .day
  | .week => .week
  | .month => .month
  | .year => .year

def plural (unit : DateUnit) : Text :=
  unit.part.name ++ "s"

end DateUnit

/-- A day, week, month or year relative to the present one. -/
inductive Neighbour where
  | current
  | previous
  | next
deriving DecidableEq, Repr

inductive CalendarPeriod where
  | day
  | week
  | month
  | year
deriving DecidableEq, Repr

/-- Where in the text a pattern has to be found. -/
inductive TextMatch where
  | whole
  | start
  | ending
deriving DecidableEq, Repr

inductive Direction where
  | past
  | future
deriving DecidableEq, Repr

inductive DayRelation where
  | on
  | onOrAfter
  | onOrBefore
deriving DecidableEq, Repr

inductive ConditionOperator where
  | compare (comparison : Sql.Comparison)
  | isNull (negated : Bool)
  | like (shape : TextMatch) (negated : Bool)
  | oneOf (negated : Bool)
  | between (negated : Bool)
  | inPeriod (period : CalendarPeriod) (neighbour : Neighbour)
  | sevenDays (direction : Direction)
  | window (direction : Direction) (unit : DateUnit)
  | olderThan (unit : DateUnit)
  | day (relation : DayRelation)
  | currentUser (negated : Bool)
  | userTeams (negated : Bool)
  | unrecognized (name : Text)
deriving DecidableEq, Repr

namespace ConditionOperator

def negatable (negated : Bool) (name : Text) : Text :=
  if negated then "not-" ++ name else name

def neighbourWord : Neighbour -> Text
  | .current => "this-"
  | .previous => "last-"
  | .next => "next-"

def directionWord : Direction -> Text
  | .past => "last-"
  | .future => "next-"

/-- The canonical name of an operator. -/
def name : ConditionOperator -> Text
  | .compare .equal => "eq"
  | .compare .notEqual => "ne"
  | .compare .greater => "gt"
  | .compare .greaterOrEqual => "ge"
  | .compare .less => "lt"
  | .compare .lessOrEqual => "le"
  | .isNull negated => negatable negated "null"
  | .like .whole negated => negatable negated "like"
  | .like .start false => "begins-with"
  | .like .start true => "not-begin-with"
  | .like .ending false => "ends-with"
  | .like .ending true => "not-end-with"
  | .oneOf negated => negatable negated "in"
  | .between negated => negatable negated "between"
  | .inPeriod .day .current => "today"
  | .inPeriod .day .previous => "yesterday"
  | .inPeriod .day .next => "tomorrow"
  | .inPeriod .week neighbour => neighbourWord neighbour ++ "week"
  | .inPeriod .month neighbour => neighbourWord neighbour ++ "month"
  | .inPeriod .year neighbour => neighbourWord neighbour ++ "year"
  | .sevenDays direction => directionWord direction ++ "seven-days"
  | .window direction unit => directionWord direction ++ "x-" ++ unit.plural
  | .olderThan unit => "olderthan-x-" ++ unit.plural
  | .day .on => "on"
  | .day .onOrAfter => "on-or-after"
  | .day .onOrBefore => "on-or-before"
  | .currentUser false => "eq-userid"
  | .currentUser true => "ne-userid"
  | .userTeams false => "eq-userteams"
  | .userTeams true => "ne-userteams"
  | .unrecognized name => name

def isRecognized : ConditionOperator -> Bool
  | .unrecognized _ => false
  | _ => true

/-- Every operator that has a meaning. -/
def recognized : List ConditionOperator :=
  [.equal, .notEqual, .greater, .greaterOrEqual, .less, .lessOrEqual].map compare ++
  [false, true].map isNull ++
  [.whole, .start, .ending].flatMap (fun shape => [false, true].map (like shape)) ++
  [false, true].map oneOf ++
  [false, true].map between ++
  [.day, .week, .month, .year].flatMap (fun period =>
    [.current, .previous, .next].map (inPeriod period)) ++
  [.past, .future].map sevenDays ++
  [.past, .future].flatMap (fun direction => DateUnit.all.map (window direction)) ++
  DateUnit.all.map olderThan ++
  [.on, .onOrAfter, .onOrBefore].map day ++
  [false, true].map currentUser ++
  [false, true].map userTeams

/-- The canonical spelling of a lower-case name. -/
def canonicalSpelling (name : Text) : Text :=
  if name = "neq" then "ne"
  else
    match Text.dropStart? "older-x-" name with
    | some unit => "olderthan-x-" ++ unit
    | none => name

def ofText (text : Text) : ConditionOperator :=
  let trimmed := Text.trim text
  let spelling := canonicalSpelling (Text.lower trimmed)
  (recognized.find? (·.name == spelling)).getD (.unrecognized trimmed)

end ConditionOperator

/-- A group is a disjunction exactly if its type says so. -/
def connectiveOfText (text : Text) : Connective :=
  if Text.sameIgnoringCase (Text.trim text) "or" then .or else .and

/-- How the rows of a linked table bear on the rows of the table outside. -/
inductive LinkKind where
  | inner
  | outer
  | any
  | notAny
  | other (name : Text)
deriving DecidableEq, Repr

def LinkKind.ofText (text : Text) : LinkKind :=
  let trimmed := Text.trim text
  let name := Text.lower trimmed
  if name = "" ∨ name = "inner" ∨ name = "exists" ∨ name = "in" then .inner
  else if name = "outer" then .outer
  else if name = "any" then .any
  else if name = "not any" then .notAny
  else .other trimmed

end Filter

end TabularModel
