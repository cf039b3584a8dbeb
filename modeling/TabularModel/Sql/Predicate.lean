import TabularModel.Sql.Literal

/-!
# Expressions and predicates of a query

The scalar expressions and Boolean conditions that a row filter is made of,
with their written form. Parentheses are part of a predicate, so that its
written form follows its structure.
-/

set_option autoImplicit false

namespace TabularModel

inductive Connective where
  | and
  | or
deriving DecidableEq, Repr

namespace Sql

inductive DatePart where
  | minute
  | hour
  | day
  | week
  | month
  | year
deriving DecidableEq, Repr

def DatePart.name : DatePart -> Text
  | .minute => "minute"
  | .hour => "hour"
  | .day => "day"
  | .week => "week"
  | .month => "month"
  | .year => "year"

inductive Expression where
  | column (tableAlias name : Text)
  | literal (value : Literal)
  | currentUser
  | utcNow
  | fragment (text : Text)
  | dateAdd (part : DatePart) (count : Int) (moment : Expression)
  | startOf (part : DatePart) (moment : Expression)
  | partOf (part : DatePart) (moment : Expression)
  | monthOf (moment : Expression)
  | yearOf (moment : Expression)
  | asDate (moment : Expression)
deriving DecidableEq, Repr

/-- The start of a period is written as the count of whole periods since day
zero, added to day zero. -/
def Expression.render : Expression -> Text
  | .column tableAlias name => qualified tableAlias name
  | .literal value => value.render
  | .currentUser => "CURRENT_USER"
  | .utcNow => "GETUTCDATE()"
  | .fragment text => text
  | .dateAdd part count moment =>
      "DATEADD(" ++ part.name ++ ", " ++ Decimal.integer count ++ ", " ++ moment.render ++ ")"
  | .startOf part moment =>
      "DATEADD(" ++ part.name ++ ", DATEDIFF(" ++ part.name ++ ", 0, " ++ moment.render ++
        "), 0)"
  | .partOf part moment => "DATEPART(" ++ part.name ++ ", " ++ moment.render ++ ")"
  | .monthOf moment => "MONTH(" ++ moment.render ++ ")"
  | .yearOf moment => "YEAR(" ++ moment.render ++ ")"
  | .asDate moment => "CAST(" ++ moment.render ++ " AS DATE)"

inductive Comparison where
  | equal
  | notEqual
  | greater
  | greaterOrEqual
  | less
  | lessOrEqual
deriving DecidableEq, Repr

def Comparison.symbol : Comparison -> Text
  | .equal => "="
  | .notEqual => "<>"
  | .greater => ">"
  | .greaterOrEqual => ">="
  | .less => "<"
  | .lessOrEqual => "<="

/-- A linked table and the pair of columns on which it is joined to the table
outside. -/
structure Join where
  table : Text
  tableAlias : Text
  column : Text
  outerAlias : Text
  outerColumn : Text
deriving DecidableEq, Repr

def Join.render (join : Join) : Text :=
  "SELECT 1 FROM " ++ identifier join.table ++ " AS " ++ identifier join.tableAlias ++ " WHERE " ++
    qualified join.tableAlias join.column ++ " = " ++ qualified join.outerAlias join.outerColumn

inductive Predicate where
  | compare (comparison : Comparison) (left right : Expression)
  | isNull (negated : Bool) (tested : Expression)
  | like (negated : Bool) (tested : Expression) (pattern : Text)
  | isIn (negated : Bool) (tested : Expression) (values : List Literal)
  | between (negated : Bool) (tested : Expression) (low high : Literal)
  | inUserTeams (negated : Bool) (tested : Expression)
  | junction (connective : Connective) (parts : List Predicate)
  | grouped (inner : Predicate)
  | linked (negated : Bool) (join : Join)
  | linkedWhere (negated : Bool) (join : Join) (inner : Predicate)
deriving Repr

def negation (negated : Bool) : Text :=
  if negated then "NOT " else ""

def Connective.separator : Connective -> Text
  | .and => " AND "
  | .or => " OR "

mutual

def Predicate.render : Predicate -> Text
  | .compare comparison left right =>
      left.render ++ " " ++ comparison.symbol ++ " " ++ right.render
  | .isNull negated tested => tested.render ++ " IS " ++ negation negated ++ "NULL"
  | .like negated tested pattern =>
      tested.render ++ " " ++ negation negated ++ "LIKE " ++ stringLiteral pattern
  | .isIn negated tested values =>
      tested.render ++ " " ++ negation negated ++ "IN (" ++
        Text.joined ", " (values.map Literal.render) ++ ")"
  | .between negated tested low high =>
      tested.render ++ " " ++ negation negated ++ "BETWEEN " ++ low.render ++ " AND " ++
        high.render
  | .inUserTeams negated tested =>
      tested.render ++ " " ++ negation negated ++
        "IN (SELECT tm.teamid FROM teammembership AS tm WHERE tm.systemuserid = CURRENT_USER)"
  | .junction connective parts =>
      Text.joined (Connective.separator connective) (Predicate.renderEach parts)
  | .grouped inner => "(" ++ inner.render ++ ")"
  | .linked negated join => negation negated ++ "EXISTS (" ++ join.render ++ ")"
  | .linkedWhere negated join inner =>
      negation negated ++ "EXISTS (" ++ join.render ++ " AND (" ++ inner.render ++ "))"

def Predicate.renderEach : List Predicate -> List Text
  | [] => []
  | part :: parts => part.render :: Predicate.renderEach parts

end

/-- A predicate that is itself a conjunction or disjunction and so needs
parentheses inside another one. -/
def Predicate.isCompound : Predicate -> Bool
  | .junction _ _ => true
  | _ => false

def Predicate.parenthesised (predicate : Predicate) : Predicate :=
  if predicate.isCompound then .grouped predicate else predicate

/-- The conjunction of sibling predicates: nothing for none of them, the
predicate itself for a single one. -/
def Predicate.all? : List Predicate -> Option Predicate
  | [] => none
  | [only] => some only
  | parts => some (.junction .and (parts.map Predicate.parenthesised))

end Sql

end TabularModel
