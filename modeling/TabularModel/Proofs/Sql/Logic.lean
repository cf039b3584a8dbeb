import TabularModel.Proofs.Sql.Pieces

/-!
# The Boolean structure of a condition

A condition is read as an expression of tests that are joined by connectives. What
stands in parentheses joins nothing around them. `AND` binds tighter than `OR`. A test
binds tighter than both, with the `AND` that belongs to a `BETWEEN` in it. A subquery
behind `EXISTS` has a condition of its own.
-/

set_option autoImplicit false

namespace TabularModel

namespace Sql

/-! ## Terms -/

/-- Two names with a point between them are one term. Names that are plain are written bare
also if they are keywords, and the point tells them apart from keywords. -/
inductive Term where
  | column (tableAlias name : Text)
  | lexeme (lexeme : Lexeme)
deriving DecidableEq, Repr

def column? (first second third : Lexeme) : Option Term :=
  if second = .mark "." then do return .column (<- first.name?) (<- third.name?) else none

def terms : List Lexeme -> List Term
  | first :: second :: third :: rest =>
      match column? first second third with
      | some column => column :: terms rest
      | none => .lexeme first :: terms (second :: third :: rest)
  | short => short.map .lexeme

namespace Term

def opening : Term := .lexeme (.mark "(")

def closing : Term := .lexeme (.mark ")")

def isKeyword (keyword : Text) : Term -> Bool
  | .lexeme (.word word) => Text.sameIgnoringCase word keyword
  | _ => false

end Term

/-! ## Splitting at connectives -/

def depthAfter (depth : Nat) (term : Term) : Nat :=
  if term = .opening then depth + 1 else if term = .closing then depth - 1 else depth

/-- Where a term stands: in how many parentheses, and whether the `AND` of a `BETWEEN`
outside of them is still to come. -/
structure Place where
  depth : Nat
  isBetween : Bool
deriving DecidableEq, Repr

namespace Place

def outer : Place := ⟨0, false⟩

def after (place : Place) (term : Term) : Place where
  depth := depthAfter place.depth term
  isBetween :=
    if place.depth = 0 then
      term.isKeyword "BETWEEN" || (place.isBetween && !term.isKeyword "AND")
    else place.isBetween

end Place

def Connective.keyword : Connective -> Text
  | .and => "AND"
  | .or => "OR"

/-- The parts of a condition between the occurrences of a connective that stand in no
parentheses and belong to no test. -/
def split (connective : Connective) (place : Place) : List Term -> List (List Term)
  | [] => [[]]
  | term :: rest =>
      let parts := split connective (place.after term) rest
      if place = .outer ∧ term.isKeyword (Connective.keyword connective) then [] :: parts
      else parts.modifyHead (term :: ·)

/-! ## Parentheses -/

/-- What stands in front of the parenthesis that closes the present one, and what
stands behind it. -/
def closed? (depth : Nat) : List Term -> Option (List Term × List Term)
  | [] => none
  | term :: rest =>
      if depth = 0 ∧ term = .closing then some ([], rest)
      else (closed? (depthAfter depth term) rest).map fun (inside, back) => (term :: inside, back)

/-- What stands between parentheses that enclose the whole. -/
def enclosed? : List Term -> Option (List Term)
  | [] => none
  | first :: rest =>
      if first = .opening then
        match closed? 0 rest with
        | some (inside, []) => some inside
        | _ => none
      else none

/-! ## Expressions -/

inductive Logic where
  | test (terms : List Term)
  | negation (inner : Logic)
  | junction (connective : Connective) (parts : List Logic)
  | existence (table tableAlias : Text) (condition : Logic)
deriving Repr

/-- A connective joins several parts, and a single one stands for itself. -/
def Logic.joined (connective : Connective) : List Logic -> Logic
  | [only] => only
  | parts => .junction connective parts

def Logic.joined? (connective : Connective) : List Logic -> Option Logic
  | [] => none
  | parts => some (.joined connective parts)

section

variable (inner? : List Term -> Option Logic)

/-- A subquery that looks for rows of a table under a condition. -/
def existence? : List Term -> Option Logic
  | select :: .lexeme (.integer _) :: source :: .lexeme table :: as :: .lexeme tableAlias ::
      filter :: condition =>
      if select.isKeyword "SELECT" && source.isKeyword "FROM" && as.isKeyword "AS" &&
          filter.isKeyword "WHERE" then do
        return .existence (<- table.name?) (<- tableAlias.name?) (<- inner? condition)
      else none
  | _ => none

/-- A part without connectives outside of parentheses. -/
def factor? : List Term -> Option Logic
  | [] => none
  | first :: rest =>
      if first.isKeyword "NOT" then (factor? rest).map .negation
      else if first.isKeyword "EXISTS" then (enclosed? rest).bind (existence? inner?)
      else
        match enclosed? (first :: rest) with
        | some inside => inner? inside
        | none => some (.test (first :: rest))

def conjunction? (terms : List Term) : Option Logic :=
  ((split .and .outer terms).mapM (factor? inner?)).map (Logic.joined .and)

def disjunction? (terms : List Term) : Option Logic :=
  ((split .or .outer terms).mapM (conjunction? inner?)).map (Logic.joined .or)

end

/-- The expression of a condition whose parentheses are not nested deeper than the
given depth. -/
def logicWithin? : (depth : Nat) -> List Term -> Option Logic
  | 0, _ => none
  | depth + 1, terms => disjunction? (logicWithin? depth) terms

/-- The expression that a text is read as. Its parentheses are not nested deeper than
there are terms. -/
def logic? (text : Text) : Option Logic :=
  let read := terms (lexemes text)
  logicWithin? (read.length + 1) read

/-! ## What a predicate stands for -/

/-- What is written for a predicate, as one test. -/
def Predicate.test (predicate : Predicate) : Logic :=
  .test (terms (lexemes predicate.render))

/-- The condition on which a linked table is joined. -/
def Join.condition (join : Join) : Predicate :=
  .compare .equal (.column join.tableAlias join.column) (.column join.outerAlias join.outerColumn)

def Logic.negatedIf (negated : Bool) (logic : Logic) : Logic :=
  if negated then .negation logic else logic

mutual

/-- Parentheses are no part of what a predicate stands for. The condition of a join comes
in front of what else is asked of the rows of its table. -/
def Predicate.logic : Predicate -> Logic
  | .junction connective parts => .joined connective (Predicate.logicEach parts)
  | .grouped inner => inner.logic
  | .linked negated join =>
      .negatedIf negated (.existence join.table join.tableAlias join.condition.test)
  | .linkedWhere negated join inner =>
      .negatedIf negated
        (.existence join.table join.tableAlias
          (.joined .and [join.condition.test, inner.logic]))
  | predicate => predicate.test

def Predicate.logicEach : List Predicate -> List Logic
  | [] => []
  | part :: parts => part.logic :: Predicate.logicEach parts

end

theorem Predicate.logicEach_eq_map (parts : List Predicate) :
    Predicate.logicEach parts = parts.map Predicate.logic := by
  induction parts with
  | nil => rw [logicEach, List.map_nil]
  | cons part parts ih => rw [logicEach, ih, List.map_cons]

end Sql

end TabularModel
