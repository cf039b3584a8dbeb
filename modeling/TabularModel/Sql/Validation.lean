import TabularModel.Sql.Query

/-!
# Validation of queries

Whether a text can be read as queries. Queries that are nested too deep are
refused. One level is taken by the statement, by every query and by every
expression that is entered: an item, a condition, what stands in parentheses, an
argument and the right side of an operator.
-/

set_option autoImplicit false

namespace TabularModel

namespace Sql

namespace Level

def exhausted : Level where
  expression _ _ := .error .tooDeep
  query _ := .error .tooDeep
  tables _ := .error .tooDeep

/-- The readers with the given number of levels left. -/
def ofDepth : Nat -> Level
  | 0 => exhausted
  | depth + 1 =>
      let inner := ofDepth depth
      { expression := inner.expressionWith
        query := inner.queryWith
        tables := inner.tablesWith }

end Level

/-- How many levels a query may take. -/
def deepestQuery : Nat := 50

def isTerminator : Token -> Bool := isMark ";"

def startsStatement (token : Token) : Bool :=
  isOneOf ["SELECT", "WITH", "VALUES"] token || isMark "(" token

/-- Why the queries in a list of tokens, with terminators between them, cannot be
read. Behind a query the word that ends a block of statements ends the reading as
well. -/
def faultOfTokens? (tokens : List Token) : Option Fault :=
  match tokens with
  | [] => none
  | first :: rest =>
      if isTerminator first then faultOfTokens? rest
      else if startsStatement first then
        match (Level.ofDepth (deepestQuery - 1)).query (first :: rest) with
        | .error fault => some fault
        | .ok ⟨[], _⟩ => none
        | .ok ⟨next :: others, shorter⟩ =>
            have : others.length < (first :: rest).length :=
              Nat.lt_trans (Nat.lt_succ_self _) shorter
            if isTerminator next then faultOfTokens? others
            else if isKeyword "END" next then none
            else some (.expected "end of statement" (some next))
      else some (.expected "an SQL statement" (some first))
termination_by tokens.length
decreasing_by
  · exact Nat.lt_succ_self _
  · assumption

/-- Why a text cannot be read as queries, if it cannot. A text without any query
can be read. -/
def fault? (query : Text) : Option Fault :=
  match tokens? query with
  | none => some .unreadable
  | some tokens => faultOfTokens? tokens

end Sql

end TabularModel
