import TabularModel.Sql.Predicate
import TabularModel.Text.Blank

/-!
# Queries of one table

A query selects columns of a table under an alias, with an optional filter. A
column that is already selected is not selected again.
-/

set_option autoImplicit false

namespace TabularModel

namespace Sql

structure SelectColumn where
  expression : Expression
  label : Option Text
deriving DecidableEq, Repr

namespace SelectColumn

/-- The name in the result: the alias, else what follows the last point. -/
def outputName (column : SelectColumn) : Text :=
  column.label.getD (((Text.fields '.' column.expression.render).getLast?).getD [])

def render (column : SelectColumn) : Text :=
  match column.label with
  | some label => column.expression.render ++ " AS " ++ identifier label
  | none => column.expression.render

end SelectColumn

structure Select where
  table : Text
  tableAlias : Text
  columns : List SelectColumn
  filter : Option Text
deriving DecidableEq, Repr

namespace Select

def start (table tableAlias : Text) : Select :=
  ⟨table, tableAlias, [], none⟩

def add (query : Select) (column : SelectColumn) : Select :=
  if query.columns.contains column then query
  else { query with columns := query.columns ++ [column] }

/-- Selects a column of the table. -/
def addColumn (query : Select) (name : Text) : Select :=
  query.add ⟨.column query.tableAlias name, none⟩

/-- Selects an expression under a name. -/
def addExpression (query : Select) (expression : Expression) (name : Text) : Select :=
  query.add ⟨expression, some name⟩

/-- Keeps the rows that satisfy a clause; a blank clause keeps all of them. -/
def withFilter (query : Select) (clause : Text) : Select :=
  { query with filter := Text.unlessBlank clause }

def render (query : Select) : Text :=
  let columns : Text :=
    if query.columns.isEmpty then "*" else Text.joined ", " (query.columns.map SelectColumn.render)
  let whole := "SELECT " ++ columns ++ " FROM " ++ identifier query.table ++ " AS " ++
    identifier query.tableAlias
  match query.filter with
  | some clause => whole ++ " WHERE " ++ clause
  | none => whole

end Select

end Sql

end TabularModel
