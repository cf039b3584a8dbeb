import TabularModel.Filter.Operator

/-!
# Filters of a saved view

A view keeps rows by groups of conditions and by links to other tables. A
group joins its items by one connective; a link carries filters and links of
its own, which speak about the linked table.
-/

set_option autoImplicit false

namespace TabularModel

namespace Filter

/-- A test on one attribute. The value is written on the condition itself, the
values are listed inside it. A join alias names a linked table when the
condition is written outside the link. -/
structure Condition where
  column : Text
  operator : ConditionOperator
  value : Option Text
  values : List Text
  joinAlias : Option Text
deriving DecidableEq, Repr

namespace Condition

/-- The values of a list operator: the listed ones if there are any, else the
written value split at commas. Blank entries are left out. -/
def listValues (condition : Condition) : List Text :=
  let entries :=
    match condition.values, condition.value with
    | [], none => []
    | [], some value => Text.fields ',' value
    | values, _ => values
  (entries.map Text.trim).filter (· ≠ [])

/-- The one value of a scalar operator: the written one, else the first listed
one. -/
def scalarValue (condition : Condition) : Option Text :=
  condition.value <|> condition.values.head?

end Condition

mutual

inductive Item where
  | condition (condition : Condition)
  | group (group : Group)
  | link (link : Link)
deriving Repr

structure Group where
  connective : Connective
  items : List Item
deriving Repr

/-- The table of a link, the column of it that is compared, and the column of
the table outside that it is compared with. -/
structure Link where
  table : Text
  column : Text
  outerColumn : Text
  tableAlias : Option Text
  kind : LinkKind
  filters : List Group
  links : List Link
deriving Repr

end

instance : Inhabited Group := ⟨⟨.and, []⟩⟩

instance : Inhabited Link := ⟨⟨[], [], [], none, .inner, [], []⟩⟩

structure Query where
  entity : Text
  filters : List Group
  links : List Link
deriving Repr

def Query.empty : Query := ⟨[], [], []⟩

end Filter

end TabularModel
