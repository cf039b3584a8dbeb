import TabularModel.Definition.Name

/-!
# Conventions of written models

The annotations by which written tables and relationships are recognised again,
and the names that are derived from other names.
-/

set_option autoImplicit false

namespace TabularModel

namespace Convention

/-- The annotation that gives the catalog name of a table. -/
def logicalName : Text := "SemforgeLogicalName"

/-- The annotation of every written relationship. -/
def generated : Text := "SemforgeGenerated"

/-- The annotation of a relationship between dimensions. -/
def snowflake : Text := "SemforgeSnowflake"

def calendarTable : Text := "Date"

def calendarColumn : Text := "Date"

/-- The measure that counts the rows of a table. -/
def countMeasure (table : Text) : Text :=
  table ++ " Count"

end Convention

end TabularModel
