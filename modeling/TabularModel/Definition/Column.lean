import TabularModel.Catalog.Attribute
import TabularModel.Definition.Line
import TabularModel.Definition.Name

/-!
# Columns of a definition file
-/

set_option autoImplicit false

namespace TabularModel

namespace Definition

open Catalog (AttributeType)

inductive DataType where
  | string
  | int64
  | decimal
  | double
  | dateTime
deriving DecidableEq, Repr

namespace DataType

/-- The type of the column that shows an attribute. Coded values are shown by
their labels. -/
def ofAttribute : AttributeType -> DataType
  | .integer | .bigInt => .int64
  | .decimal | .money => .decimal
  | .double => .double
  | .dateTime => .dateTime
  | _ => .string

def name : DataType -> Text
  | .string => "string"
  | .int64 => "int64"
  | .decimal => "decimal"
  | .double => "double"
  | .dateTime => "dateTime"

def defaultFormat? : DataType -> Option Text
  | .int64 => some "0"
  | .decimal | .double => some "#,0.00"
  | .dateTime => some "General Date"
  | .string => none

def isNumeric : DataType -> Bool
  | .int64 | .decimal | .double => true
  | .string | .dateTime => false

end DataType

/-- A column of the model; `source` is its column in the row source. -/
structure Column where
  name : Text
  source : Text
  dataType : DataType
  format : Option Text
  isHidden : Bool
  isKey : Bool
deriving DecidableEq, Repr

namespace Column

/-- A visible column in the default format of its type. -/
def plain (name source : Text) (dataType : DataType) : Column :=
  ⟨name, source, dataType, dataType.defaultFormat?, false, false⟩

/-- Numbers are added up, unless they are keys. -/
def summary (column : Column) : Text :=
  if column.dataType.isNumeric && !column.isKey then "sum" else "none"

/-- The line of a flag that is set. -/
def flagLine (flag : Bool) (name : Text) : List Line :=
  if flag then [line name] else []

def formatLine (format : Option Text) : List Line :=
  match format with
  | some format => [line ("formatString: " ++ format)]
  | none => []

def lines (column : Column) (tag : Text) : List Line :=
  line ("column " ++ Name.written column.name) ::
    Line.nested
      ([line ("dataType: " ++ column.dataType.name)] ++
        formatLine column.format ++ flagLine column.isHidden "isHidden" ++
        flagLine column.isKey "isKey" ++
        [ line ("lineageTag: " ++ tag),
          line ("summarizeBy: " ++ column.summary),
          line ("sourceColumn: " ++ column.source),
          .blank,
          line "annotation SummarizationSetBy = Automatic",
          .blank ])

end Column

end Definition

end TabularModel
