import TabularModel.Catalog.Source
import TabularModel.Definition.Line
import TabularModel.Definition.Name

/-!
# Partitions and connection parameters

A partition reads the rows of a table by an expression: either a query that is
sent over the connection, or a calculation. The values that a connection needs
are declared as parameters in a file of their own.
-/

set_option autoImplicit false

namespace TabularModel

namespace Definition

open Catalog (Connection StorageMode)

/-- A string of the expression language: a quote inside it is doubled. -/
def expressionString (content : Text) : Text :=
  '"' :: (Text.doubling '"' content ++ ['"'])

def sourceStep : Catalog.ConnectionType -> Text
  | .dataverse => "CommonDataService.Database(DataverseURL, [CreateNavigationProperties=false])"
  | .fabricLink => "Sql.Database(FabricSQLEndpoint, FabricLakehouse)"

/-- The expression that sends a query over the connection. -/
def queryExpression (connection : Connection) (query : Text) : Text :=
  "let\n    Source = " ++ sourceStep connection.type ++
    ",\n    Query = Value.NativeQuery(Source, " ++ expressionString query ++
    ", null, [EnableFolding=true])\nin\n    Query"

def parameterLines (tag : Text -> Text) (parameter : Text × Text) : List Line :=
  let (name, value) := parameter
  line ("expression " ++ name ++ " = " ++ expressionString value ++
      " meta [IsParameterQuery=true, Type=\"Text\", IsParameterQueryRequired=true]") ::
    Line.nested
      [ line ("lineageTag: " ++ tag name),
        .blank,
        line "annotation PBI_ResultType = Text",
        .blank ]

/-- The file of parameters, with a tag for each by its name. -/
def parametersText (connection : Connection) (tag : Text -> Text) : Text :=
  Line.fileText (connection.parameters.flatMap (parameterLines tag))

inductive PartitionKind where
  | query
  | calculated
deriving DecidableEq, Repr

def PartitionKind.name : PartitionKind -> Text
  | .query => "m"
  | .calculated => "calculated"

def partitionLines (kind : PartitionKind) (table : Text) (mode : StorageMode)
    (expression : Text) : List Line :=
  line ("partition " ++ Name.written table ++ " = " ++ kind.name) ::
    Line.nested
      ([ line ("mode: " ++ mode.name), line "source =" ] ++
        Line.nested (Line.nested (Line.ofExpression expression)) ++ [.blank])

end Definition

end TabularModel
