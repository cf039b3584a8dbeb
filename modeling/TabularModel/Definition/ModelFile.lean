import TabularModel.Definition.Line
import TabularModel.Definition.Name
import TabularModel.Json.Writer

/-!
# The files of the model and its database
-/

set_option autoImplicit false

namespace TabularModel

namespace Definition

def compatibilityLevel : Nat := 1567

def databaseText (modelName : Text) : Text :=
  Line.fileText
    (line ("database " ++ Name.written modelName) ::
      Line.nested [line ("compatibilityLevel: " ++ Decimal.natural compatibilityLevel)])

/-- The model file. `queryOrder` is the order of parameters and tables in the
query editor. -/
def modelText (culture : Text) (queryOrder tables : List Text) : Text :=
  Line.fileText
    (line "model Model" ::
      Line.nested
        [ line ("culture: " ++ culture),
          line "defaultPowerBIDataSourceVersion: powerBI_V3",
          line "discourageImplicitMeasures",
          line ("sourceQueryCulture: " ++ culture),
          .blank,
          line ("annotation PBI_QueryOrder = " ++ (Json.strings queryOrder).render),
          .blank ] ++
      tables.map fun table => line ("ref table " ++ Name.written table))

end Definition

end TabularModel
