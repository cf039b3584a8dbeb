import TabularModel.Catalog.Calendar
import TabularModel.Catalog.Table

/-!
# What is chosen for a model
-/

set_option autoImplicit false

namespace TabularModel

namespace Catalog

structure Selection where
  modelName : Text
  tables : List Table
  edges : List Edge
  calendar : Option Calendar
deriving Repr

namespace Selection

/-- Whether a table with the given logical name is chosen. -/
def hasTable (selection : Selection) (logicalName : Text) : Bool :=
  selection.tables.any fun table => Text.sameIgnoringCase table.logicalName logicalName

end Selection

end Catalog

end TabularModel
