import TabularModel.Filter.Conversion
import TabularModel.Filter.Document

/-!
# From a document to a row filter

The row filter for the document of a view, together with what is reported about
it. A document that cannot be read keeps every row and is itself reported.
-/

set_option autoImplicit false

namespace TabularModel

namespace Filter

inductive RowFilter where
  | converted (conversion : Conversion)
  | unreadable (fault : ReadFault)
deriving Repr

namespace RowFilter

def ofDocument (settings : Settings) (tableAlias document : Text) : RowFilter :=
  match Query.ofDocument document with
  | .ok query => .converted (query.convert settings tableAlias)
  | .error fault => .unreadable fault

def clause : RowFilter -> Text
  | .converted conversion => conversion.clause
  | .unreadable _ => []

def isFullySupported : RowFilter -> Bool
  | .converted conversion => conversion.isFullySupported
  | .unreadable _ => false

/-- What was left out, as it is shown. -/
def unsupported : RowFilter -> List Text
  | .converted conversion => conversion.unsupported.map Unsupported.message
  | .unreadable fault => ["unparsable filter: " ++ fault.message]

def log : RowFilter -> List Text
  | .converted conversion => conversion.notes.map Note.message
  | .unreadable fault => ["parse failed: " ++ fault.message]

end RowFilter

end Filter

end TabularModel
