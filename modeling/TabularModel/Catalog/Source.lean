import TabularModel.Text.Blank

/-!
# Where the rows come from

How the rows of a table are stored, and by which connection they are read.
-/

set_option autoImplicit false

namespace TabularModel

namespace Catalog

inductive StorageMode where
  | directQuery
  | importMode
  | dual
deriving DecidableEq, Repr

namespace StorageMode

def all : List StorageMode := [.directQuery, .importMode, .dual]

/-- The name in definition files. -/
def name : StorageMode -> Text
  | .directQuery => "directQuery"
  | .importMode => "import"
  | .dual => "dual"

/-- The name in settings and interchange texts. -/
def settingName : StorageMode -> Text
  | .directQuery => "direct_query"
  | .importMode => "import"
  | .dual => "dual"

def ofName? (text : Text) : Option StorageMode :=
  all.find? (·.name == Text.trim text)

def ofSettingName? (text : Text) : Option StorageMode :=
  all.find? (·.settingName == text)

end StorageMode

/-- Both connections run the same queries. Only the first knows the current
user. -/
inductive ConnectionType where
  | dataverse
  | fabricLink
deriving DecidableEq, Repr

namespace ConnectionType

def all : List ConnectionType := [.dataverse, .fabricLink]

def settingName : ConnectionType -> Text
  | .dataverse => "dataverse"
  | .fabricLink => "fabric_link"

def ofSettingName? (text : Text) : Option ConnectionType :=
  all.find? (·.settingName == text)

def knowsUser : ConnectionType -> Bool
  | .dataverse => true
  | .fabricLink => false

end ConnectionType

structure Connection where
  type : ConnectionType
  dataverseUrl : Text
  fabricEndpoint : Text
  fabricLakehouse : Text
deriving DecidableEq, Repr

namespace Connection

/-- The parameters that the connection refers to, with their values. -/
def parameters (connection : Connection) : List (Text × Text) :=
  match connection.type with
  | .dataverse => [("DataverseURL", connection.dataverseUrl)]
  | .fabricLink =>
      [("FabricSQLEndpoint", connection.fabricEndpoint),
        ("FabricLakehouse", connection.fabricLakehouse)]

end Connection

end Catalog

end TabularModel
