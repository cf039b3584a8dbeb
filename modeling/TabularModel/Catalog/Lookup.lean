import TabularModel.Text.Basic

/-!
# Columns of a lookup

A lookup can be shown by up to four columns: the key of the row it refers to,
the name of that row, the kind of that row and its phonetic name. A stored
setting says for each of them whether it is included and whether it is hidden;
what is not set follows defaults.
-/

set_option autoImplicit false

namespace TabularModel

namespace Catalog

inductive LookupColumn where
  | id
  | name
  | kind
  | phonetic
deriving DecidableEq, Repr

namespace LookupColumn

/-- The order in which the columns are written. -/
def all : List LookupColumn := [.id, .name, .kind, .phonetic]

/-- What the row source appends to the name of the lookup. -/
def suffix : LookupColumn -> Text
  | .id => ""
  | .name => "name"
  | .kind => "type"
  | .phonetic => "yominame"

def source (column : LookupColumn) (lookup : Text) : Text :=
  lookup ++ column.suffix

end LookupColumn

structure ColumnSetting where
  included : Option Bool
  hidden : Option Bool
deriving DecidableEq, Repr

namespace ColumnSetting

def unset : ColumnSetting := ⟨none, none⟩

def isUnset (setting : ColumnSetting) : Bool :=
  setting == unset

/-- What is not included cannot stay hidden. -/
def setIncluded (setting : ColumnSetting) (included : Bool) : ColumnSetting :=
  { included := some included
    hidden := if !included && setting.hidden == some true then some false else setting.hidden }

/-- What is hidden has to be included. -/
def setHidden (setting : ColumnSetting) (hidden : Bool) : ColumnSetting :=
  { included := if hidden then some true else setting.included
    hidden := some hidden }

end ColumnSetting

structure LookupSettings where
  id : ColumnSetting
  name : ColumnSetting
  kind : ColumnSetting
  phonetic : ColumnSetting
deriving DecidableEq, Repr

namespace LookupSettings

def unset : LookupSettings := ⟨.unset, .unset, .unset, .unset⟩

def get (settings : LookupSettings) : LookupColumn -> ColumnSetting
  | .id => settings.id
  | .name => settings.name
  | .kind => settings.kind
  | .phonetic => settings.phonetic

def change (settings : LookupSettings) (column : LookupColumn)
    (change : ColumnSetting -> ColumnSetting) : LookupSettings :=
  match column with
  | .id => { settings with id := change settings.id }
  | .name => { settings with name := change settings.name }
  | .kind => { settings with kind := change settings.kind }
  | .phonetic => { settings with phonetic := change settings.phonetic }

def isUnset (settings : LookupSettings) : Bool :=
  LookupColumn.all.all fun column => (settings.get column).isUnset

end LookupSettings

end Catalog

end TabularModel
