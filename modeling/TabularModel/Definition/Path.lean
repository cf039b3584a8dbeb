import TabularModel.SortedMap

/-!
# Files of a definition set

A definition set gives the text of each file by its path. Four files have fixed
paths, and each table has a file of its own, whose name is the table name with
unsafe characters replaced and without points and spaces at its end.
-/

set_option autoImplicit false

namespace TabularModel

abbrev DefinitionSet := SortedMap Text

namespace Path

def database : Text := "definition/database.tmdl"

def model : Text := "definition/model.tmdl"

def expressions : Text := "definition/expressions.tmdl"

def relationships : Text := "definition/relationships.tmdl"

def tablesFolder : Text := "definition/tables/"

def isUnsafe (c : Char) : Bool :=
  let code := c.toNat
  "<>:\"/\\|?*".toList.contains c || code < 0x20 || (0x7F ≤ code && code ≤ 0x9F)

def fileName (name : Text) : Text :=
  let cleaned := name.map fun c => if isUnsafe c then '_' else c
  match Text.dropRightWhile (fun c => c == '.' || c == ' ') cleaned with
  | [] => "_"
  | trimmed => trimmed

def table (name : Text) : Text :=
  tablesFolder ++ fileName name ++ ".tmdl"

def isInTablesFolder (path : Text) : Bool :=
  tablesFolder.isPrefixOf path

end Path

end TabularModel
