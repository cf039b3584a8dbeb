import TabularModel.SortedMap

/-!
# Corrections of column names

Some columns that a catalog advertises have another name in the row source. A
table of corrections gives that name; advertised names are compared without
regard to letter case, since the keys of the table are in lower case.
-/

set_option autoImplicit false

namespace TabularModel

abbrev Corrections := SortedMap Text

namespace Corrections

def correct (corrections : Corrections) (advertised actual : Text) : Corrections :=
  corrections.insert (Text.lower advertised) actual

def extend (corrections more : Corrections) : Corrections :=
  more.entries.foldl (fun known entry => correct known entry.1 entry.2) corrections

/-- The name of a column in the row source. -/
def apply (corrections : Corrections) (column : Text) : Text :=
  (corrections.get? (Text.lower column)).getD column

/-- The phonetic names of users, which the row source lacks. -/
def standard : Corrections :=
  .ofList
    [ ("createdbyyominame", "createdbyname"),
      ("modifiedbyyominame", "modifiedbyname"),
      ("createdonbehalfbyyominame", "createdonbehalfbyname"),
      ("modifiedonbehalfbyyominame", "modifiedonbehalfbyname") ]

end Corrections

end TabularModel
