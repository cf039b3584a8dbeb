import TabularModel.Definition.Path

/-!
# Files of a workspace

What a command can see: folders, and files with their texts, each at its place.
A path is followed name by name, and every name but the last one has to lead to
a folder. The folder in which a command runs is always there, and so are the
folders around it.

What changes files may fail halfway, and then leaves behind what was done before.
-/

set_option autoImplicit false

namespace TabularModel

namespace CommandLine

inductive Entry where
  | folder
  | file (text : Text)
deriving DecidableEq, Repr

/-- The entries by the paths of their places. -/
abbrev Workspace := SortedMap Entry

inductive FileFault where
  | notFound
  | occupied
  | notFolder
  | isFolder
  | nameTooLong
deriving DecidableEq, Repr

def FileFault.message : FileFault -> Text
  | .notFound => "No such file or directory (os error 2)"
  | .occupied => "File exists (os error 17)"
  | .notFolder => "Not a directory (os error 20)"
  | .isFolder => "Is a directory (os error 21)"
  | .nameTooLong => "File name too long (os error 36)"

/-- The names that lead to a file or folder from the folder in which a command
runs. An empty first name leads from the outermost folder instead. -/
abbrev Place := List Text

namespace Place

/-- Goes from a folder by one name of a path. Two points lead to the folder
outside, and a single one leads nowhere else. -/
def enter (place : Place) (name : Text) : Place :=
  if name = "." then place
  else if name ≠ ".." then place ++ [name]
  else
    match place.getLast? with
    | none => [name]
    | some [] => place
    | some last => if last = ".." then place ++ [name] else place.dropLast

/-- Whether the folder in which a command runs lies at a place or below it. -/
def isOutside (place : Place) : Bool :=
  place.all fun name => name.isEmpty || name == ['.', '.']

def path (place : Place) : Text :=
  Text.joined "/" place

end Place

namespace Workspace

def isAbsolute (path : Text) : Bool :=
  path.head? == some '/'

/-- The names in a path. A slash at the end asks for a folder, as a point does. -/
def names (path : Text) : List Text :=
  (Text.fields '/' path).filter (!·.isEmpty) ++
    (if path.getLast? = some '/' then [['.']] else [])

/-- Where a path begins. -/
def start (path : Text) : Place :=
  if isAbsolute path then [[]] else []

/-- The place to which a path leads if all its folders are there. -/
def place (path : Text) : Place :=
  (names path).foldl Place.enter (start path)

/-- How many bytes a name may have. -/
def longestName : Nat := 255

/-- How many bytes a path may have. -/
def longestPath : Nat := 4095

variable (workspace : Workspace)

/-- What is at a place. -/
def entry? (place : Place) : Option Entry :=
  if place.isOutside then some .folder else workspace.get? place.path

/-- Follows names from a place. -/
def follow : Place -> List Text -> Except FileFault Place
  | place, [] => .ok place
  | place, name :: names =>
      match workspace.entry? place with
      | none => .error .notFound
      | some (.file _) => .error .notFolder
      | some .folder =>
          if longestName < Text.byteLength name then .error .nameTooLong
          else follow (place.enter name) names

/-- The place to which a path leads. -/
def locate (path : Text) : Except FileFault Place :=
  if longestPath < Text.byteLength path then .error .nameTooLong
  else workspace.follow (start path) (names path)

/-- What a path leads to. -/
def find (path : Text) : Except FileFault Entry :=
  match workspace.locate path with
  | .error fault => .error fault
  | .ok place =>
      match workspace.entry? place with
      | none => .error .notFound
      | some entry => .ok entry

def read (path : Text) : Except FileFault Text :=
  match workspace.find path with
  | .error fault => .error fault
  | .ok .folder => .error .isFolder
  | .ok (.file text) => .ok text

/-- Whether a file or a folder is there. -/
def has (path : Text) : Bool :=
  match workspace.find path with
  | .ok _ => true
  | .error _ => false

def hasFolder (path : Text) : Bool :=
  match workspace.find path with
  | .ok .folder => true
  | _ => false

/-! ## Definition files -/

/-- A definition file has an extension of its own. -/
def isDefinition (path : Text) : Bool :=
  match Text.dropEnd? ".tmdl" path with
  | none | some [] => false
  | some stem => stem.getLast? != some '/'

/-- How the paths of what is below a folder begin. -/
def below (folder : Place) : Text :=
  folder.flatMap (· ++ ['/'])

/-- Whether a path leads on from folder to folder, never back or outside. -/
def isInner (path : Text) : Bool :=
  (Text.fields '/' path).all fun name => !name.isEmpty && name != ['.'] && name != ['.', '.']

/-- The definition files below a folder, by their paths from there. Where there
is no folder there are none. -/
def definitions (folder : Text) : DefinitionSet :=
  match workspace.hasFolder folder, workspace.locate folder with
  | true, .ok place =>
      .ofList <| workspace.entries.filterMap fun (path, entry) =>
        match entry with
        | .folder => none
        | .file text =>
            ((Text.dropStart? (below place) path).filter fun inner =>
              isInner inner && isDefinition inner).map fun inner => (inner, text)
  | _, _ => .empty

/-! ## Changes -/

/-- The workspace after a change, and what stopped the change before its end. -/
structure Attempt where
  workspace : Workspace
  fault : Option FileFault
deriving Repr

namespace Attempt

def done (workspace : Workspace) : Attempt := ⟨workspace, none⟩

def andThen (attempt : Attempt) (next : Workspace -> Attempt) : Attempt :=
  match attempt.fault with
  | none => next attempt.workspace
  | some _ => attempt

/-- Makes a change for every item, up to the first one that fails. -/
def each {α : Type} (change : Workspace -> α -> Attempt) : List α -> Workspace -> Attempt
  | [], workspace => .done workspace
  | item :: items, workspace => (change workspace item).andThen (each change items)

end Attempt

/-- Changes the entry at the place to which a path leads. -/
def changeAt (path : Text)
    (change : Place -> Option Entry -> Except FileFault Workspace) : Attempt :=
  match workspace.locate path with
  | .error fault => ⟨workspace, some fault⟩
  | .ok place =>
      match change place (workspace.entry? place) with
      | .error fault => ⟨workspace, some fault⟩
      | .ok changed => .done changed

def makeFolder (path : Text) : Attempt :=
  workspace.changeAt path fun place present =>
    match present with
    | some _ => .error .occupied
    | none => .ok (workspace.insert place.path .folder)

def writeFile (path text : Text) : Attempt :=
  workspace.changeAt path fun place present =>
    match present with
    | some .folder => .error .isFolder
    | _ => .ok (workspace.insert place.path (.file text))

def removeFile (path : Text) : Attempt :=
  workspace.changeAt path fun place present =>
    match present with
    | none => .error .notFound
    | some .folder => .error .isFolder
    | some (.file _) => .ok (workspace.erase place.path)

/-- A folder that is there already need not be made. -/
def ensureFolder (path : Text) : Attempt :=
  let attempt := workspace.makeFolder path
  if attempt.fault.isSome && workspace.hasFolder path then .done workspace else attempt

/-- A path of the given names, the last name first. -/
def pathOf (absolute : Bool) (reversed : List Text) : Text :=
  (if absolute then ['/'] else []) ++ Text.joined "/" reversed.reverse

/-- Makes a folder, and the folders outside it as far as they are missing. -/
def makeFolders (absolute : Bool) : List Text -> Workspace -> Attempt
  | [], workspace => .done workspace
  | name :: outer, workspace =>
      let path := pathOf absolute (name :: outer)
      let attempt := workspace.ensureFolder path
      if attempt.fault = some .notFound then
        (makeFolders absolute outer workspace).andThen fun changed => changed.ensureFolder path
      else attempt

/-- Writes a file, for which folders are made where they are missing. -/
def put (path text : Text) : Attempt :=
  let folders := ((names path).filter (· != ['.'])).reverse.tail
  (makeFolders (isAbsolute path) folders workspace).andThen fun changed =>
    changed.writeFile path text

/-- The path of a file in a folder. -/
def inside (folder path : Text) : Text :=
  if folder.getLast? = some '/' then folder ++ path else folder ++ '/' :: path

/-- Writes a definition set into a folder. Files of the earlier set that are not
in the new one are removed first, if they were written by this library. -/
def store (folder : Text) (isOwn : Text -> Text -> Bool) (earlier fresh : DefinitionSet) :
    Attempt :=
  let stale := earlier.filter fun path text => !fresh.contains path && isOwn path text
  (Attempt.each (fun known path => known.removeFile (inside folder path)) stale.keys
    workspace).andThen
    (Attempt.each (fun known file => known.put (inside folder file.1) file.2) fresh.entries)

end Workspace

end CommandLine

end TabularModel
