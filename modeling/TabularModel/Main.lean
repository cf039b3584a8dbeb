import TabularModel.CommandLine.Run
import TabularModel.Generation.Identifier

/-!
# The command line

Reads the files and variables that a command may need, runs the command on them
and carries out what it changed.
-/

set_option autoImplicit false

namespace TabularModel

namespace CommandLine

def string (text : Text) : String :=
  .ofList text

/-- The text of a file, unless it cannot be read. -/
def readFile? (path : Text) : IO (Option Text) := do
  try
    return some (<- IO.FS.readFile (string path)).toList
  catch _ => return none

/-- What is at a path, added to a workspace under the place to which it leads. -/
def loadEntry (workspace : Workspace) (path : Text) : IO Workspace := do
  let found : IO.FS.DirEntry := ⟨string path, ""⟩
  let place := (Workspace.place path).path
  if <- found.path.isDir then return workspace.insert place .folder
  match <- readFile? path with
  | some text => return workspace.insert place (.file text)
  | none => return workspace

/-- What is at a path, and the folders through which it leads. -/
def loadFile (workspace : Workspace) (path : Text) : IO Workspace := do
  let names := Workspace.names path
  let paths := (List.range (names.length + 1)).map fun count =>
    Workspace.pathOf (Workspace.isAbsolute path) (names.take count).reverse
  (paths.filter (!·.isEmpty)).foldlM loadEntry workspace

/-- The folders and definition files below a folder, added to a workspace. -/
partial def loadFolder (workspace : Workspace) (folder : IO.FS.DirEntry) : IO Workspace := do
  let path := folder.path
  if <- path.isDir then
    (<- path.readDir).foldlM loadFolder (<- loadEntry workspace path.toString.toList)
  else if Workspace.isDefinition path.toString.toList then
    loadEntry workspace path.toString.toList
  else return workspace

def setVariable? (name : Text) : IO (Option (Text × Text)) := do
  return (<- IO.getEnv (string name)).map fun value => (name, value.toList)

def environmentOf (names : List Text) : IO Environment := do
  return .ofList ((<- names.mapM setVariable?).filterMap id)

/-- The variables that the connection of some settings refers to. -/
def variablesOf (settings : Settings) : List Text :=
  let connection := settings.connection
  [connection.dataverseUrl, connection.fabricEndpoint, connection.fabricLakehouse].flatMap
    fun text => (Expansion.segments text).filterMap fun segment =>
      match segment with
      | .variable name => some name
      | .character _ => none

/-- The files and variables that a command may need. -/
def load (command : Command) : IO (Workspace × Environment) := do
  let places <- environmentOf ["HOME", "XDG_CONFIG_HOME"]
  match command with
  | .filter arguments => return (<- loadFile .empty arguments.file, places)
  | .generate arguments =>
      let configs := arguments.config.toList ++ settingsFile :: (userSettingsFile? places).toList
      let known <- (arguments.input :: configs).foldlM loadFile .empty
      let tables := Workspace.inside arguments.out Path.tablesFolder
      let workspace <- loadFolder (<- loadFile known tables) ⟨string arguments.out, ""⟩
      match settingsOf ⟨places, fun _ => []⟩ workspace arguments.config with
      | .error _ => return (workspace, places)
      | .ok settings =>
          return (workspace, <- environmentOf ("HOME" :: "XDG_CONFIG_HOME" :: variablesOf settings))

/-- Writes the files that differ, and removes those that are no longer there. -/
def store (earlier fresh : Workspace) : IO Unit := do
  for path in earlier.keys do
    unless fresh.contains path do IO.FS.removeFile (string path)
  for (path, entry) in fresh.entries do
    unless earlier.get? path == some entry do
      match entry with
      | .folder => IO.FS.createDirAll (string path)
      | .file text => IO.FS.writeFile (string path) (string text)

end CommandLine

end TabularModel

open TabularModel CommandLine in
def main (arguments : List String) : IO UInt32 := do
  let texts := arguments.map String.toList
  let (workspace, environment) <-
    match Command.ofArguments? texts with
    | some command => load command
    | none => pure (.empty, .empty)
  let bytes <- IO.getRandomBytes 16
  let seed := bytes.toList.flatMap fun byte => Decimal.natural byte.toNat ++ ['.']
  let outcome := run ⟨environment, Generation.seeded seed⟩ workspace texts
  store workspace outcome.workspace
  IO.print (string (Outcome.textOf outcome.output))
  IO.eprint (string (Outcome.textOf outcome.errors))
  return outcome.exitCode.toUInt32
