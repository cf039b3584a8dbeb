import TabularModel.CommandLine.Arguments
import TabularModel.CommandLine.Workspace
import TabularModel.Interchange.Catalog
import TabularModel.Json.Reader
import TabularModel.Regeneration
import TabularModel.Settings.Basic

/-!
# Running a command

A command is a function on the files of a workspace. One command generates a
definition set in a folder, which it changes only if nothing would be lost or if
that is allowed. The other shows the row filter of a view.
-/

set_option autoImplicit false

namespace TabularModel

namespace CommandLine

open Catalog (Selection)

/-- What a run leaves behind: the files, what it says and its exit code. -/
structure Outcome where
  workspace : Workspace
  exitCode : Nat
  output : List Text
  errors : List Text
deriving Repr

namespace Outcome

/-- The text that is printed, where every line is ended. -/
def textOf (lines : List Text) : Text :=
  lines.flatMap (· ++ ['\n'])

def failed (workspace : Workspace) (output : List Text) (error : Text) : Outcome :=
  ⟨workspace, 1, output, [error]⟩

end Outcome

/-- What a run depends on besides its arguments and the files. -/
structure Surroundings where
  environment : Environment
  supply : Generation.Supply

inductive Failure where
  | settings (fault : Settings.Fault)
  | input (path : Text) (fault : FileFault)
  | notSelection (path : Text)
  | generation (fault : Generation.Fault)
  | output (path : Text) (fault : FileFault)
  | destructive
deriving Repr

def Failure.message : Failure -> Text
  | .settings fault => "Configuration error: " ++ fault.message
  | .input path fault => "Error reading file '" ++ path ++ "': " ++ fault.message
  | .notSelection path => "Invalid model input '" ++ path ++ "': not a selection of tables"
  | .generation fault => "Generation error: " ++ fault.message
  | .output path fault => "Error writing '" ++ path ++ "': " ++ fault.message
  | .destructive => "Destructive changes detected; re-run with --force to apply"

/-! ## Settings of a run -/

def settingsFile : Text := "semforge.toml"

/-- The file of the settings of a user, which are used where the workspace has
none. -/
def userSettingsFile? (environment : Environment) : Option Text :=
  let inHome : Option Text :=
    ((environment.value? "HOME").filter (· ≠ [])).map fun home => home ++ "/.config"
  let folder := (environment.value? "XDG_CONFIG_HOME").filter Workspace.isAbsolute <|> inHome
  folder.map fun folder => folder ++ "/semforge/" ++ settingsFile

def readSettings (workspace : Workspace) (path : Text) : Except Failure Settings :=
  match workspace.read path with
  | .ok text => (Settings.ofText text).mapError .settings
  | .error .isFolder => .error (.settings (.unreadableFile FileFault.isFolder.message))
  | .error _ => .error (.settings (.fileNotFound path))

/-- The first of these files that is there, or the standard settings. -/
def discoverSettings (workspace : Workspace) : List Text -> Except Failure Settings
  | [] => .ok .standard
  | path :: paths =>
      if workspace.has path then readSettings workspace path
      else discoverSettings workspace paths

def settingsOf (surroundings : Surroundings) (workspace : Workspace) (config : Option Text) :
    Except Failure Settings :=
  match config with
  | some path => readSettings workspace path
  | none =>
      discoverSettings workspace
        (settingsFile :: (userSettingsFile? surroundings.environment).toList)

/-! ## Generation -/

def readSelection (workspace : Workspace) (path : Text) : Except Failure Selection :=
  match workspace.read path with
  | .error fault => .error (.input path fault)
  | .ok text =>
      match (Json.ofText? text).bind Selection.ofJson? with
      | some selection => .ok selection
      | none => .error (.notSelection path)

/-- The calendar of the settings serves a selection that has none. -/
def withCalendar (settings : Settings) (selection : Selection) : Selection :=
  { selection with calendar := selection.calendar <|> settings.calendar }

/-- The earlier definitions in a folder, if there are any. -/
def earlierDefinitions (workspace : Workspace) (folder : Text) : Option DefinitionSet :=
  let found := workspace.definitions folder
  if found.isEmpty then none else some found

def changeLines (changes : List Change) : List Text :=
  if changes.isEmpty then ["No changes."]
  else "Changes:" :: changes.map fun change => "  " ++ change.render

/-- The new definitions, before anything is written. -/
def regenerated (surroundings : Surroundings) (workspace : Workspace)
    (arguments : GenerateArguments) : Except Failure Regeneration := do
  let settings <- settingsOf surroundings workspace arguments.config
  let options <- (settings.options surroundings.environment).mapError .settings
  let selection <- readSelection workspace arguments.input
  (regenerate options settings.comparison surroundings.supply (withCalendar settings selection)
    (earlierDefinitions workspace arguments.out)).mapError .generation

/-- Whether new definitions are held back. -/
def isHeldBack (arguments : GenerateArguments) (result : Regeneration) : Bool :=
  result.isDestructive && !arguments.force

def stored (workspace : Workspace) (arguments : GenerateArguments) (result : Regeneration) :
    Workspace.Attempt :=
  workspace.store arguments.out isOwnDefinition
    ((earlierDefinitions workspace arguments.out).getD .empty) result.definitions

def runGenerate (surroundings : Surroundings) (workspace : Workspace)
    (arguments : GenerateArguments) : Outcome :=
  match regenerated surroundings workspace arguments with
  | .error failure => .failed workspace [] failure.message
  | .ok result =>
      let changes := changeLines result.changes
      if arguments.dryRun then ⟨workspace, 0, changes, []⟩
      else if isHeldBack arguments result then
        .failed workspace changes Failure.destructive.message
      else
        match stored workspace arguments result with
        | ⟨changed, some fault⟩ =>
            .failed changed changes (Failure.output arguments.out fault).message
        | ⟨changed, none⟩ =>
            let summary := "Wrote " ++ Decimal.natural result.definitions.size ++ " files to " ++
              arguments.out
            ⟨changed, 0, changes ++ [summary], []⟩

/-! ## Filters -/

def unsupportedLines (filter : Filter.RowFilter) : List Text :=
  if filter.isFullySupported then []
  else "Partially supported:" :: filter.unsupported.map fun feature => "  - " ++ feature

def runFilter (workspace : Workspace) (arguments : FilterArguments) : Outcome :=
  match workspace.read arguments.file with
  | .error fault => .failed workspace [] (Failure.input arguments.file fault).message
  | .ok document =>
      let settings : Filter.Settings := ⟨.ofHours arguments.offsetHours, arguments.environment⟩
      let filter := Filter.RowFilter.ofDocument settings arguments.tableAlias document
      ⟨workspace, 0, [filter.clause], unsupportedLines filter⟩

def Command.run (surroundings : Surroundings) (workspace : Workspace) : Command -> Outcome
  | .generate arguments => runGenerate surroundings workspace arguments
  | .filter arguments => runFilter workspace arguments

def usageLines : List Text :=
  [ "Usage: semforge generate --input <model.json> --out <folder> [--config <file>]",
    "         [--dry-run] [--force]",
    "       semforge filter <view.xml> [--utc-offset <hours>] [--alias <alias>]",
    "         [--fabric-link] [--import-mode]" ]

/-- Runs the command that some arguments ask for. -/
def run (surroundings : Surroundings) (workspace : Workspace) (arguments : List Text) : Outcome :=
  match Command.ofArguments? arguments with
  | some command => command.run surroundings workspace
  | none => ⟨workspace, 2, [], usageLines⟩

end CommandLine

end TabularModel
