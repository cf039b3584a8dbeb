import TabularModel.Change.Comparison
import TabularModel.Settings.Expansion
import TabularModel.Toml.Reader
import TabularModel.Toml.Record

/-!
# Settings

What is set for all runs: the model, the connection, the calendar and the
generation. Every setting has a default, apart from the calendar, which is
either given or absent. The values of the connection may refer to variables.
-/

set_option autoImplicit false

namespace TabularModel

open Catalog (Calendar CalendarFault Connection ConnectionType StorageMode)

structure Settings where
  modelName : Text
  culture : Text
  factTable : Option Text
  mode : StorageMode
  offsetHours : Option Float
  /-- The connection with variables that are not expanded yet. -/
  connection : Connection
  calendar : Option Calendar
  checksQueries : Bool
  includeUnchanged : Bool
  /-- Corrections in addition to the standard ones. -/
  corrections : SortedMap Text
deriving Repr

namespace Settings

def standard : Settings where
  modelName := "Semantic Model"
  culture := "en-US"
  factTable := none
  mode := .directQuery
  offsetHours := none
  connection := ⟨.dataverse, [], [], []⟩
  calendar := none
  checksQueries := true
  includeUnchanged := false
  corrections := .empty

inductive Invalid where
  | calendar (fault : CalendarFault)
  | offset (hours : Float)
deriving Repr

def Invalid.message : Invalid -> Text
  | .calendar fault => fault.message
  | .offset hours =>
      "model.utc_offset_hours " ++ Decimal.double hours ++ " is outside -14..=14"

inductive Fault where
  | fileNotFound (path : Text)
  | unreadableFile (reason : Text)
  | unparsable
  | unsetVariable (name : Text)
  | invalid (cause : Invalid)
deriving Repr

def Fault.message : Fault -> Text
  | .fileNotFound path => "Config file not found: " ++ path
  | .unreadableFile reason => "Failed to read config file: " ++ reason
  | .unparsable => "Failed to parse config file: unreadable settings"
  | .unsetVariable name => "Missing environment variable: " ++ name
  | .invalid cause => "Invalid configuration: " ++ cause.message

/-! ## Reading -/

def modeOf? (value : Toml) : Option StorageMode :=
  value.constructorName?.bind StorageMode.ofSettingName?

def connectionTypeOf? (value : Toml) : Option ConnectionType :=
  value.constructorName?.bind ConnectionType.ofSettingName?

def calendarOf? (value : Toml) : Option Calendar := do
  let fields <- value.fields? ["start_year", "end_year", "utc_offset_hours", "table", "field"]
  return {
    firstYear := <- fields.required? "start_year" Toml.int32?
    lastYear := <- fields.required? "end_year" Toml.int32?
    offsetHours := <- fields.defaulted? "utc_offset_hours" 0 Toml.double?
    table := <- fields.required? "table" Toml.text?
    field := <- fields.required? "field" Toml.text? }

def withModel? (settings : Settings) (value : Toml) : Option Settings := do
  let fields <- value.fields? ["name", "culture", "fact_table", "storage_mode", "utc_offset_hours"]
  return {
    settings with
    modelName := <- fields.defaulted? "name" settings.modelName Toml.text?
    culture := <- fields.defaulted? "culture" settings.culture Toml.text?
    factTable := <- fields.optional? "fact_table" Toml.text?
    mode := <- fields.defaulted? "storage_mode" settings.mode modeOf?
    offsetHours := <- fields.optional? "utc_offset_hours" Toml.double? }

def connectionOf? (value : Toml) : Option Connection := do
  let fields <- value.fields? ["type", "dataverse_url", "fabric_endpoint", "fabric_lakehouse"]
  return {
    type := <- fields.defaulted? "type" .dataverse connectionTypeOf?
    dataverseUrl := <- fields.defaulted? "dataverse_url" [] Toml.text?
    fabricEndpoint := <- fields.defaulted? "fabric_endpoint" [] Toml.text?
    fabricLakehouse := <- fields.defaulted? "fabric_lakehouse" [] Toml.text? }

def withGeneration? (settings : Settings) (value : Toml) : Option Settings := do
  let fields <- value.fields? ["validate_sql", "include_unchanged", "corrections"]
  return {
    settings with
    checksQueries := <- fields.defaulted? "validate_sql" settings.checksQueries Toml.bool?
    includeUnchanged :=
      <- fields.defaulted? "include_unchanged" settings.includeUnchanged Toml.bool?
    corrections := <- fields.defaulted? "corrections" settings.corrections Toml.texts? }

def ofToml? (value : Toml) : Option Settings := do
  let fields <- value.fields? ["model", "connection", "date", "generation"]
  let named <- fields.defaulted? "model" standard (withModel? standard)
  let connected : Settings :=
    { named with
      connection := <- fields.defaulted? "connection" named.connection connectionOf? }
  let dated : Settings := { connected with calendar := <- fields.optional? "date" calendarOf? }
  fields.defaulted? "generation" dated (withGeneration? dated)

/-- Why settings that can be read are refused. -/
def invalid? (settings : Settings) : Option Invalid :=
  match settings.calendar.bind Calendar.fault? with
  | some fault => some (.calendar fault)
  | none =>
      match settings.offsetHours with
      | some hours => if Catalog.isValidOffset hours then none else some (.offset hours)
      | none => none

def ofText (text : Text) : Except Fault Settings :=
  match (Toml.ofText? text).bind ofToml? with
  | none => .error .unparsable
  | some settings =>
      match settings.invalid? with
      | some cause => .error (.invalid cause)
      | none => .ok settings

/-! ## What follows from settings -/

def expandValue (environment : Environment) (text : Text) : Except Fault Text :=
  (expand environment text).mapError .unsetVariable

/-- The options of a generation, with all variables expanded. -/
def options (settings : Settings) (environment : Environment) :
    Except Fault Generation.Options := do
  let url <- expandValue environment settings.connection.dataverseUrl
  let endpoint <- expandValue environment settings.connection.fabricEndpoint
  let lakehouse <- expandValue environment settings.connection.fabricLakehouse
  return {
    connection := ⟨settings.connection.type, url, endpoint, lakehouse⟩
    mode := settings.mode
    culture := settings.culture
    corrections := Corrections.standard.extend settings.corrections
    checksQueries := settings.checksQueries
    offsetHours := settings.offsetHours }

def comparison (settings : Settings) : Change.Settings :=
  ⟨settings.mode, settings.factTable, settings.includeUnchanged⟩

end Settings

end TabularModel
