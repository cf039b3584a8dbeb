import TabularModel.Json.Basic
import TabularModel.Interchange.Catalog
import TabularModel.Settings.Basic

/-!
# Settings in interchange form

Offsets are written as texts.
-/

set_option autoImplicit false

namespace TabularModel

def hoursToJson (hours : Option Float) : Json :=
  .ofOption (fun x => .string (Decimal.double x)) hours

def Generation.Options.toJson (options : Generation.Options) : Json :=
  .ofFields
    [ ("connection_type", .string options.connection.type.settingName),
      ("storage_mode", .string options.mode.name),
      ("dataverse_url", .string options.connection.dataverseUrl),
      ("fabric_sql_endpoint", .string options.connection.fabricEndpoint),
      ("fabric_lakehouse", .string options.connection.fabricLakehouse),
      ("culture", .string options.culture),
      ("corrections", .ofMap .string options.corrections),
      ("validate_sql", .bool options.checksQueries),
      ("utc_offset_hours", hoursToJson options.offsetHours) ]

def Change.Settings.toJson (settings : Change.Settings) : Json :=
  .ofFields
    [ ("storage_mode", .string settings.mode.settingName),
      ("fact_table", .ofOption .string settings.factTable),
      ("include_unchanged", .bool settings.includeUnchanged) ]

namespace Settings

def modelJson (settings : Settings) : Json :=
  .ofFields
    [ ("name", .string settings.modelName), ("culture", .string settings.culture),
      ("fact_table", .ofOption .string settings.factTable),
      ("storage_mode", .string settings.mode.name),
      ("utc_offset_hours", hoursToJson settings.offsetHours) ]

def connectionJson (connection : Catalog.Connection) : Json :=
  .ofFields
    [ ("type", .string connection.type.settingName),
      ("dataverse_url", .string connection.dataverseUrl),
      ("fabric_endpoint", .string connection.fabricEndpoint),
      ("fabric_lakehouse", .string connection.fabricLakehouse) ]

def generationJson (settings : Settings) : Json :=
  .ofFields
    [ ("validate_sql", .bool settings.checksQueries),
      ("include_unchanged", .bool settings.includeUnchanged),
      ("corrections", .ofMap .string settings.corrections) ]

/-- The sections of settings. -/
def members (settings : Settings) : List (String × Json) :=
  [ ("model", settings.modelJson), ("connection", connectionJson settings.connection),
    ("date", .ofOption Catalog.Calendar.toJson settings.calendar),
    ("generation", settings.generationJson) ]

end Settings

end TabularModel
