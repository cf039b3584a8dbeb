import TabularModel.Generation.Basic
import TabularModel.Interchange.Catalog

/-!
# Options in interchange form

Every option may be absent. Corrections that are given stand instead of the
standard ones.
-/

set_option autoImplicit false

namespace TabularModel

namespace Generation

def Options.ofJson? (json : Json) : Option Options := do
  let fields <- json.fields?
    ["connection_type", "storage_mode", "dataverse_url", "fabric_sql_endpoint",
      "fabric_lakehouse", "culture", "corrections", "validate_sql", "utc_offset_hours"]
  let standard := Options.standard
  return {
    connection :=
      { type := <- fields.defaulted? "connection_type" .dataverse Catalog.ConnectionType.ofJson?
        dataverseUrl := <- fields.defaulted? "dataverse_url" [] Json.string?
        fabricEndpoint := <- fields.defaulted? "fabric_sql_endpoint" [] Json.string?
        fabricLakehouse := <- fields.defaulted? "fabric_lakehouse" [] Json.string? }
    mode := <- fields.defaulted? "storage_mode" standard.mode Catalog.StorageMode.ofJson?
    culture := <- fields.defaulted? "culture" standard.culture Json.string?
    corrections :=
      <- fields.defaulted? "corrections" standard.corrections (Catalog.mapOfJson? Json.string?)
    checksQueries := <- fields.defaulted? "validate_sql" standard.checksQueries Json.bool?
    offsetHours := <- fields.optional? "utc_offset_hours" Json.double? }

end Generation

end TabularModel
