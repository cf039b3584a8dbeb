import TabularModel.Catalog.Selection
import TabularModel.Catalog.Source
import TabularModel.Json.Record

/-!
# Catalog data in interchange form
-/

set_option autoImplicit false

namespace TabularModel

namespace Catalog

def AttributeType.ofJson? (json : Json) : Option AttributeType :=
  json.constructorName?.map .ofName

def StorageMode.ofJson? (json : Json) : Option StorageMode :=
  json.constructorName?.bind StorageMode.ofSettingName?

def ConnectionType.ofJson? (json : Json) : Option ConnectionType :=
  json.constructorName?.bind ConnectionType.ofSettingName?

def Attribute.ofJson? (json : Json) : Option Attribute := do
  let fields <- json.fields?
    ["logical_name", "display_name", "attribute_type", "targets", "schema_name"]
  return {
    logicalName := <- fields.required? "logical_name" Json.string?
    displayName := <- fields.optional? "display_name" Json.string?
    type := <- fields.required? "attribute_type" AttributeType.ofJson?
    targets := <- fields.defaulted? "targets" [] (Json.list? Json.string?)
    schemaName := <- fields.optional? "schema_name" Json.string? }

def ColumnSetting.ofJson? (json : Json) : Option ColumnSetting := do
  let fields <- json.fields? ["include", "hidden"]
  return {
    included := <- fields.optional? "include" Json.bool?
    hidden := <- fields.optional? "hidden" Json.bool? }

def LookupSettings.ofJson? (json : Json) : Option LookupSettings := do
  let fields <- json.fields? ["id", "name", "type", "yomi"]
  return {
    id := <- fields.defaulted? "id" .unset ColumnSetting.ofJson?
    name := <- fields.defaulted? "name" .unset ColumnSetting.ofJson?
    kind := <- fields.defaulted? "type" .unset ColumnSetting.ofJson?
    phonetic := <- fields.defaulted? "yomi" .unset ColumnSetting.ofJson? }

def Role.name : Role -> Text
  | .fact => "Fact"
  | .dimension => "Dimension"

def Role.ofJson? (json : Json) : Option Role :=
  json.constructorName?.bind fun name => [Role.fact, Role.dimension].find? (·.name == name)

/-- A map from texts. -/
def mapOfJson? {α : Type} (decode : Json -> Option α) (json : Json) : Option (SortedMap α) :=
  (json.map? decode).map .ofList

def Table.ofJson? (json : Json) : Option Table := do
  let fields <- json.fields?
    ["logical_name", "display_name", "primary_key", "primary_name_attribute", "role",
      "attributes", "filter_xml", "lookup_configs", "display_name_overrides"]
  return {
    logicalName := <- fields.required? "logical_name" Json.string?
    displayName := <- fields.optional? "display_name" Json.string?
    primaryKey := <- fields.required? "primary_key" Json.string?
    primaryName := <- fields.optional? "primary_name_attribute" Json.string?
    role := <- fields.defaulted? "role" .dimension Role.ofJson?
    attributes := <- fields.defaulted? "attributes" [] (Json.list? Attribute.ofJson?)
    filter := <- fields.optional? "filter_xml" Json.string?
    lookups := <- fields.defaulted? "lookup_configs" .empty (mapOfJson? LookupSettings.ofJson?)
    overrides := <- fields.defaulted? "display_name_overrides" .empty (mapOfJson? Json.string?) }

def Edge.ofJson? (json : Json) : Option Edge := do
  let fields <- json.fields?
    ["source_table", "source_attribute", "target_table", "active", "snowflake",
      "assume_referential_integrity"]
  return {
    sourceTable := <- fields.required? "source_table" Json.string?
    sourceAttribute := <- fields.required? "source_attribute" Json.string?
    targetTable := <- fields.required? "target_table" Json.string?
    isActive := <- fields.defaulted? "active" true Json.bool?
    isSnowflake := <- fields.defaulted? "snowflake" false Json.bool?
    assumesIntegrity := <- fields.defaulted? "assume_referential_integrity" false Json.bool? }

/-- A year is an integer of 32 bits. -/
def yearOfJson? (json : Json) : Option Int :=
  json.int?.filter Decimal.fits32

def Calendar.ofJson? (json : Json) : Option Calendar := do
  let fields <- json.fields? ["start_year", "end_year", "utc_offset_hours", "table", "field"]
  return {
    firstYear := <- fields.required? "start_year" yearOfJson?
    lastYear := <- fields.required? "end_year" yearOfJson?
    offsetHours := <- fields.defaulted? "utc_offset_hours" 0 Json.double?
    table := <- fields.required? "table" Json.string?
    field := <- fields.required? "field" Json.string? }

def Selection.ofJson? (json : Json) : Option Selection := do
  let fields <- json.fields? ["model_name", "tables", "relationships", "date"]
  return {
    modelName := <- fields.required? "model_name" Json.string?
    tables := <- fields.required? "tables" (Json.list? Table.ofJson?)
    edges := <- fields.defaulted? "relationships" [] (Json.list? Edge.ofJson?)
    calendar := <- fields.optional? "date" Calendar.ofJson? }

def ColumnSetting.toJson (setting : ColumnSetting) : Json :=
  .ofFields
    [("include", .ofOption .bool setting.included), ("hidden", .ofOption .bool setting.hidden)]

def LookupSettings.toJson (settings : LookupSettings) : Json :=
  .ofFields
    [ ("id", settings.id.toJson), ("name", settings.name.toJson),
      ("type", settings.kind.toJson), ("yomi", settings.phonetic.toJson) ]

def Attribute.toJson (attr : Attribute) : Json :=
  .ofFields
    [ ("logical_name", .string attr.logicalName),
      ("display_name", .ofOption .string attr.displayName),
      ("attribute_type", .string attr.type.name), ("targets", .strings attr.targets),
      ("schema_name", .ofOption .string attr.schemaName) ]

def Table.toJson (table : Table) : Json :=
  .ofFields
    [ ("logical_name", .string table.logicalName),
      ("display_name", .ofOption .string table.displayName),
      ("primary_key", .string table.primaryKey),
      ("primary_name_attribute", .ofOption .string table.primaryName),
      ("role", .string table.role.name),
      ("attributes", .array (table.attributes.map Attribute.toJson)),
      ("filter_xml", .ofOption .string table.filter),
      ("lookup_configs", .ofMap LookupSettings.toJson table.lookups),
      ("display_name_overrides", .ofMap .string table.overrides) ]

def Edge.toJson (edge : Edge) : Json :=
  .ofFields
    [ ("source_table", .string edge.sourceTable),
      ("source_attribute", .string edge.sourceAttribute),
      ("target_table", .string edge.targetTable), ("active", .bool edge.isActive),
      ("snowflake", .bool edge.isSnowflake),
      ("assume_referential_integrity", .bool edge.assumesIntegrity) ]

/-- The offset is written as a text. -/
def Calendar.toJson (calendar : Calendar) : Json :=
  .ofFields
    [ ("start_year", .ofInt calendar.firstYear), ("end_year", .ofInt calendar.lastYear),
      ("utc_offset_hours", .string (Decimal.double calendar.offsetHours)),
      ("table", .string calendar.table), ("field", .string calendar.field) ]

end Catalog

end TabularModel
