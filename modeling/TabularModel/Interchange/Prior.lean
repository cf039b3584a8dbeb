import TabularModel.Json.Basic
import TabularModel.Prior.Basic

/-!
# Earlier models in interchange form
-/

set_option autoImplicit false

namespace TabularModel

namespace Prior

def Annotation.toJson (found : Annotation) : Json :=
  .ofFields [("name", .string found.name), ("value", .string found.value)]

def Column.toJson (column : Column) : Json :=
  .ofFields
    [ ("name", .string column.name), ("source_column", .string column.source),
      ("data_type", .ofOption .string column.dataType),
      ("format_string", .ofOption .string column.formatString),
      ("summarize_by", .ofOption .string column.summarizeBy),
      ("is_hidden", .bool column.isHidden), ("is_key", .bool column.isKey),
      ("annotations", .array (column.annotations.map Annotation.toJson)) ]

def Measure.toJson (measure : Measure) : Json :=
  .ofFields
    [ ("name", .string measure.name), ("expression", .string measure.expression),
      ("auto_generated", .bool measure.isGenerated), ("block", .string measure.block.render) ]

def Partition.toJson (partition : Partition) : Json :=
  .ofFields
    [ ("name", .string partition.name), ("kind", .string partition.kind),
      ("mode", .ofOption .string partition.mode), ("source", .string partition.source) ]

/-- The tags of a table and its members, under keys that tell the kinds apart. -/
def Table.tags (table : Table) : SortedMap Text :=
  .ofList
    ((table.tag.map fun tag => (("table" : Text), tag)).toList ++
      table.columnTags.entries.map (fun (source, tag) => ("col:" ++ source, tag)) ++
      table.measureTags.entries.map fun (name, tag) => ("measure:" ++ name, tag))

def Table.toJson (model : Model) (table : Table) : Json :=
  .ofFields
    [ ("key", .string table.key), ("name", .string table.name),
      ("generated", .bool table.isGenerated), ("lineage_tags", .ofMap .string table.tags),
      ("columns", .ofMap Column.toJson table.columns),
      ("measures", .array (table.measures.map Measure.toJson)),
      ("partition", .ofOption Partition.toJson table.partition),
      ("key_columns", .ofNat table.keyColumnCount),
      ("user_measures", .strings (table.userMeasures.map (·.name))),
      ("found_by_name", .ofOption .string ((model.tableNamed? table.name).map (·.key))) ]

def keyToJson (key : RelationshipKey) : Json :=
  .ofFields [("from", .string key.source), ("to", .string key.target)]

def Relationship.toJson (relationship : Relationship) : Json :=
  .ofFields
    [ ("name", .string relationship.name), ("key", keyToJson relationship.key),
      ("is_active", .bool relationship.isActive), ("generated", .bool relationship.isGenerated),
      ("position", .ofNat relationship.position), ("block", .string relationship.block.render) ]

def Model.expressionTagMap (model : Model) : SortedMap Text :=
  .ofList (model.expressionTags.entries.map fun (name, tag) => ("expr:" ++ name, tag))

/-- Relationships are listed by their keys, and those that people have added
also by name. -/
def Model.toJson (model : Model) : Json :=
  .ofFields
    [ ("empty", .bool model.isEmpty), ("tables", .ofMap (Table.toJson model) model.tables),
      ("expression_tags", .ofMap .string model.expressionTagMap),
      ("relationships", .array (model.relationshipsByKey.map Relationship.toJson)),
      ("user_relationships", .strings ((model.userRelationships []).map (·.name))),
      ("warnings", .strings (model.warnings.map Warning.message)) ]

end Prior

end TabularModel
