import TabularModel.Filter.Basic
import TabularModel.Json.Basic

/-!
# Views in interchange form
-/

set_option autoImplicit false

namespace TabularModel

namespace Filter

def connectiveName : Connective -> Text
  | .and => "and"
  | .or => "or"

/-- A kind of link that is not known is marked as such. -/
def LinkKind.toJson : LinkKind -> Json
  | .inner => .string "inner"
  | .outer => .string "outer"
  | .any => .string "any"
  | .notAny => .string "not any"
  | .other name => .ofFields [("other", .string name)]

def Condition.toJson (condition : Condition) : Json :=
  .ofFields
    [ ("attribute", .string condition.column), ("operator", .string condition.operator.name),
      ("recognized", .bool condition.operator.isRecognized),
      ("value", .ofOption .string condition.value), ("values", .strings condition.values),
      ("entity_name", .ofOption .string condition.joinAlias) ]

mutual

def Item.toJson : Item -> Json
  | .condition condition => .ofFields [("condition", condition.toJson)]
  | .group group => .ofFields [("group", group.toJson)]
  | .link link => .ofFields [("link", link.toJson)]

def Group.toJson : Group -> Json
  | ⟨connective, items⟩ =>
      .ofFields
        [("logic", .string (connectiveName connective)), ("items", .array (itemsJson items))]

def Link.toJson : Link -> Json
  | ⟨table, column, outerColumn, tableAlias, kind, filters, links⟩ =>
      .ofFields
        [ ("name", .string table), ("from", .string column), ("to", .string outerColumn),
          ("alias", .ofOption .string tableAlias), ("link_type", kind.toJson),
          ("filters", .array (groupsJson filters)), ("links", .array (linksJson links)) ]

def itemsJson : List Item -> List Json
  | [] => []
  | item :: items => item.toJson :: itemsJson items

def groupsJson : List Group -> List Json
  | [] => []
  | group :: groups => group.toJson :: groupsJson groups

def linksJson : List Link -> List Json
  | [] => []
  | link :: links => link.toJson :: linksJson links

end

def Query.toJson (query : Query) : Json :=
  .ofFields
    [ ("entity", .string query.entity), ("filters", .array (groupsJson query.filters)),
      ("links", .array (linksJson query.links)) ]

end Filter

end TabularModel
