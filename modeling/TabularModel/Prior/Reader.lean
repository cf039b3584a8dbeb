import TabularModel.Definition.Path
import TabularModel.Prior.Basic

/-!
# Reading earlier definitions

Recovers a model from the files of a definition set. Reading never fails: what
cannot be recognised is reported and not kept. Of two tables or relationships
with one key the later one counts.
-/

set_option autoImplicit false

namespace TabularModel

namespace Prior

/-- The name and value of a line of the form `annotation name = value`. -/
def annotationOf? (block : Block) : Option (Text × Text) :=
  match Text.dropStart? "annotation" block.text with
  | some (c :: rest) =>
      let inName := fun c => !isBlank c && c != '='
      let trimmed := Text.trimLeft (c :: rest)
      let name := trimmed.takeWhile inName
      if !isBlank c || name.isEmpty then none
      else
        match Text.trimLeft (trimmed.dropWhile inName) with
        | '=' :: value => some (name, Text.trim value)
        | _ => none
  | _ => none

/-- The value of a line of the form `lineageTag: value`, which is one word. -/
def tagOf? (block : Block) : Option Text :=
  match block.valueOf? "lineageTag" with
  | some value => if value.isEmpty || value.any isBlank then none else some value
  | none => none

def lineageTag? (block : Block) : Option Text :=
  block.children.findSome? tagOf?

def annotationsOf (block : Block) : List Annotation :=
  (block.childrenWith "annotation").filterMap fun child =>
    (annotationOf? child).map fun (name, value) => ⟨name, value, child⟩

def logicalName? (block : Block) : Option Text :=
  ((annotationsOf block).find? (·.name == Convention.logicalName)).map (·.value)

/-- The name in the header of a block, and what follows it there. -/
def nameAndRest? (keyword : Text) (block : Block) : Option (Text × Text) :=
  (block.header? keyword).map Name.split

def name? (keyword : Text) (block : Block) : Option Text :=
  (nameAndRest? keyword block).map (·.1)

/-- What stands behind an equals sign, or the whole text if there is none. -/
def afterEquals (text : Text) : Text :=
  match Text.trimLeft text with
  | '=' :: rest => Text.trim rest
  | _ => Text.trim text

/-- A table is known by its logical name, or by its name if it has none. -/
def tableKey? (block : Block) : Option Text :=
  (name? "table" block).map fun name => (logicalName? block).getD name

/-- A column is known by its source column, or by its name if it has none. -/
def columnSource? (block : Block) : Option Text :=
  (name? "column" block).map fun name => (block.property? "sourceColumn").getD name

def relationshipKey? (block : Block) : Option RelationshipKey := do
  return ⟨<- block.property? "fromColumn", <- block.property? "toColumn"⟩

def readColumn? (block : Block) : Option Column := do
  let name <- name? "column" block
  let source <- columnSource? block
  return {
    name := name
    source := source
    dataType := block.property? "dataType"
    formatString := block.property? "formatString"
    summarizeBy := block.property? "summarizeBy"
    isHidden := block.hasFlag "isHidden"
    isKey := block.hasFlag "isKey"
    annotations := annotationsOf block }

def readMeasure? (table : Text) (block : Block) : Option Measure :=
  (nameAndRest? "measure" block).map fun (name, rest) =>
    { name := name
      expression := afterEquals rest
      isGenerated := name == Convention.countMeasure table
      block := block }

def readPartition? (block : Block) : Option Partition :=
  (nameAndRest? "partition" block).map fun (name, rest) =>
    let source := block.children.find? fun child => "source".toList.isPrefixOf child.text
    { name := name
      kind := afterEquals rest
      mode := block.property? "mode"
      source := (source.map Block.render).getD [] }

/-- The tags of the children with a keyword, each under a key of its own. -/
def childTags (block : Block) (keyword : Text) (key : Block -> Option Text) : SortedMap Text :=
  .ofList <| (block.childrenWith keyword).filterMap fun child => do
    return (<- key child, <- lineageTag? child)

def readTable? (block : Block) : Option Table := do
  let name <- name? "table" block
  let key <- tableKey? block
  let columns := (block.childrenWith "column").filterMap readColumn?
  return {
    key := key
    name := name
    isGenerated := (logicalName? block).isSome
    tag := lineageTag? block
    columnTags := childTags block "column" columnSource?
    measureTags := childTags block "measure" (name? "measure")
    columns := .ofList (columns.map fun column => (column.source, column))
    measures := (block.childrenWith "measure").filterMap (readMeasure? name)
    partition := (block.childrenWith "partition").head?.bind readPartition? }

def readRelationship (position : Nat) (block : Block) : Except Text Relationship :=
  let name := (block.header? "relationship").getD []
  match relationshipKey? block with
  | none => .error name
  | some key =>
      .ok {
        name := name
        key := key
        isActive := block.property? "isActive" != some "false"
        isGenerated := (annotationsOf block).any fun found =>
          found.name == Convention.generated && found.value == ("true" : Text)
        position := position
        block := block }

namespace Model

def warn (model : Model) (path : Text) (problem : Problem) : Model :=
  { model with warnings := model.warnings ++ [⟨path, problem⟩] }

def addTable (path : Text) (model : Model) (table : Table) : Model :=
  let added := { model with tables := model.tables.insert table.key table }
  if model.tables.contains table.key then added.warn path (.repeatedTable table.key) else added

def addTables (path : Text) (document : Document) (model : Model) : Model :=
  let blocks := document.blocksWith "table"
  if blocks.isEmpty then model.warn path .noTable
  else (blocks.filterMap readTable?).foldl (addTable path) model

def addRelationship (path : Text) (model : Model) (read : Except Text Relationship) : Model :=
  match read with
  | .error name => model.warn path (.relationshipWithoutEnds name)
  | .ok relationship =>
      let others := model.relationships.filter (·.key != relationship.key)
      let added := { model with relationships := others ++ [relationship] }
      if (model.relationship? relationship.key).isSome then
        added.warn path (.repeatedRelationship relationship.key)
      else added

def addRelationships (path : Text) (document : Document) (model : Model) : Model :=
  let blocks := document.blocksWith "relationship"
  (blocks.mapIdx readRelationship).foldl (addRelationship path) model

def addExpressions (document : Document) (model : Model) : Model :=
  let tags := (document.blocksWith "expression").filterMap fun block => do
    return (<- name? "expression" block, <- lineageTag? block)
  { model with
    expressionTags :=
      tags.foldl (fun known tag => known.insert tag.1 tag.2) model.expressionTags }

def addFile (model : Model) (path text : Text) : Model :=
  if Path.isInTablesFolder path then model.addTables path (.ofText text)
  else if path = Path.relationships then model.addRelationships path (.ofText text)
  else if path = Path.expressions then model.addExpressions (.ofText text)
  else model

/-- The model that the files of a set describe, taken in the order of their
paths. -/
def ofDefinitions (definitions : DefinitionSet) : Model :=
  definitions.entries.foldl (fun model file => model.addFile file.1 file.2) empty

end Model

end Prior

/-- Whether a file is written by this library, and so may be replaced. A file in
the tables folder has to hold a table with a logical name; the other written
files have fixed paths. -/
def isOwnDefinition (path text : Text) : Bool :=
  if path = Path.database ∨ path = Path.model ∨ path = Path.expressions ∨
      path = Path.relationships then true
  else
    Path.isInTablesFolder path &&
      ((Document.ofText text).blocksWith "table").any fun block =>
        (Prior.logicalName? block).isSome

end TabularModel
