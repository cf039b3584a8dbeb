import TabularModel.Prior.Reader

/-!
# Fresh definitions with earlier identity

Fresh definitions decide everything they state. From an earlier model they take
over lineage tags, the names of relationships and the formatting of columns, and
they receive the measures and relationships that people have added.
-/

set_option autoImplicit false

namespace TabularModel

namespace Prior

def takeTag (tag : Option Text) (block : Block) : Block :=
  match tag with
  | some tag => block.setProperty "lineageTag" tag
  | none => block

def hasProperty (block : Block) (name : Text) : Bool :=
  (block.property? name).isSome

def takeFormat (format : Option Text) (block : Block) : Block :=
  match format with
  | some format =>
      if hasProperty block "formatString" then block.setProperty "formatString" format
      else block.insertProperty "dataType" "formatString" format
  | none => block

def takeSummary (summary : Option Text) (block : Block) : Block :=
  match summary with
  | some summary => block.setProperty "summarizeBy" summary
  | none => block

def annotatesAs (name : Text) (block : Block) : Bool :=
  block.hasHeader "annotation" && (annotationOf? block).any (·.1 == name)

/-- Replaces the first annotation of that name, or adds one at the end. -/
def takeAnnotation (block : Block) (earlier : Annotation) : Block :=
  if block.children.any (annotatesAs earlier.name) then
    { block with
      children := Block.changeFirst (annotatesAs earlier.name) (fun _ => earlier.block)
        block.children }
  else { block with children := block.children ++ [earlier.block] }

def takeFormatting (earlier : Column) (block : Block) : Block :=
  earlier.annotations.foldl takeAnnotation
    (takeSummary earlier.summarizeBy (takeFormat earlier.formatString block))

def mergeColumn (earlier : Table) (block : Block) : Block :=
  match columnSource? block with
  | none => block
  | some source =>
      let tagged := takeTag (earlier.columnTags.get? source) block
      match earlier.columns.get? source with
      | some column => takeFormatting column tagged
      | none => tagged

def mergeMeasure (earlier : Table) (block : Block) : Block :=
  match name? "measure" block with
  | some name => takeTag (earlier.measureTags.get? name) block
  | none => block

/-- The blocks of the measures that people have added to a table, apart from
those whose names the fresh table uses. -/
def keptMeasures (earlier : Table) (fresh : Block) : List Block :=
  let names := (fresh.childrenWith "measure").filterMap (name? "measure")
  ((earlier.userMeasures).filter fun measure => !names.contains measure.name).map (·.block)

/-- Puts blocks in front of the first partition, else of the first annotation,
else at the end. -/
def insertMeasures (measures children : List Block) : List Block :=
  let place :=
    (children.findIdx? (Block.hasHeader "partition")).orElse fun _ =>
      children.findIdx? (Block.hasHeader "annotation")
  let position := place.getD children.length
  children.take position ++ measures ++ children.drop position

def mergeTable (earlier : Table) (fresh : Block) : Block :=
  let merged :=
    ((takeTag earlier.tag fresh).changeWith "column" (mergeColumn earlier)).changeWith "measure"
      (mergeMeasure earlier)
  match keptMeasures earlier fresh with
  | [] => merged
  | measures => { merged with children := insertMeasures measures merged.children }

def mergeTables (earlier : Model) (document : Document) : Document :=
  document.changeWith "table" fun block =>
    match (tableKey? block).bind earlier.tables.get? with
    | some table => mergeTable table block
    | none => block

/-- Relationships have no descriptions: neither as properties nor as
documentation lines. -/
def withoutDescriptions (block : Block) : Block :=
  { block with
    docs := []
    children := (block.children.filter (!Block.isProperty "description" ·)).map fun child =>
      { child with docs := [] } }

def mergeRelationship (earlier : Model) (block : Block) : Block :=
  match (relationshipKey? block).bind earlier.relationship? with
  | some relationship => { block with line := "relationship " ++ relationship.name }
  | none => block

def freshKeys (document : Document) : List RelationshipKey :=
  (document.blocksWith "relationship").filterMap relationshipKey?

def mergeRelationships (earlier : Model) (document : Document) : Document :=
  let named := document.changeWith "relationship" (mergeRelationship earlier)
  let kept := earlier.userRelationships (freshKeys document)
  { named with blocks := named.blocks ++ kept.map fun added => withoutDescriptions added.block }

def mergeExpressions (earlier : Model) (document : Document) : Document :=
  document.changeWith "expression" fun block =>
    takeTag ((name? "expression" block).bind earlier.expressionTags.get?) block

def relationshipsDocument (text : Text) : Document :=
  if text = [] then .empty else .ofText text

def mergeFile (earlier : Model) (path text : Text) : Text :=
  if Path.isInTablesFolder path then (mergeTables earlier (.ofText text)).render
  else if path = Path.relationships then
    (mergeRelationships earlier (relationshipsDocument text)).render
  else if path = Path.expressions then (mergeExpressions earlier (.ofText text)).render
  else text

end Prior

/-- The fresh files with what they take over from an earlier model. A file of
relationships is added if there are only earlier ones. -/
def merge (fresh : DefinitionSet) (earlier : Prior.Model) : DefinitionSet :=
  let merged := fresh.mapValues (Prior.mergeFile earlier)
  if fresh.contains Path.relationships then merged
  else
    match (Prior.mergeRelationships earlier .empty).render with
    | [] => merged
    | text => merged.insert Path.relationships text

end TabularModel
