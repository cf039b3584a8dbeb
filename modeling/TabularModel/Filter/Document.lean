import TabularModel.Filter.Basic
import TabularModel.Markup.Event

/-!
# Filters as markup documents

Reads the filter of a view from its document: an `entity` element, which may
stand inside other elements, or a bare `filter`. Elements of unknown name are
passed over, but a known element is refused where it has no meaning. An element
is attached to the one around it when it ends.
-/

set_option autoImplicit false

namespace TabularModel

namespace Filter

open Markup (Event Tag)

inductive ReadFault where
  | markup (fault : Markup.Fault)
  | missingAttribute (element missing : Text)
  | misplaced (element : Text)
  | noEntity
  | unclosed
deriving DecidableEq, Repr

def ReadFault.message : ReadFault -> Text
  | .markup fault => "XML syntax error: " ++ fault.message
  | .missingAttribute element missing =>
      "<" ++ element ++ "> is missing required attribute '" ++ missing ++ "'"
  | .misplaced element => "<" ++ element ++ "> appears where it is not allowed"
  | .noEntity => "document has no <entity> or <filter> element"
  | .unclosed => "document ended with unclosed elements"

/-- An element that has begun, with what it holds so far. -/
inductive Frame where
  | entity (query : Query)
  | link (link : Link)
  | filter (group : Group)
  | condition (condition : Condition)
  | value (text : Text)
  | other
deriving Repr

namespace Frame

def attribute? (tag : Tag) (key : Text) : Except ReadFault (Option Text) :=
  (tag.attribute? key).mapError .markup

def attributeOrEmpty (tag : Tag) (key : Text) : Except ReadFault Text :=
  (attribute? tag key).map (·.getD [])

def nonblankAttribute? (tag : Tag) (key : Text) : Except ReadFault (Option Text) :=
  (attribute? tag key).map (·.bind Text.unlessBlank)

def requiredAttribute (element : Text) (tag : Tag) (key : Text) : Except ReadFault Text := do
  match <- attribute? tag key with
  | some found => return found
  | none => throw (.missingAttribute element key)

def openLink (tag : Tag) : Except ReadFault Frame := do
  let table <- requiredAttribute "link-entity" tag "name"
  let column <- attributeOrEmpty tag "from"
  let outerColumn <- attributeOrEmpty tag "to"
  let tableAlias <- nonblankAttribute? tag "alias"
  let kind <- attributeOrEmpty tag "link-type"
  return .link ⟨table, column, outerColumn, tableAlias, LinkKind.ofText kind, [], []⟩

def openCondition (tag : Tag) : Except ReadFault Frame := do
  let column <- requiredAttribute "condition" tag "attribute"
  let operator <- requiredAttribute "condition" tag "operator"
  let value <- attribute? tag "value"
  let joinAlias <- nonblankAttribute? tag "entityname"
  return .condition ⟨column, ConditionOperator.ofText operator, value, [], joinAlias⟩

def ofTag (tag : Tag) : Except ReadFault Frame :=
  let name := tag.localName
  if name = "entity" then
    (attributeOrEmpty tag "name").map fun entity => .entity ⟨entity, [], []⟩
  else if name = "link-entity" then openLink tag
  else if name = "filter" then
    (attributeOrEmpty tag "type").map fun type => .filter ⟨connectiveOfText type, []⟩
  else if name = "condition" then openCondition tag
  else if name = "value" then .ok (.value [])
  else .ok .other

end Frame

/-- The elements that have begun, the innermost first, and the query that the
first complete entity or bare filter gave. -/
structure Reading where
  opened : List Frame
  query : Option Query
deriving Repr

namespace Reading

def start : Reading := ⟨[], none⟩

/-- Goes on inside the given element. -/
def within (reading : Reading) (frame : Frame) (outer : List Frame) : Reading :=
  { reading with opened := frame :: outer }

/-- Attaches an element that has ended to the one around it. -/
def attach (reading : Reading) (frame : Frame) : Except ReadFault Reading :=
  match frame, reading.opened with
  | .entity query, _ => .ok { reading with query := reading.query <|> some query }
  | .filter group, .entity query :: outer =>
      .ok (reading.within (.entity { query with filters := query.filters ++ [group] }) outer)
  | .filter group, .link link :: outer =>
      .ok (reading.within (.link { link with filters := link.filters ++ [group] }) outer)
  | .filter group, .filter around :: outer =>
      .ok (reading.within (.filter { around with items := around.items ++ [.group group] }) outer)
  | .filter group, [] =>
      match reading.query with
      | none => .ok { reading with query := some { Query.empty with filters := [group] } }
      | some _ => .error (.misplaced "filter")
  | .filter _, _ => .error (.misplaced "filter")
  | .condition condition, .filter around :: outer =>
      .ok (reading.within
        (.filter { around with items := around.items ++ [.condition condition] }) outer)
  | .condition _, _ => .error (.misplaced "condition")
  | .link link, .entity query :: outer =>
      .ok (reading.within (.entity { query with links := query.links ++ [link] }) outer)
  | .link link, .link around :: outer =>
      .ok (reading.within (.link { around with links := around.links ++ [link] }) outer)
  | .link link, .filter around :: outer =>
      .ok (reading.within (.filter { around with items := around.items ++ [.link link] }) outer)
  | .link _, _ => .error (.misplaced "link-entity")
  | .value text, .condition condition :: outer =>
      .ok (reading.within
        (.condition { condition with values := condition.values ++ [text] }) outer)
  | .value _, _ => .error (.misplaced "value")
  | .other, _ => .ok reading

/-- Text counts inside a value alone. -/
def addText (reading : Reading) (read : Except ReadFault Text) : Except ReadFault Reading :=
  match reading.opened with
  | .value text :: outer =>
      read.map fun more => reading.within (.value (text ++ more)) outer
  | _ => .ok reading

def step (reading : Reading) : Event -> Except ReadFault Reading
  | .start tag =>
      (Frame.ofTag tag).map fun frame => { reading with opened := frame :: reading.opened }
  | .empty tag => do reading.attach (<- Frame.ofTag tag)
  | .ending =>
      match reading.opened with
      | [] => .error .unclosed
      | frame :: outer => { reading with opened := outer }.attach frame
  | .text raw => reading.addText ((Markup.unescape raw).mapError .markup)
  | .verbatim content => reading.addText (.ok content)

def run (reading : Reading) : List Event -> Except ReadFault Reading
  | [] => .ok reading
  | event :: events =>
      match reading.step event with
      | .ok next => next.run events
      | .error fault => .error fault

def finish (reading : Reading) : Except ReadFault Query :=
  match reading.opened, reading.query with
  | _ :: _, _ => .error .unclosed
  | [], some query => .ok query
  | [], none => .error .noEntity

end Reading

/-- The query a document describes. A fault in the order of elements is noticed
before a fault in the markup that follows. -/
def Query.ofDocument (document : Text) : Except ReadFault Query := do
  let (events, fault) := Markup.events document
  let reading <- Reading.start.run events
  match fault with
  | some fault => throw (.markup fault)
  | none => reading.finish

end Filter

end TabularModel
