import TabularModel.Proofs.Filter.Readable
import TabularModel.Proofs.Filter.Reading

/-!
# Written filters

How a filter is written as a document: an element for each part of its tree, with the parts
inside it in their order and anything that the reader passes over between them. The document
is read as the tree that it was written for.
-/

set_option autoImplicit false

namespace TabularModel

namespace Filter

open Markup (Event Tag WrittenTag Escaped)

/-! ## Tags -/

/-- The tag of a condition. -/
structure Condition.IsDescribed (condition : Condition) (tag : WrittenTag) : Prop where
  named : Markup.localName tag.name = "condition"
  column : tag.value? "attribute" = some condition.column
  operator : tag.value? "operator" = some condition.operator.name
  value : tag.value? "value" = condition.value
  joinAlias : tag.value? "entityname" = condition.joinAlias

/-- The tag of a group. Its items are joined by `and` where it does not say so. -/
structure Group.IsDescribed (group : Group) (tag : WrittenTag) : Prop where
  named : Markup.localName tag.name = "filter"
  type : tag.value? "type" = some (connectiveName group.connective) ∨
    group.connective = .and ∧ tag.value? "type" = none

/-- The tag of a link. A column or a kind that is not given is empty or inner. -/
structure Link.IsDescribed (link : Link) (tag : WrittenTag) : Prop where
  named : Markup.localName tag.name = "link-entity"
  table : tag.value? "name" = some link.table
  column : (tag.value? "from").getD [] = link.column
  outerColumn : (tag.value? "to").getD [] = link.outerColumn
  tableAlias : tag.value? "alias" = link.tableAlias
  kind : tag.value? "link-type" = some link.kind.name ∨
    link.kind = .inner ∧ tag.value? "link-type" = none

variable {tag : WrittenTag}

theorem localName_tag_of_named {name : Text} (named : Markup.localName tag.name = name) :
    tag.tag.localName = name := by
  rw [tag.localName_tag, named]

theorem nonblankAttribute?_eq {key : Text} {name : Option Text} (given : tag.value? key = name)
    (visible : IsVisible name) : Frame.nonblankAttribute? tag.tag key = .ok name := by
  rw [Frame.nonblankAttribute?, Frame.attribute?_eq, given]
  cases name with
  | none => rfl
  | some text =>
      have kept : Text.unlessBlank text = some text := by
        rw [Text.unlessBlank, visible text rfl]
        rfl
      exact congrArg Except.ok kept

theorem attributeOrEmpty_eq {key value : Text} (given : (tag.value? key).getD [] = value) :
    Frame.attributeOrEmpty tag.tag key = .ok value := by
  rw [Frame.attributeOrEmpty, Frame.attribute?_eq, ← given]
  rfl

theorem requiredAttribute_eq {element key value : Text} (given : tag.value? key = some value) :
    Frame.requiredAttribute element tag.tag key = .ok value := by
  rw [Frame.requiredAttribute, Frame.attribute?_eq, given]
  rfl

theorem Condition.IsDescribed.ofTag_eq {condition : Condition} (described : condition.IsDescribed tag)
    (readable : condition.IsReadable) :
    Frame.ofTag tag.tag = .ok (.condition { condition with values := [] }) := by
  have begun : Frame.ofTag tag.tag = Frame.openCondition tag.tag := by
    rw [Frame.ofTag, localName_tag_of_named described.named]
    rfl
  rw [begun, Frame.openCondition, requiredAttribute_eq described.column,
    requiredAttribute_eq described.operator, Frame.attribute?_eq, described.value,
    nonblankAttribute?_eq described.joinAlias readable.2]
  exact congrArg (fun operator => Except.ok (Frame.condition { condition with operator, values := [] }))
    readable.1.ofText_name

theorem Group.IsDescribed.ofTag_eq {group : Group} (described : group.IsDescribed tag) :
    Frame.ofTag tag.tag = .ok (.filter { group with items := [] }) := by
  have begun : Frame.ofTag tag.tag =
      (Frame.attributeOrEmpty tag.tag "type").map fun type => .filter ⟨connectiveOfText type, []⟩ := by
    rw [Frame.ofTag, localName_tag_of_named described.named]
    rfl
  have read : connectiveOfText ((tag.value? "type").getD []) = group.connective := by
    rcases described.type with given | ⟨isAnd, absent⟩
    · rw [given, Option.getD_some, connectiveOfText_connectiveName]
    · rw [isAnd, absent]
      rfl
  rw [begun, attributeOrEmpty_eq rfl, Except.map, read]

theorem Link.IsDescribed.ofTag_eq {link : Link} (described : link.IsDescribed tag)
    (readable : link.kind.IsReadable) (visible : IsVisible link.tableAlias) :
    Frame.ofTag tag.tag = .ok (.link { link with filters := [], links := [] }) := by
  have begun : Frame.ofTag tag.tag = Frame.openLink tag.tag := by
    rw [Frame.ofTag, localName_tag_of_named described.named]
    rfl
  have read : LinkKind.ofText ((tag.value? "link-type").getD []) = link.kind := by
    rcases described.kind with given | ⟨isInner, absent⟩
    · rw [given, Option.getD_some, readable.ofText_name]
    · rw [isInner, absent]
      rfl
  rw [begun, Frame.openLink, requiredAttribute_eq described.table,
    attributeOrEmpty_eq described.column, attributeOrEmpty_eq described.outerColumn,
    nonblankAttribute?_eq described.tableAlias visible, attributeOrEmpty_eq rfl]
  exact congrArg (fun kind => Except.ok (Frame.link { link with kind, filters := [], links := [] }))
    read

/-! ## Conditions -/

/-- Neither end of the text is a space. -/
def IsTight (raw : Text) : Prop :=
  (∀ c ∈ raw.head?, Markup.isSpace c = false) ∧ ∀ c ∈ raw.getLast?, Markup.isSpace c = false

/-- What stands inside a condition. -/
inductive WrittenValues : List Text -> Text -> Prop where
  | nil : WrittenValues [] []
  | filler {filler text : Text} {values : List Text} (isFiller : Filler filler)
      (later : WrittenValues values text) : WrittenValues values (filler ++ text)
  | value {tag : WrittenTag} {value raw text rest : Text} {values : List Text}
      (named : Markup.localName tag.name = "value") (escaped : Escaped value raw)
      (tight : IsTight raw) (spelled : tag.Spells (value = []) raw text)
      (later : WrittenValues values rest) : WrittenValues (value :: values) (text ++ rest)

inductive Condition.IsWritten (condition : Condition) : Text -> Prop where
  | element {tag : WrittenTag} {inside text : Text} (described : condition.IsDescribed tag)
      (inner : WrittenValues condition.values inside)
      (spelled : tag.Spells (condition.values = []) inside text) : condition.IsWritten text

theorem denotes_value {value raw text : Text} (named : Markup.localName tag.name = "value")
    (escaped : Escaped value raw) (tight : IsTight raw) (spelled : tag.Spells (value = []) raw text) :
    Denotes text (.value value) := by
  have opens : Frame.ofTag tag.tag = .ok (.value []) := by
    rw [Frame.ofTag, localName_tag_of_named named]
    rfl
  refine Denotes.of_spells spelled opens (congrArg Frame.value) fun reading outer elements behind => ?_
  cases shape : raw with
  | nil =>
      subst shape
      cases escaped
      rfl
  | cons first others =>
      have noMarkup : '<' ∉ first :: others :=
        shape ▸ escaped.not_mem (by decide) (by decide)
      have whole : Text.dropRightWhile Markup.isSpace raw = raw :=
        Text.dropRightWhile_of_getLast? tight.2
      rw [shape] at whole
      rw [Reading.read, Markup.eventsWithin_text (tight.1 first (shape ▸ rfl)) noMarkup
        (by rintro c ⟨⟩; rfl), Reading.resume_behind, whole, ← shape, Reading.step,
        escaped.unescape_eq]
      rfl

theorem WrittenValues.turns {values : List Text} {inside : Text} (written : WrittenValues values inside)
    (condition : Condition) :
    Turns inside (.condition condition)
      (.condition { condition with values := condition.values ++ values }) := by
  induction written generalizing condition with
  | nil =>
      rw [List.append_nil]
      exact Turns.nil _
  | filler isFiller later ih => exact (Turns.of_filler isFiller rfl).append (ih condition)
  | @value _ value _ text _ values named escaped tight spelled later ih =>
      have first : Turns text (.condition condition)
          (.condition { condition with values := condition.values ++ [value] }) :=
        (denotes_value named escaped tight spelled).turns fun _ _ => rfl
      have others := first.append (ih _)
      simp only [List.append_assoc, List.singleton_append] at others
      exact others

theorem Condition.IsWritten.denotes {condition : Condition} {text : Text}
    (written : condition.IsWritten text) (readable : condition.IsReadable) :
    Denotes text (.condition condition) := by
  obtain ⟨described, inner, spelled⟩ := written
  refine Denotes.of_spells spelled (described.ofTag_eq readable) ?_ fun reading outer elements behind =>
    inner.turns _ reading outer elements _
  intro bare
  rw [← bare]

/-! ## Groups and links -/

mutual

/-- What stands inside a group for one item of it. -/
inductive WrittenItem : Item -> Text -> Prop where
  | condition {condition : Condition} {text : Text} (written : condition.IsWritten text) :
      WrittenItem (.condition condition) text
  | group {group : Group} {text : Text} (written : WrittenGroup group text) :
      WrittenItem (.group group) text
  | link {link : Link} {text : Text} (written : WrittenLink link text) :
      WrittenItem (.link link) text

inductive WrittenItems : List Item -> Text -> Prop where
  | nil : WrittenItems [] []
  | filler {filler text : Text} {items : List Item} (isFiller : Filler filler)
      (later : WrittenItems items text) : WrittenItems items (filler ++ text)
  | item {item : Item} {text rest : Text} {items : List Item} (first : WrittenItem item text)
      (later : WrittenItems items rest) : WrittenItems (item :: items) (text ++ rest)

inductive WrittenGroup : Group -> Text -> Prop where
  | element {connective : Connective} {items : List Item} {tag : WrittenTag} {inside text : Text}
      (described : Group.IsDescribed ⟨connective, items⟩ tag) (inner : WrittenItems items inside)
      (spelled : tag.Spells (items = []) inside text) : WrittenGroup ⟨connective, items⟩ text

inductive WrittenLink : Link -> Text -> Prop where
  | element {table column outerColumn : Text} {tableAlias : Option Text} {kind : LinkKind}
      {filters : List Group} {links : List Link} {tag : WrittenTag} {inside text : Text}
      (described :
        Link.IsDescribed ⟨table, column, outerColumn, tableAlias, kind, filters, links⟩ tag)
      (inner : WrittenMembers filters links inside)
      (spelled : tag.Spells (filters = [] ∧ links = []) inside text) :
      WrittenLink ⟨table, column, outerColumn, tableAlias, kind, filters, links⟩ text

/-- What stands inside a link or an entity. Groups and links are mixed in any way. -/
inductive WrittenMembers : List Group -> List Link -> Text -> Prop where
  | nil : WrittenMembers [] [] []
  | filler {filler text : Text} {filters : List Group} {links : List Link}
      (isFiller : Filler filler) (later : WrittenMembers filters links text) :
      WrittenMembers filters links (filler ++ text)
  | group {group : Group} {text rest : Text} {filters : List Group} {links : List Link}
      (first : WrittenGroup group text) (later : WrittenMembers filters links rest) :
      WrittenMembers (group :: filters) links (text ++ rest)
  | link {link : Link} {text rest : Text} {filters : List Group} {links : List Link}
      (first : WrittenLink link text) (later : WrittenMembers filters links rest) :
      WrittenMembers filters (link :: links) (text ++ rest)

end

def Item.frame : Item -> Frame
  | .condition own => .condition own
  | .group own => .filter own
  | .link own => .link own

/-- An element that holds groups and links. -/
structure IsHolder (holder : List Group -> List Link -> Frame) : Prop where
  outside (filters : List Group) (links : List Link) : (holder filters links).isValue = false
  group (filters : List Group) (links : List Link) (group : Group) (reading : Reading)
      (outer : List Frame) :
    (reading.within (holder filters links) outer).attach (.filter group) =
      .ok (reading.within (holder (filters ++ [group]) links) outer)
  link (filters : List Group) (links : List Link) (link : Link) (reading : Reading)
      (outer : List Frame) :
    (reading.within (holder filters links) outer).attach (.link link) =
      .ok (reading.within (holder filters (links ++ [link])) outer)

theorem isHolder_entity (entity : Text) :
    IsHolder fun filters links => .entity ⟨entity, filters, links⟩ :=
  ⟨fun _ _ => rfl, fun _ _ _ _ _ => rfl, fun _ _ _ _ _ => rfl⟩

theorem isHolder_link (table column outerColumn : Text) (tableAlias : Option Text)
    (kind : LinkKind) : IsHolder fun filters links =>
      .link ⟨table, column, outerColumn, tableAlias, kind, filters, links⟩ :=
  ⟨fun _ _ => rfl, fun _ _ _ _ _ => rfl, fun _ _ _ _ _ => rfl⟩

/-- A group holds every item. -/
theorem attach_item (reading : Reading) (outer : List Frame) (connective : Connective)
    (items : List Item) (item : Item) :
    (reading.within (.filter ⟨connective, items⟩) outer).attach item.frame =
      .ok (reading.within (.filter ⟨connective, items ++ [item]⟩) outer) := by
  cases item <;> rfl

-- By recursion on the written forms: an element is read by what stands inside it, and a
-- list by its first part and the others.
mutual

theorem WrittenItem.denotes : {item : Item} -> {text : Text} -> WrittenItem item text ->
    item.IsReadable -> Denotes text item.frame
  | _, _, .condition written, readable => written.denotes readable
  | _, _, .group written, readable => written.denotes readable
  | _, _, .link written, readable => written.denotes readable

theorem WrittenItems.turns : {items : List Item} -> {text : Text} -> WrittenItems items text ->
    Item.AreReadable items -> (connective : Connective) -> (earlier : List Item) ->
    Turns text (.filter ⟨connective, earlier⟩) (.filter ⟨connective, earlier ++ items⟩)
  | _, _, .nil, _, connective, earlier => by
      rw [List.append_nil]
      exact Turns.nil _
  | _, _, .filler isFiller later, readable, connective, earlier =>
      (Turns.of_filler isFiller rfl).append (later.turns readable connective earlier)
  | _, _, @WrittenItems.item item _ _ items first later, readable, connective, earlier => by
      have own := (first.denotes readable.1).turns fun reading outer =>
        attach_item reading outer connective earlier item
      have others := own.append (later.turns readable.2 connective (earlier ++ [item]))
      rw [List.append_assoc, List.singleton_append] at others
      exact others

theorem WrittenGroup.denotes : {group : Group} -> {text : Text} -> WrittenGroup group text ->
    group.IsReadable -> Denotes text (.filter group)
  | _, _, .element described inner spelled, readable =>
      Denotes.of_spells spelled described.ofTag_eq (fun bare => by rw [bare])
        fun reading outer elements _ => inner.turns readable _ [] reading outer elements _

theorem WrittenLink.denotes : {link : Link} -> {text : Text} -> WrittenLink link text ->
    link.IsReadable -> Denotes text (.link link)
  | _, _, .element described inner spelled, ⟨⟨known, visible⟩, readable, readableLinks⟩ =>
      Denotes.of_spells spelled (described.ofTag_eq known visible)
        (fun bare => by rw [bare.1, bare.2])
        fun reading outer elements _ => inner.turns readable readableLinks
          (isHolder_link _ _ _ _ _) [] [] reading outer elements _

theorem WrittenMembers.turns : {filters : List Group} -> {links : List Link} -> {text : Text} ->
    WrittenMembers filters links text -> Group.AreReadable filters -> Link.AreReadable links ->
    {holder : List Group -> List Link -> Frame} -> IsHolder holder ->
    (earlier : List Group) -> (earlierLinks : List Link) ->
    Turns text (holder earlier earlierLinks) (holder (earlier ++ filters) (earlierLinks ++ links))
  | _, _, _, .nil, _, _, _, _, _, _ => by
      rw [List.append_nil, List.append_nil]
      exact Turns.nil _
  | _, _, _, .filler isFiller later, readable, readableLinks, _, holds, earlier, earlierLinks =>
      (Turns.of_filler isFiller (holds.outside _ _)).append
        (later.turns readable readableLinks holds earlier earlierLinks)
  | _, _, _, @WrittenMembers.group group _ _ _ _ first later, readable, readableLinks, _, holds,
      earlier, earlierLinks => by
      have own := (first.denotes readable.1).turns (holds.group earlier earlierLinks group)
      have others := own.append
        (later.turns readable.2 readableLinks holds (earlier ++ [group]) earlierLinks)
      rw [List.append_assoc, List.singleton_append] at others
      exact others
  | _, _, _, @WrittenMembers.link link _ _ _ _ first later, readable, readableLinks, _, holds,
      earlier, earlierLinks => by
      have own := (first.denotes readableLinks.1).turns (holds.link earlier earlierLinks link)
      have others := own.append
        (later.turns readable readableLinks.2 holds earlier (earlierLinks ++ [link]))
      rw [List.append_assoc, List.singleton_append] at others
      exact others

end

/-! ## Documents -/

/-- An entity, which may stand inside elements of unknown name, as in that of a `fetch`. -/
inductive WrittenEntity : Query -> Text -> Prop where
  | element {entity : Text} {filters : List Group} {links : List Link} {tag : WrittenTag}
      {inside text : Text} (named : Markup.localName tag.name = "entity")
      (table : (tag.value? "name").getD [] = entity) (inner : WrittenMembers filters links inside)
      (spelled : tag.Spells (filters = [] ∧ links = []) inside text) :
      WrittenEntity ⟨entity, filters, links⟩ text
  | wrapped {query : Query} {tag : WrittenTag} {front text back : Text}
      (unknown : Markup.localName tag.name ∉ Frame.knownNames) (before : Filler front)
      (inner : WrittenEntity query text) (after : Filler back) :
      WrittenEntity query (tag.around (front ++ (text ++ back)))

/-- The documents of a query. One group alone may be written without an entity. -/
inductive Query.IsWritten : Query -> Text -> Prop where
  | entity {query : Query} {front text back : Text} (before : Filler front)
      (written : WrittenEntity query text) (after : Filler back) :
      query.IsWritten (front ++ (text ++ back))
  | filter {group : Group} {front text back : Text} (before : Filler front)
      (written : WrittenGroup group text) (after : Filler back) :
      Query.IsWritten ⟨[], [group], []⟩ (front ++ (text ++ back))

/-- A reading with the query of a complete entity. -/
def Reading.given (reading : Reading) (query : Query) : Reading :=
  { reading with query := reading.query <|> some query }

theorem WrittenEntity.read_append {query : Query} {text : Text} (written : WrittenEntity query text)
    (readable : query.IsReadable) (reading : Reading) (elements : List Text) (rest : Text) :
    reading.read elements (text ++ rest) = (reading.given query).read elements rest := by
  induction written generalizing reading elements rest with
  | @element entity filters links tag inside text named table inner spelled =>
      have opens : Frame.ofTag tag.tag = .ok (.entity ⟨entity, [], []⟩) := by
        rw [Frame.ofTag, localName_tag_of_named named]
        exact congrArg (Except.map fun entity => Frame.entity ⟨entity, [], []⟩)
          (attributeOrEmpty_eq table)
      have denotes : Denotes text (.entity ⟨entity, filters, links⟩) := by
        refine Denotes.of_spells spelled opens ?_ fun reading outer elements behind =>
          inner.turns readable.1 readable.2 (isHolder_entity entity) [] [] reading outer elements _
        rintro ⟨noFilters, noLinks⟩
        rw [noFilters, noLinks]
      rw [denotes, Reading.attach]
      rfl
  | @wrapped query tag front text back unknown before inner after ih =>
      have opens : Frame.ofTag tag.tag = .ok .other :=
        Frame.ofTag_of_unknown (by rwa [tag.localName_tag])
      have outside (next : Reading) : (next.within .other next.opened).IsOutsideValue := by
        rintro frame ⟨⟩
        rfl
      have filled (behind : Text) :
          (reading.within .other reading.opened).read (tag.name :: elements)
              ((front ++ (text ++ back)) ++ '<' :: behind) =
            ((reading.given query).within .other (reading.given query).opened).read
              (tag.name :: elements) ('<' :: behind) := by
        rw [List.append_assoc, before.read_append (outside reading), List.append_assoc, ih readable]
        exact after.read_append (outside (reading.given query)) _ _
      rw [Reading.read_around opens filled, Reading.attach]
      rfl

/-- A document begins outside of all elements, behind the byte order mark if it has one. -/
theorem Query.ofDocument_eq_read (document : Text) :
    Query.ofDocument document = Reading.start.read [] document := by
  have outside := Reading.isOutsideValue_of_nil Reading.start rfl
  have events : Query.ofDocument document = Reading.start.resume (Markup.events document) := rfl
  rw [events]
  unfold Markup.events
  split
  · next rest =>
      have mark : '<' ∉ ['\uFEFF'] := by decide
      exact (Reading.read_plain outside mark rest).symm
  · rfl

theorem Reading.read_nil (reading : Reading) (elements : List Text) :
    reading.read elements [] = reading.finish := by
  rw [read, Markup.eventsWithin_eq]
  rfl

/-- A written filter is read as the tree that it was written for. -/
theorem Query.IsWritten.ofDocument_eq {query : Query} {document : Text}
    (written : query.IsWritten document) (readable : query.IsReadable) :
    Query.ofDocument document = .ok query := by
  have outside := Reading.isOutsideValue_of_nil Reading.start rfl
  have done : (Reading.start.given query).read [] [] = .ok query := Reading.read_nil _ _
  rw [Query.ofDocument_eq_read, ← done]
  cases written with
  | @entity _ front text back before written after =>
      have outsideGiven := Reading.isOutsideValue_of_nil (Reading.start.given query) rfl
      rw [before.read_append outside, written.read_append readable, ← List.append_nil back,
        after.read_append outsideGiven]
  | @filter group front text back before written after =>
      have outsideGiven :=
        Reading.isOutsideValue_of_nil (Reading.start.given ⟨[], [group], []⟩) rfl
      rw [before.read_append outside, written.denotes readable.1.1, ← List.append_nil back,
        ← after.read_append outsideGiven]
      rfl

end Filter

end TabularModel
