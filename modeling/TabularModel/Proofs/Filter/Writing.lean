import TabularModel.Proofs.Filter.Document
import TabularModel.Proofs.Filter.Misplaced
import TabularModel.Proofs.Markup.Spelling

/-!
# Filters and their documents

Every filter has a document, in which the elements of its tree are put into one another. The
reader takes each document of a readable filter back to it, and refuses an element that
stands where it has no meaning.
-/

set_option autoImplicit false

namespace TabularModel

namespace Filter

open Markup (Event Tag WrittenTag WrittenAttribute Escaped Numeral)

/-! ## Every filter has a document -/

theorem exists_writtenValues (values : List Text) : ∃ inside, WrittenValues values inside := by
  induction values with
  | nil => exact ⟨[], .nil⟩
  | cons value values ih =>
      obtain ⟨inside, written⟩ := ih
      obtain ⟨raw, escaped, visible⟩ := Markup.exists_escaped value
      obtain ⟨tag, named, _⟩ := Markup.exists_tag "value" (by decide) [] (by simp) List.nodup_nil
        fun _ => none
      have tight : IsTight raw :=
        ⟨fun c first => visible c (List.mem_of_mem_head? first),
          fun c last => visible c (List.mem_of_getLast? last)⟩
      exact ⟨_, .value named escaped tight (.around raw) written⟩

theorem Condition.exists_isWritten (condition : Condition) : ∃ text, condition.IsWritten text := by
  obtain ⟨inside, inner⟩ := exists_writtenValues condition.values
  obtain ⟨tag, named, given⟩ := Markup.exists_tag "condition" (by decide)
    ["attribute", "operator", "value", "entityname"] (by decide) (by decide) fun key =>
      if key = "attribute" then some condition.column
      else if key = "operator" then some condition.operator.name
      else if key = "value" then condition.value
      else condition.joinAlias
  have described : condition.IsDescribed tag :=
    ⟨named, given "attribute" (by decide), given "operator" (by decide), given "value" (by decide),
      given "entityname" (by decide)⟩
  exact ⟨_, described, inner, .around inside⟩

theorem Group.exists_isDescribed (group : Group) : ∃ tag, group.IsDescribed tag := by
  obtain ⟨tag, named, given⟩ := Markup.exists_tag "filter" (by decide) ["type"] (by decide)
    (by decide) fun _ => some (connectiveName group.connective)
  exact ⟨tag, named, Or.inl (given "type" (by decide))⟩

theorem Link.exists_isDescribed (link : Link) : ∃ tag, link.IsDescribed tag := by
  obtain ⟨tag, named, given⟩ := Markup.exists_tag "link-entity" (by decide)
    ["name", "from", "to", "alias", "link-type"] (by decide) (by decide) fun key =>
      if key = "name" then some link.table
      else if key = "from" then some link.column
      else if key = "to" then some link.outerColumn
      else if key = "alias" then link.tableAlias
      else some link.kind.name
  exact ⟨tag, named, given "name" (by decide), congrArg (Option.getD · []) (given "from" (by decide)),
    congrArg (Option.getD · []) (given "to" (by decide)), given "alias" (by decide),
    Or.inl (given "link-type" (by decide))⟩

mutual

theorem Item.exists_written : (item : Item) -> ∃ text, WrittenItem item text
  | .condition own => by
      obtain ⟨text, written⟩ := own.exists_isWritten
      exact ⟨text, .condition written⟩
  | .group own => by
      obtain ⟨text, written⟩ := Group.exists_written own
      exact ⟨text, .group written⟩
  | .link own => by
      obtain ⟨text, written⟩ := Link.exists_written own
      exact ⟨text, .link written⟩

theorem Item.exists_writtenEach : (items : List Item) -> ∃ text, WrittenItems items text
  | [] => ⟨[], .nil⟩
  | item :: items => by
      obtain ⟨text, first⟩ := Item.exists_written item
      obtain ⟨rest, later⟩ := Item.exists_writtenEach items
      exact ⟨_, .item first later⟩

theorem Group.exists_written : (group : Group) -> ∃ text, WrittenGroup group text
  | ⟨connective, items⟩ => by
      obtain ⟨tag, described⟩ := Group.exists_isDescribed ⟨connective, items⟩
      obtain ⟨inside, inner⟩ := Item.exists_writtenEach items
      exact ⟨_, .element described inner (.around inside)⟩

/-- Groups are written in front of the links. -/
theorem Group.exists_members : (groups : List Group) -> {links : List Link} -> {rest : Text} ->
    WrittenMembers [] links rest -> ∃ text, WrittenMembers groups links text
  | [], _, rest, later => ⟨rest, later⟩
  | group :: groups, _, _, later => by
      obtain ⟨text, first⟩ := Group.exists_written group
      obtain ⟨others, written⟩ := Group.exists_members groups later
      exact ⟨_, .group first written⟩

theorem Link.exists_written : (link : Link) -> ∃ text, WrittenLink link text
  | ⟨table, column, outerColumn, tableAlias, kind, filters, links⟩ => by
      obtain ⟨tag, described⟩ := Link.exists_isDescribed
        ⟨table, column, outerColumn, tableAlias, kind, filters, links⟩
      obtain ⟨rest, later⟩ := Link.exists_members links
      obtain ⟨inside, inner⟩ := Group.exists_members filters later
      exact ⟨_, .element described inner (.around inside)⟩

theorem Link.exists_members : (links : List Link) -> ∃ text, WrittenMembers [] links text
  | [] => ⟨[], .nil⟩
  | link :: links => by
      obtain ⟨text, first⟩ := Link.exists_written link
      obtain ⟨rest, later⟩ := Link.exists_members links
      exact ⟨_, .link first later⟩

end

theorem Query.exists_isWritten (query : Query) : ∃ document, query.IsWritten document := by
  obtain ⟨entity, filters, links⟩ := query
  obtain ⟨rest, later⟩ := Link.exists_members links
  obtain ⟨inside, inner⟩ := Group.exists_members filters later
  obtain ⟨tag, named, given⟩ := Markup.exists_tag "entity" (by decide) ["name"] (by decide)
    (by decide) fun _ => some entity
  have table := congrArg (Option.getD · []) (given "name" (by decide))
  exact ⟨_, .entity .nil (.element named table inner (.around inside)) .nil⟩

/-! ## Documents and filters -/

/-- The reader inverts the written form: a readable filter has documents, and each of them
is read as it. A part of a filter that ends inside an element that may not hold it is
refused, unless a fault was met before it ended. -/
theorem Query.reading_inverts_writing :
    (∀ query : Query, query.IsReadable ->
      (∃ document, query.IsWritten document) ∧
        ∀ document, query.IsWritten document -> Query.ofDocument document = .ok query) ∧
      ∀ (document : Text) (tag : Tag) (outer : List Tag) (begun : List Event),
        Markup.Ends tag outer begun (Markup.events document).1 ->
          IsMisplaced tag.localName outer ->
            Query.ofDocument document =
              Reading.start.run begun >>= fun _ => .error (.misplaced tag.localName) :=
  ⟨fun query readable =>
      ⟨query.exists_isWritten, fun _ written => written.ofDocument_eq readable⟩,
    fun _ _ _ _ ends misplaced => Query.ofDocument_of_isMisplaced ends misplaced⟩

/-- A view with an escaped value and a comment is read back. A condition beside the entity
is refused. -/
theorem Query.reading_inverts_writing_view :
    let query : Query :=
      ⟨"account", [⟨.or, [.condition ⟨"name", .oneOf false, none, [" <"], none⟩]⟩], []⟩
    let document : Text :=
      "<fetch><entity name=\"account\"><!-- rows --><filter type=\"or\"> " ++
        "<condition attribute=\"name\" operator=\"in\"><value>&#32;&lt;</value></condition>" ++
        "</filter></entity></fetch>"
    let astray : Text := "<fetch><condition attribute=\"name\" operator=\"in\"/></fetch>"
    query.IsReadable ∧ query.IsWritten document ∧ Query.ofDocument document = .ok query ∧
      Query.ofDocument astray = .error (.misplaced "condition") := by
  intro query document astray
  let plain (key value : Text) (isKey : Markup.IsKey key)
      (ordinary : value.all (!Markup.isReserved ·) = true) : WrittenAttribute :=
    .single isKey (Escaped.of_plain ordinary)
  let tag (name : Text) (attributes : List WrittenAttribute) (isName : Markup.IsKey name)
      (distinct : (attributes.map (·.key)).Nodup) : WrittenTag :=
    .single isName attributes distinct
  let fetch := tag "fetch" [] (by decide) (by decide)
  let entity := tag "entity" [plain "name" "account" (by decide) (by decide)] (by decide)
    (by decide)
  let filter := tag "filter" [plain "type" "or" (by decide) (by decide)] (by decide) (by decide)
  let condition := tag "condition" [plain "attribute" "name" (by decide) (by decide),
    plain "operator" "in" (by decide) (by decide)] (by decide) (by decide)
  let value := tag "value" [] (by decide) (by decide)
  have isOperator : ConditionOperator.IsReadable (.oneOf false) := ⟨"in", by decide +kernel⟩
  have noAlias : IsVisible none := by rintro _ ⟨⟩
  have inverts := Query.reading_inverts_writing
  -- The document, from the escaped value outwards.
  have numeral : Numeral 10 (['3'] ++ ['2']) (3 * 10 + 2) := .further (.single rfl) rfl
  let raw : Text := '&' :: ('#' :: (['3'] ++ ['2']) ++ ';' :: '&' :: ("lt" ++ ';' :: []))
  have escaped : Escaped [' ', '<'] raw :=
    .reference (.decimal (by decide) numeral) (.reference (.named (by decide)) .nil)
  let values := value.around raw ++ []
  have isValues : WrittenValues [[' ', '<']] values :=
    .value rfl escaped ⟨by rintro _ ⟨⟩; rfl, by rintro _ ⟨⟩; rfl⟩ (.around _) .nil
  let items := [' '] ++ [] ++ (condition.around values ++ [])
  have isItems : WrittenItems [.condition ⟨"name", .oneOf false, none, [[' ', '<']], none⟩] items :=
    .filler (.plain (by decide) .nil)
      (.item (.condition (.element ⟨rfl, rfl, rfl, rfl, rfl⟩ isValues (.around _))) .nil)
  let members := '<' :: '!' :: '-' :: '-' :: (" rows " ++ '-' :: '-' :: '>' :: []) ++
    (filter.around items ++ [])
  have isMembers : WrittenMembers query.filters [] members :=
    .filler (.comment (by decide) .nil)
      (.group (.element ⟨rfl, Or.inl rfl⟩ isItems (.around _)) .nil)
  have isEntity : WrittenEntity query (fetch.around ([] ++ (entity.around members ++ []))) :=
    .wrapped (by decide) .nil (.element rfl rfl isMembers (.around _)) .nil
  have shape : document = [] ++ (fetch.around ([] ++ (entity.around members ++ [])) ++ []) := by
    decide +kernel
  have written : query.IsWritten document := shape ▸ .entity .nil isEntity .nil
  have readable : query.IsReadable := ⟨⟨⟨⟨isOperator, noAlias⟩, trivial⟩, trivial⟩, trivial⟩
  refine ⟨readable, written, (inverts.1 query readable).2 document written, ?_⟩
  -- The condition beside it ends inside the outermost element.
  have events : Markup.events astray =
      ([.start fetch.tag, .empty condition.tag, .ending], none) := by
    have nothing : Markup.eventsWithin [] [] = ([], none) := Markup.eventsWithin_eq [] []
    have shape : astray = '<' :: (fetch.content ++ '>' :: '<' :: (condition.content ++
        '/' :: '>' :: '<' :: '/' :: (fetch.name ++ (fetch.closing ++ ['>'])))) := by decide +kernel
    have begins : Markup.events astray = Markup.eventsWithin [] astray := rfl
    rw [begins, shape, Markup.eventsWithin_start, Markup.eventsWithin_empty,
      Markup.eventsWithin_ending fetch.isName fetch.blankClosing, nothing]
    rfl
  have ends : Markup.Ends condition.tag [fetch.tag] ([.start fetch.tag] ++ [.start condition.tag])
      (Markup.events astray).1 := by
    rw [events]
    exact .alone rfl
  have misplaced : IsMisplaced condition.tag.localName [fetch.tag] :=
    .inside (by decide +kernel) (by decide +kernel)
  have described : Condition.IsDescribed ⟨"name", .oneOf false, none, [], none⟩ condition :=
    ⟨rfl, rfl, rfl, rfl, rfl⟩
  have unknown : Frame.ofTag fetch.tag = .ok .other := Frame.ofTag_of_unknown (by decide +kernel)
  have opens := described.ofTag_eq ⟨isOperator, noAlias⟩
  rw [inverts.2 astray _ _ _ ends misplaced, List.singleton_append, Reading.run_start unknown,
    Reading.run_start opens]
  rfl

end Filter

end TabularModel
