import TabularModel.Proofs.Filter.Soundness
import TabularModel.Proofs.Sql.Shapes
import TabularModel.Proofs.Text.Trimming

/-!
# The outline of a filter

An outline forgets names and those operands that are written as strings. It keeps
integers, the counts of relative dates, and whether the columns of a link are blank.
Filters with one outline become predicates of one shape.
-/

set_option autoImplicit false

namespace TabularModel

namespace Filter

open Sql (Expression Literal Predicate)

/-- An integer is kept, and any other operand becomes the same text. -/
def outlineOperand (value : Text) : Text :=
  if Literal.isInteger (Text.trim value) then value else "x"

/-- Only whether a name is blank is kept. -/
def outlineName (name : Text) : Text :=
  if Text.allBlank name then [] else "x"

namespace Condition

variable (condition : Condition)

def outlineValue : Option Text :=
  match condition.operator with
  | .compare _ => condition.scalarValue.map outlineOperand
  | .day _ => condition.scalarValue.map outlineOperand
  | .like _ _ => condition.scalarValue.map fun _ => []
  | .window _ _ => condition.scalarValue
  | .olderThan _ => condition.scalarValue
  | _ => none

def outlineValues : List Text :=
  match condition.operator with
  | .oneOf _ => condition.listValues.map outlineOperand
  | .between _ => condition.listValues.map outlineOperand
  | _ => []

def outline : Condition :=
  { column := []
    operator := condition.operator
    value := condition.outlineValue
    values := condition.outlineValues
    joinAlias := condition.joinAlias.map fun _ => [] }

end Condition

mutual

def Item.outline : Item -> Item
  | .condition condition => .condition condition.outline
  | .group group => .group group.outline
  | .link link => .link link.outline

def Item.outlineEach : List Item -> List Item
  | [] => []
  | item :: items => item.outline :: Item.outlineEach items

def Group.outline : Group -> Group
  | ⟨connective, items⟩ => ⟨connective, Item.outlineEach items⟩

def Group.outlineEach : List Group -> List Group
  | [] => []
  | group :: groups => group.outline :: Group.outlineEach groups

def Link.outline : Link -> Link
  | ⟨_, column, outerColumn, tableAlias, kind, filters, links⟩ =>
      { table := []
        column := outlineName column
        outerColumn := outlineName outerColumn
        tableAlias := tableAlias.map fun _ => []
        kind := kind
        filters := Group.outlineEach filters
        links := Link.outlineEach links }

def Link.outlineEach : List Link -> List Link
  | [] => []
  | link :: links => link.outline :: Link.outlineEach links

end

def Query.outline (query : Query) : Query :=
  ⟨[], Group.outlineEach query.filters, Link.outlineEach query.links⟩

/-! ## Conditions -/

theorem kind_ofText (value : Text) : (Literal.ofText value).lexeme.kind =
    if Literal.isInteger (Text.trim value) then .integer else .string := by
  rw [Literal.ofText]
  split
  · rfl
  · split <;> rfl

theorem kind_outlineOperand (value : Text) :
    (Literal.ofText (outlineOperand value)).lexeme.kind = (Literal.ofText value).lexeme.kind := by
  rw [kind_ofText, kind_ofText, outlineOperand]
  by_cases isInteger : Literal.isInteger (Text.trim value) = true
  · rw [if_pos isInteger]
  · rw [if_neg isInteger, if_neg isInteger]
    rfl

theorem literalKinds_outline (values : List Text) :
    Predicate.literalKinds ((values.map outlineOperand).map .ofText) =
      Predicate.literalKinds (values.map .ofText) := by
  simp only [Predicate.literalKinds, List.map_map]
  exact List.map_congr_left fun value _ => kind_outlineOperand value

/-- A text that is left as it is where values are listed. -/
def IsEntry (value : Text) : Prop :=
  Text.trim value = value ∧ value ≠ []

theorem isEntry_of_mem_listValues {condition : Condition} {value : Text}
    (member : value ∈ condition.listValues) : IsEntry value := by
  obtain ⟨inside, visible⟩ := List.mem_filter.mp member
  obtain ⟨entry, _, rfl⟩ := List.mem_map.mp inside
  exact ⟨Text.isTrimmed_trim entry, of_decide_eq_true visible⟩

theorem isEntry_outlineOperand {value : Text} (entry : IsEntry value) :
    IsEntry (outlineOperand value) := by
  rw [outlineOperand]
  split
  · exact entry
  · exact ⟨by decide, by decide⟩

theorem listValues_of_entries {condition : Condition} (unwritten : condition.value = none)
    (entries : ∀ value ∈ condition.values, IsEntry value) :
    condition.listValues = condition.values := by
  have kept : (condition.values.map Text.trim).filter (· ≠ []) = condition.values := by
    have trimmed : condition.values.map Text.trim = condition.values := by
      rw [List.map_congr_left fun value member => (entries value member).1, List.map_id']
    rw [trimmed, List.filter_eq_self]
    exact fun value member => decide_eq_true (entries value member).2
  rw [Condition.listValues, unwritten]
  cases values : condition.values with
  | nil => rfl
  | cons value others =>
      rw [values] at kept
      exact kept

namespace Condition

variable {condition other : Condition}

theorem profile_withValue {use useOther : Text -> Outcome} (change : Text -> Text)
    (isValue : other.scalarValue = condition.scalarValue.map change)
    (same : ∀ value, (use value).predicate?.map Predicate.profile =
      (useOther (change value)).predicate?.map Predicate.profile) :
    (condition.withValue use).predicate?.map Predicate.profile =
      (other.withValue useOther).predicate?.map Predicate.profile := by
  rw [withValue, withValue, isValue]
  cases condition.scalarValue with
  | none => rfl
  | some value => exact same value

theorem profile_withCount {increment : Int -> Int} {use useOther : Int -> Predicate}
    (isValue : other.scalarValue = condition.scalarValue)
    (same : ∀ count, (use count).profile = (useOther count).profile) :
    (condition.withCount increment use).predicate?.map Predicate.profile =
      (other.withCount increment useOther).predicate?.map Predicate.profile := by
  refine profile_withValue id (by rw [isValue, Option.map_id_apply]) fun value => ?_
  cases read : Decimal.integer? (Text.trim value) with
  | none => simp only [id, read]; rfl
  | some count =>
      simp only [id, read]
      split
      · split
        · exact congrArg some (same count)
        · rfl
      · rfl

theorem profile_withUser (environment : Environment) {outcome outcomeOther : Outcome}
    (same : outcome.predicate?.map Predicate.profile =
      outcomeOther.predicate?.map Predicate.profile) :
    (condition.withUser environment outcome).predicate?.map Predicate.profile =
      (other.withUser environment outcomeOther).predicate?.map Predicate.profile := by
  rw [withUser, withUser]
  split
  · rfl
  · exact same

end Condition

/-- Pairs of comparisons that differ on their left sides alone. -/
theorem profile_pair (first second : Sql.Comparison) {left left' other other' : Expression}
    (firstAlike : left.Alike left') (secondAlike : other.Alike other')
    (right otherRight : Expression) :
    Predicate.profile (.grouped (.junction .and
      [.compare first left right, .compare second other otherRight])) =
    Predicate.profile (.grouped (.junction .and
      [.compare first left' right, .compare second other' otherRight])) := by
  refine Predicate.profile_grouped (Predicate.profile_junction .and ?_)
  rw [List.map_cons, List.map_cons, List.map_cons, List.map_cons,
    Predicate.profile_compare first firstAlike rfl, Predicate.profile_compare second secondAlike rfl]

namespace LocalTime

variable (time : LocalTime) {left right : Expression} (alike : left.Alike right)
include alike

theorem alike_localise : (time.localise left).Alike (time.localise right) := by
  rw [localise, localise]
  split
  · exact alike.dateAdd _ _
  · exact alike.dateAdd _ _

theorem profile_inPeriod (period : CalendarPeriod) (neighbour : Neighbour) :
    (time.inPeriod left period neighbour).profile =
      (time.inPeriod right period neighbour).profile := by
  have moment := time.alike_localise alike
  cases period with
  | day => exact Predicate.profile_compare _ moment.asDate rfl
  | week => exact profile_pair _ _ (moment.partOf _) (moment.partOf _) _ _
  | month => exact profile_pair _ _ moment.monthOf moment.yearOf _ _
  | year => exact Predicate.profile_compare _ moment.yearOf rfl

theorem profile_window (unit : DateUnit) (count : Int) (direction : Direction) :
    (time.window left unit count direction).profile =
      (time.window right unit count direction).profile := by
  have moment := time.alike_localise alike
  cases direction with
  | past => exact profile_pair _ _ moment moment _ _
  | future => exact profile_pair _ _ moment moment _ _

theorem profile_olderThan (unit : DateUnit) (count : Int) :
    (time.olderThan left unit count).profile = (time.olderThan right unit count).profile :=
  Predicate.profile_compare _ (time.alike_localise alike) rfl

theorem profile_comparedWithDay {day other : Expression} (days : day.Alike other)
    (relation : DayRelation) :
    (Condition.comparedWithDay time left day relation).profile =
      (Condition.comparedWithDay time right other relation).profile := by
  have moment := time.alike_localise alike
  cases relation with
  | on => exact Predicate.profile_compare _ moment.asDate days.asDate
  | onOrAfter => exact Predicate.profile_compare _ moment days
  | onOrBefore => exact Predicate.profile_compare _ moment days

end LocalTime

theorem alike_outlineOperand (value : Text) :
    (Expression.literal (.ofText value)).Alike (.literal (.ofText (outlineOperand value))) :=
  Expression.alike_literal (kind_outlineOperand value).symm

namespace Condition

theorem scalarValue_outline {condition : Condition} (unlisted : condition.outlineValues = []) :
    condition.outline.scalarValue = condition.outlineValue := by
  have noEntry : condition.outline.values.head? = none := by
    rw [outline, unlisted, List.head?_nil]
  rw [scalarValue, noEntry, outline]
  cases condition.outlineValue <;> rfl

theorem listValues_outline {condition : Condition} (unwritten : condition.outlineValue = none)
    (listed : condition.outlineValues = condition.listValues.map outlineOperand) :
    condition.outline.listValues = condition.listValues.map outlineOperand := by
  have entries : ∀ value ∈ condition.outline.values, IsEntry value := by
    intro value member
    rw [outline, listed] at member
    obtain ⟨entry, inside, rfl⟩ := List.mem_map.mp member
    exact isEntry_outlineOperand (isEntry_of_mem_listValues inside)
  rw [listValues_of_entries unwritten entries, outline, listed]

/-- A condition and its outline are written in one shape. -/
theorem profile_convert_outline (settings : Settings) (tableAlias other : Text)
    (condition : Condition) :
    (condition.convert settings tableAlias).predicate?.map Predicate.profile =
      (condition.outline.convert settings other).predicate?.map Predicate.profile := by
  have column := Expression.alike_column tableAlias other condition.column []
  have outlined : condition.outline.joinAlias = condition.joinAlias.map fun _ => [] := rfl
  have sameOperator : condition.outline.operator = condition.operator := rfl
  rw [convert, convert, outlined, sameOperator]
  cases condition.joinAlias with
  | some joinAlias => rfl
  | none =>
      rw [Option.map_none]
      cases isOperator : condition.operator with
      | compare comparison =>
          have isValue := scalarValue_outline (by rw [outlineValues, isOperator])
          rw [outlineValue, isOperator] at isValue
          exact profile_withValue outlineOperand isValue fun value =>
            congrArg some (Predicate.profile_compare _ column (alike_outlineOperand value))
      | isNull negated => exact congrArg some (Predicate.profile_isNull negated column)
      | like shape negated =>
          have isValue := scalarValue_outline (by rw [outlineValues, isOperator])
          rw [outlineValue, isOperator] at isValue
          exact profile_withValue _ isValue fun value =>
            congrArg some (Predicate.profile_like negated column _ _)
      | oneOf negated =>
          have values := listValues_outline (by rw [outlineValue, isOperator])
            (by rw [outlineValues, isOperator])
          have kinds := literalKinds_outline condition.listValues
          dsimp only
          rw [values]
          cases listed : condition.listValues with
          | nil => rfl
          | cons value others =>
              rw [listed] at kinds
              exact congrArg some (Predicate.profile_isIn negated column kinds.symm)
      | between negated =>
          have values := listValues_outline (by rw [outlineValue, isOperator])
            (by rw [outlineValues, isOperator])
          have kinds := literalKinds_outline condition.listValues
          dsimp only
          rw [values]
          generalize condition.listValues = listed at kinds
          rcases listed with _ | ⟨low, _ | ⟨high, _ | ⟨other, others⟩⟩⟩
          · rfl
          · rfl
          · exact congrArg some (Predicate.profile_between negated column kinds.symm)
          · rfl
      | inPeriod period neighbour =>
          exact congrArg some (settings.time.profile_inPeriod column period neighbour)
      | sevenDays direction =>
          exact congrArg some (settings.time.profile_window column .day 7 direction)
      | window direction unit =>
          have isValue := scalarValue_outline (by rw [outlineValues, isOperator])
          rw [outlineValue, isOperator] at isValue
          exact profile_withCount isValue fun count =>
            settings.time.profile_window column unit count direction
      | olderThan unit =>
          have isValue := scalarValue_outline (by rw [outlineValues, isOperator])
          rw [outlineValue, isOperator] at isValue
          exact profile_withCount isValue fun count =>
            settings.time.profile_olderThan column unit count
      | day relation =>
          have isValue := scalarValue_outline (by rw [outlineValues, isOperator])
          rw [outlineValue, isOperator] at isValue
          exact profile_withValue outlineOperand isValue fun value =>
            congrArg some
              (settings.time.profile_comparedWithDay column (alike_outlineOperand value) relation)
      | currentUser negated =>
          exact profile_withUser _ (congrArg some (Predicate.profile_compare _ column rfl))
      | userTeams negated =>
          exact profile_withUser _ (congrArg some (Predicate.profile_inUserTeams negated column))
      | unrecognized name => rfl

end Condition

/-! ## Groups and links -/

theorem map_profile_join (connective : Connective) {parts others : List Predicate}
    (same : parts.map Predicate.profile = others.map Predicate.profile) :
    (Group.join connective parts).map Predicate.profile =
      (Group.join connective others).map Predicate.profile := by
  have joined := Predicate.profile_junction connective same
  match parts, others, same with
  | [], [], _ => rfl
  | [only], [other], same => exact congrArg some (List.cons.inj same).1
  | _ :: _ :: _, _ :: _ :: _, _ => exact congrArg some joined
  | [_], _ :: _ :: _, same => simp at same
  | _ :: _ :: _, [_], same => simp at same

theorem map_profile_grouped {predicate other : Option Predicate}
    (same : predicate.map Predicate.profile = other.map Predicate.profile) :
    (predicate.map .grouped).map Predicate.profile = (other.map .grouped).map Predicate.profile := by
  match predicate, other, same with
  | none, none, _ => rfl
  | some _, some _, same => exact congrArg some (Predicate.profile_grouped (Option.some.inj same))

theorem profile_linkPredicate (negated : Bool) (join otherJoin : Sql.Join)
    {parts others : List Predicate}
    (same : parts.map Predicate.profile = others.map Predicate.profile) :
    (linkPredicate negated join parts).profile = (linkPredicate negated otherJoin others).profile := by
  have inner := Predicate.map_profile_all? same
  rw [linkPredicate, linkPredicate]
  cases left : Predicate.all? parts with
  | none =>
      rw [left, Option.map_none, eq_comm, Option.map_eq_none_iff] at inner
      rw [inner]
      exact Predicate.profile_linked negated join otherJoin
  | some condition =>
      rw [left, Option.map_some, eq_comm, Option.map_eq_some_iff] at inner
      obtain ⟨other, right, alike⟩ := inner
      rw [right]
      exact Predicate.profile_linkedWhere negated join otherJoin alike.symm

theorem isFollowed_outlineName (kind : LinkKind) (column outerColumn : Text) :
    kind.isFollowed (outlineName column) (outlineName outerColumn) =
      kind.isFollowed column outerColumn := by
  have blank (name : Text) : Text.allBlank (outlineName name) = Text.allBlank name := by
    rw [outlineName]
    by_cases blank : Text.allBlank name = true
    · rw [if_pos blank, blank]
      rfl
    · rw [if_neg blank, Bool.eq_false_iff.mpr blank]
      rfl
  cases kind <;> simp only [LinkKind.isFollowed, blank]

variable (settings : Settings)

mutual

/-- An item and its outline are written in one shape, whatever the aliases are. -/
theorem Item.profile_convert_outline (tableAlias other : Text) (next start : Nat) (item : Item) :
    (item.convert settings tableAlias next).value.map Predicate.profile =
      (item.outline.convert settings other start).value.map Predicate.profile := by
  cases item with
  | condition condition =>
      rw [Item.outline, Item.convert, Item.convert]
      exact Condition.profile_convert_outline settings tableAlias other condition
  | group group =>
      have inner := Group.profile_convert_outline tableAlias other next start group
      rw [Item.outline, Item.convert, Item.convert]
      exact map_profile_grouped inner
  | link link =>
      rw [Item.outline, Item.convert, Item.convert]
      exact Link.profile_convert_outline tableAlias other next start link

theorem Item.profile_convertEach_outline (tableAlias other : Text) (next start : Nat)
    (items : List Item) :
    (Item.convertEach settings tableAlias next items).value.map Predicate.profile =
      (Item.convertEach settings other start (Item.outlineEach items)).value.map
        Predicate.profile := by
  cases items with
  | nil => rw [Item.outlineEach, Item.convertEach, Item.convertEach]
  | cons item items =>
      rw [Item.outlineEach, Item.value_convertEach_cons, Item.value_convertEach_cons,
        List.map_append, List.map_append, ← Option.toList_map, ← Option.toList_map,
        Item.profile_convert_outline tableAlias other next start item,
        Item.profile_convertEach_outline tableAlias other _ (start + item.outline.aliasCount) items]

theorem Group.profile_convert_outline (tableAlias other : Text) (next start : Nat)
    (group : Group) :
    (group.convert settings tableAlias next).value.map Predicate.profile =
      (group.outline.convert settings other start).value.map Predicate.profile := by
  cases group with
  | mk connective items =>
      rw [Group.outline, Group.convert, Group.convert]
      exact map_profile_join connective
        (Item.profile_convertEach_outline tableAlias other next start items)

theorem Group.profile_convertEach_outline (tableAlias other : Text) (next start : Nat)
    (groups : List Group) :
    (Group.convertEach settings tableAlias next groups).value.map Predicate.profile =
      (Group.convertEach settings other start (Group.outlineEach groups)).value.map
        Predicate.profile := by
  cases groups with
  | nil => rw [Group.outlineEach, Group.convertEach, Group.convertEach]
  | cons group groups =>
      rw [Group.outlineEach, Group.value_convertEach_cons, Group.value_convertEach_cons,
        List.map_append, List.map_append, ← Option.toList_map, ← Option.toList_map,
        Group.profile_convert_outline tableAlias other next start group,
        Group.profile_convertEach_outline tableAlias other _ (start + group.outline.aliasCount)
          groups]

theorem Link.profile_convert_outline (outerAlias other : Text) (next start : Nat)
    (link : Link) :
    (link.convert settings outerAlias next).value.map Predicate.profile =
      (link.outline.convert settings other start).value.map Predicate.profile := by
  cases link with
  | mk table column outerColumn tableAlias kind filters links =>
      rw [Link.outline, Link.value_convert, Link.value_convert, isFollowed_outlineName]
      split
      · refine congrArg some (profile_linkPredicate _ _ _ ?_)
        rw [List.map_append, List.map_append]
        exact congrArg₂ (· ++ ·) (Group.profile_convertEach_outline _ _ _ _ filters)
          (Link.profile_convertEach_outline _ _ _ _ links)
      · rfl

theorem Link.profile_convertEach_outline (outerAlias other : Text) (next start : Nat)
    (links : List Link) :
    (Link.convertEach settings outerAlias next links).value.map Predicate.profile =
      (Link.convertEach settings other start (Link.outlineEach links)).value.map
        Predicate.profile := by
  cases links with
  | nil => rw [Link.outlineEach, Link.convertEach, Link.convertEach]
  | cons link links =>
      rw [Link.outlineEach, Link.value_convertEach_cons, Link.value_convertEach_cons,
        List.map_append, List.map_append, ← Option.toList_map, ← Option.toList_map,
        Link.profile_convert_outline outerAlias other next start link,
        Link.profile_convertEach_outline outerAlias other _ (start + link.outline.aliasCount) links]

end

/-- A filter and its outline are written in one shape. -/
theorem Query.profile_convert_outline (tableAlias other : Text) (query : Query) :
    (query.convert settings tableAlias).predicate.map Predicate.profile =
      (query.outline.convert settings other).predicate.map Predicate.profile := by
  rw [Query.predicate_convert, Query.predicate_convert, Query.outline]
  apply Predicate.map_profile_all?
  rw [List.map_append, List.map_append,
    Group.profile_convertEach_outline settings tableAlias other 0 0,
    Link.profile_convertEach_outline settings tableAlias other _
      (Group.aliasCountEach (Group.outlineEach query.filters))]

theorem lexemes_clause (tableAlias : Text) (query : Query) :
    Sql.lexemes (query.convert settings tableAlias).clause =
      ((query.convert settings tableAlias).predicate.map
        fun predicate => predicate.pieces.map Sql.Piece.lexeme).getD [] := by
  rw [Conversion.clause]
  cases kept : (query.convert settings tableAlias).predicate with
  | none => rfl
  | some predicate => exact Sql.Spells.lexemes_eq (Query.isSound_convert settings kept).writes

/-- The kinds of the lexemes of a row filter are those of the outline. -/
theorem Query.kinds_clause (tableAlias other : Text) (query : Query) :
    (Sql.lexemes (query.convert settings tableAlias).clause).map Sql.Lexeme.kind =
      (Sql.lexemes (query.outline.convert settings other).clause).map Sql.Lexeme.kind := by
  have kinds (query : Query) (tableAlias : Text) :
      (Sql.lexemes (query.convert settings tableAlias).clause).map Sql.Lexeme.kind =
        (((query.convert settings tableAlias).predicate.map Predicate.profile).map
          fun profile => profile.shapes.map Sql.Shape.kind).getD [] := by
    rw [lexemes_clause]
    cases (query.convert settings tableAlias).predicate with
    | none => rfl
    | some predicate => exact Sql.map_kind_lexeme predicate.pieces
  rw [kinds, kinds, query.profile_convert_outline settings tableAlias other]

end Filter

end TabularModel
