import TabularModel.Proofs.Filter.Conditions
import TabularModel.Proofs.Filter.Links
import TabularModel.Proofs.Sql.Mentions
import TabularModel.Proofs.Text.Trimming

/-!
# What a filter mentions

The names and values that the row filter of a view writes, read off the view. A
condition writes its column under the alias of its table and then its operands; a
link writes its table and the columns on which it is joined.
-/

set_option autoImplicit false

namespace TabularModel

namespace Filter

open Sql (Expression Literal Mention Predicate)

/-- The value that is read back from the literal of an operand. -/
def operandContent (value : Text) : Text :=
  if Sql.dropsBlanks value then Text.trim value else value

/-- How often an operator writes the column that it tests. -/
def ConditionOperator.columnUses : ConditionOperator -> Nat
  | .inPeriod .week _ => 2
  | .inPeriod .month _ => 2
  | .sevenDays _ => 2
  | .window _ _ => 2
  | _ => 1

namespace Condition

variable (condition : Condition)

/-- The values that a condition compares with, apart from counts. -/
def operands : List Text :=
  match condition.operator with
  | .compare _ => (condition.scalarValue.map operandContent).toList
  | .day _ => (condition.scalarValue.map operandContent).toList
  | .like shape _ => (condition.scalarValue.map (pattern shape)).toList
  | .oneOf _ => condition.listValues
  | .between _ => condition.listValues
  | _ => []

/-- Whether a condition has a counterpart. -/
def isTranslated (settings : Settings) (tableAlias : Text) : Bool :=
  (condition.convert settings tableAlias).predicate?.isSome

def mentions (settings : Settings) (tableAlias : Text) : List Mention :=
  if condition.isTranslated settings tableAlias then
    (List.replicate condition.operator.columnUses
      [Mention.name tableAlias, Mention.name condition.column]).flatten ++
      condition.operands.map .value
  else []

end Condition

mutual

/-- What an item mentions where aliases are given out from a number on. -/
def Item.mentions (settings : Settings) (tableAlias : Text) (next : Nat) : Item -> List Mention
  | .condition condition => condition.mentions settings tableAlias
  | .group group => group.mentions settings tableAlias next
  | .link link => link.mentions settings tableAlias next

def Item.mentionsEach (settings : Settings) (tableAlias : Text) (next : Nat) :
    List Item -> List Mention
  | [] => []
  | item :: items =>
      item.mentions settings tableAlias next ++
        Item.mentionsEach settings tableAlias (next + item.aliasCount) items

def Group.mentions (settings : Settings) (tableAlias : Text) (next : Nat) : Group -> List Mention
  | ⟨_, items⟩ => Item.mentionsEach settings tableAlias next items

def Group.mentionsEach (settings : Settings) (tableAlias : Text) (next : Nat) :
    List Group -> List Mention
  | [] => []
  | group :: groups =>
      group.mentions settings tableAlias next ++
        Group.mentionsEach settings tableAlias (next + group.aliasCount) groups

def Link.mentions (settings : Settings) (outerAlias : Text) (next : Nat) : Link -> List Mention
  | ⟨table, column, outerColumn, tableAlias, kind, filters, links⟩ =>
      if kind.isFollowed column outerColumn then
        [ .name table, .name (linkAlias next tableAlias),
          .name (linkAlias next tableAlias), .name column,
          .name outerAlias, .name outerColumn ] ++
          (Group.mentionsEach settings (linkAlias next tableAlias) (next + takenBy tableAlias)
              filters ++
            Link.mentionsEach settings (linkAlias next tableAlias)
              (next + takenBy tableAlias + Group.aliasCountEach filters) links)
      else []

def Link.mentionsEach (settings : Settings) (outerAlias : Text) (next : Nat) :
    List Link -> List Mention
  | [] => []
  | link :: links =>
      link.mentions settings outerAlias next ++
        Link.mentionsEach settings outerAlias (next + link.aliasCount) links

end

def Query.mentions (settings : Settings) (tableAlias : Text) (query : Query) : List Mention :=
  Group.mentionsEach settings tableAlias 0 query.filters ++
    Link.mentionsEach settings tableAlias (Group.aliasCountEach query.filters) query.links

/-! ## Conditions -/

namespace LocalTime

variable (time : LocalTime)

@[simp] theorem mentions_localise (moment : Expression) :
    (time.localise moment).mentions = moment.mentions := by
  rw [localise]
  split <;> simp

@[simp] theorem mentions_now : time.now.mentions = [] := by
  simp [now]

@[simp] theorem mentions_boundary (unit : DateUnit) (count : Int) :
    (time.boundary unit count).mentions = [] := by
  rw [boundary]
  split <;> simp [periodStart]

@[simp] theorem mentions_reference (unit : DateUnit) (neighbour : Neighbour) :
    (time.reference unit neighbour).mentions = [] := by
  cases neighbour <;> simp [reference, nowPlus]

theorem mentions_inPeriod (column : Expression) (period : CalendarPeriod) (neighbour : Neighbour) :
    (time.inPeriod column period neighbour).mentions =
      (List.replicate (ConditionOperator.inPeriod period neighbour).columnUses
        column.mentions).flatten := by
  cases period <;> simp [inPeriod, ConditionOperator.columnUses, List.replicate]

theorem mentions_window (column : Expression) (unit : DateUnit) (count : Int)
    (direction : Direction) :
    (time.window column unit count direction).mentions = column.mentions ++ column.mentions := by
  cases direction <;> simp [window, within]

theorem mentions_comparedWithDay (column day : Expression) (relation : DayRelation) :
    (Condition.comparedWithDay time column day relation).mentions =
      column.mentions ++ day.mentions := by
  cases relation <;> simp [Condition.comparedWithDay]

end LocalTime

namespace Condition

variable {condition : Condition} {predicate : Predicate}

theorem content_ofText_of_mem_listValues {value : Text} (member : value ∈ condition.listValues) :
    (Literal.ofText value).content = value := by
  have trimmed : Text.trim value = value := by
    obtain ⟨entry, _, rfl⟩ := List.mem_map.mp (List.mem_filter.mp member).1
    exact Text.isTrimmed_trim entry
  rw [Sql.content_ofText, trimmed, ite_self]

theorem mentions_listValues (condition : Condition) :
    condition.listValues.map (fun value => Mention.value (Literal.ofText value).content) =
      condition.listValues.map .value :=
  List.map_congr_left fun _ member => congrArg Mention.value (content_ofText_of_mem_listValues member)

/-- The predicate of a condition mentions its column and its operands. -/
theorem mentions_convert {settings : Settings} {tableAlias : Text}
    (kept : (condition.convert settings tableAlias).predicate? = some predicate) :
    predicate.mentions = condition.mentions settings tableAlias := by
  have translated : condition.isTranslated settings tableAlias = true := by
    rw [isTranslated, kept, Option.isSome_some]
  have content (value : Text) : (Literal.ofText value).content = operandContent value :=
    Sql.content_ofText value
  have listed := condition.mentions_listValues
  rw [mentions, if_pos translated, operands]
  cases yields_of_convert kept with
  | compare isOperator given => simp [isOperator, given, ConditionOperator.columnUses, content]
  | isNull isOperator => simp [isOperator, ConditionOperator.columnUses]
  | like isOperator given => simp [isOperator, given, ConditionOperator.columnUses]
  | isIn isOperator => simpa [isOperator, ConditionOperator.columnUses] using listed
  | between isOperator isValues =>
      rw [isValues] at listed
      simpa [isOperator, isValues, ConditionOperator.columnUses] using listed
  | inPeriod isOperator => simp [isOperator, LocalTime.mentions_inPeriod]
  | sevenDays isOperator =>
      simp [isOperator, LocalTime.mentions_window, ConditionOperator.columnUses, List.replicate]
  | window isOperator =>
      simp [isOperator, LocalTime.mentions_window, ConditionOperator.columnUses, List.replicate]
  | olderThan isOperator =>
      simp [isOperator, LocalTime.olderThan, LocalTime.nowPlus, ConditionOperator.columnUses]
  | day isOperator given =>
      simp [isOperator, given, LocalTime.mentions_comparedWithDay, ConditionOperator.columnUses,
        content]
  | currentUser isOperator => simp [isOperator, ConditionOperator.columnUses]
  | userTeams isOperator => simp [isOperator, ConditionOperator.columnUses]

end Condition

/-! ## Groups and links -/

theorem mentions_join (connective : Connective) (parts : List Predicate) :
    (Group.join connective parts).toList.flatMap Predicate.mentions =
      parts.flatMap Predicate.mentions := by
  match parts with
  | [] => rfl
  | [only] => rfl
  | first :: second :: others => simp [Group.join]

theorem mentions_grouped? (predicate : Option Predicate) :
    (predicate.map Predicate.grouped).toList.flatMap Predicate.mentions =
      predicate.toList.flatMap Predicate.mentions := by
  cases predicate <;> simp

theorem mentions_linkPredicate (negated : Bool) (join : Sql.Join) (parts : List Predicate) :
    (linkPredicate negated join parts).mentions =
      join.mentions ++ parts.flatMap Predicate.mentions := by
  have inner := Predicate.mentions_all? parts
  rw [linkPredicate]
  split
  · next empty =>
      rw [empty] at inner
      simp [← inner]
  · next condition found =>
      rw [found] at inner
      simp [← inner]

variable (settings : Settings)

mutual

theorem Item.mentions_convert (tableAlias : Text) (next : Nat) (item : Item) :
    (item.convert settings tableAlias next).value.toList.flatMap Predicate.mentions =
      item.mentions settings tableAlias next := by
  cases item with
  | condition condition =>
      rw [Item.convert, Item.mentions]
      cases kept : (condition.convert settings tableAlias).predicate? with
      | none => simp [Condition.mentions, Condition.isTranslated, kept]
      | some predicate => simp [Condition.mentions_convert kept]
  | group group =>
      rw [Item.convert, Item.mentions, mentions_grouped?]
      exact Group.mentions_convert tableAlias next group
  | link link =>
      rw [Item.convert, Item.mentions]
      exact Link.mentions_convert tableAlias next link

theorem Item.mentions_convertEach (tableAlias : Text) (next : Nat) (items : List Item) :
    (Item.convertEach settings tableAlias next items).value.flatMap Predicate.mentions =
      Item.mentionsEach settings tableAlias next items := by
  cases items with
  | nil => rw [Item.convertEach, Item.mentionsEach, List.flatMap_nil]
  | cons item items =>
      rw [Item.value_convertEach_cons, Item.mentionsEach, List.flatMap_append,
        Item.mentions_convert tableAlias next item, Item.mentions_convertEach tableAlias _ items]

theorem Group.mentions_convert (tableAlias : Text) (next : Nat) (group : Group) :
    (group.convert settings tableAlias next).value.toList.flatMap Predicate.mentions =
      group.mentions settings tableAlias next := by
  cases group with
  | mk connective items =>
      rw [Group.convert, Group.mentions, mentions_join]
      exact Item.mentions_convertEach tableAlias next items

theorem Group.mentions_convertEach (tableAlias : Text) (next : Nat) (groups : List Group) :
    (Group.convertEach settings tableAlias next groups).value.flatMap Predicate.mentions =
      Group.mentionsEach settings tableAlias next groups := by
  cases groups with
  | nil => rw [Group.convertEach, Group.mentionsEach, List.flatMap_nil]
  | cons group groups =>
      rw [Group.value_convertEach_cons, Group.mentionsEach, List.flatMap_append,
        Group.mentions_convert tableAlias next group, Group.mentions_convertEach tableAlias _ groups]

theorem Link.mentions_convert (outerAlias : Text) (next : Nat) (link : Link) :
    (link.convert settings outerAlias next).value.toList.flatMap Predicate.mentions =
      link.mentions settings outerAlias next := by
  cases link with
  | mk table column outerColumn tableAlias kind filters links =>
      rw [Link.value_convert, Link.mentions]
      split
      · rw [Option.toList_some, List.flatMap_singleton, mentions_linkPredicate,
          List.flatMap_append, Group.mentions_convertEach _ _ filters,
          Link.mentions_convertEach _ _ links]
        rfl
      · rfl

theorem Link.mentions_convertEach (outerAlias : Text) (next : Nat) (links : List Link) :
    (Link.convertEach settings outerAlias next links).value.flatMap Predicate.mentions =
      Link.mentionsEach settings outerAlias next links := by
  cases links with
  | nil => rw [Link.convertEach, Link.mentionsEach, List.flatMap_nil]
  | cons link links =>
      rw [Link.value_convertEach_cons, Link.mentionsEach, List.flatMap_append,
        Link.mentions_convert outerAlias next link, Link.mentions_convertEach outerAlias _ links]

end

/-- The row filter mentions what the view does, in the same order. -/
theorem Query.mentions_convert (tableAlias : Text) (query : Query) :
    (query.convert settings tableAlias).predicate.toList.flatMap Predicate.mentions =
      query.mentions settings tableAlias := by
  rw [Query.predicate_convert, Predicate.mentions_all?, List.flatMap_append,
    Group.mentions_convertEach, Link.mentions_convertEach, Query.mentions]

end Filter

end TabularModel
