import TabularModel.Proofs.Filter.Outline
import TabularModel.Proofs.Sql.Precedence
import TabularModel.Proofs.Sql.Selection

/-!
# The structure of a filter

A filter is read back as it is, once the conditions and the links that nothing is written
for are taken out of it and the groups that are left without items with them. Groups keep
their connectives and the order of their items, filters and links side by side all have to
hold, and a link asks for rows of its table.
-/

set_option autoImplicit false

namespace TabularModel

namespace Filter

open Sql (Join Logic Predicate)

/-! ## What is left of a filter -/

/-- Whether anything is written for a condition, under whatever alias. -/
def Condition.isExpressed (settings : Settings) (condition : Condition) : Bool :=
  (condition.convert settings []).predicate?.isSome

theorem Condition.isSome_convert (settings : Settings) (tableAlias : Text) (condition : Condition) :
    (condition.convert settings tableAlias).predicate?.isSome = condition.isExpressed settings := by
  have alike := (condition.profile_convert_outline settings tableAlias []).trans
    (condition.profile_convert_outline settings [] []).symm
  have same := congrArg Option.isSome alike
  rwa [Option.isSome_map, Option.isSome_map] at same

mutual

def Item.prune? (settings : Settings) : Item -> Option Item
  | .condition condition =>
      if condition.isExpressed settings then some (.condition condition) else none
  | .group group => (group.prune? settings).map .group
  | .link link => (link.prune? settings).map .link

def Item.pruneEach (settings : Settings) : List Item -> List Item
  | [] => []
  | item :: items => (item.prune? settings).toList ++ Item.pruneEach settings items

def Group.prune? (settings : Settings) : Group -> Option Group
  | ⟨connective, items⟩ =>
      match Item.pruneEach settings items with
      | [] => none
      | kept => some ⟨connective, kept⟩

def Group.pruneEach (settings : Settings) : List Group -> List Group
  | [] => []
  | group :: groups => (group.prune? settings).toList ++ Group.pruneEach settings groups

def Link.prune? (settings : Settings) : Link -> Option Link
  | ⟨table, column, outerColumn, tableAlias, kind, filters, links⟩ =>
      if kind.isFollowed column outerColumn then
        some
          ⟨table, column, outerColumn, tableAlias, kind, Group.pruneEach settings filters,
            Link.pruneEach settings links⟩
      else none

def Link.pruneEach (settings : Settings) : List Link -> List Link
  | [] => []
  | link :: links => (link.prune? settings).toList ++ Link.pruneEach settings links

end

/-- A filter without the conditions and links that nothing is written for, and without
groups that are empty. -/
def Query.prune (settings : Settings) (query : Query) : Query :=
  ⟨query.entity, Group.pruneEach settings query.filters, Link.pruneEach settings query.links⟩

/-! ## The expression of a filter -/

/-- A condition that nothing is written for would restrict nothing. -/
def Condition.logic (settings : Settings) (tableAlias : Text) (condition : Condition) : Logic :=
  ((condition.convert settings tableAlias).predicate?.map Predicate.logic).getD (.junction .and [])

mutual

def Item.logic (settings : Settings) (tableAlias : Text) (next : Nat) : Item -> Logic
  | .condition condition => condition.logic settings tableAlias
  | .group group => group.logic settings tableAlias next
  | .link link => link.logic settings tableAlias next

def Item.logicEach (settings : Settings) (tableAlias : Text) (next : Nat) : List Item -> List Logic
  | [] => []
  | item :: items =>
      item.logic settings tableAlias next ::
        Item.logicEach settings tableAlias (next + item.aliasCount) items

def Group.logic (settings : Settings) (tableAlias : Text) (next : Nat) : Group -> Logic
  | ⟨connective, items⟩ => .joined connective (Item.logicEach settings tableAlias next items)

def Group.logicEach (settings : Settings) (tableAlias : Text) (next : Nat) :
    List Group -> List Logic
  | [] => []
  | group :: groups =>
      group.logic settings tableAlias next ::
        Group.logicEach settings tableAlias (next + group.aliasCount) groups

/-- A link stands for the existence of rows that it is joined with and that meet its
filters and links. -/
def Link.logic (settings : Settings) (outerAlias : Text) (next : Nat) : Link -> Logic
  | ⟨table, column, outerColumn, tableAlias, kind, filters, links⟩ =>
      let join : Join := ⟨table, linkAlias next tableAlias, column, outerAlias, outerColumn⟩
      let parts :=
        Group.logicEach settings join.tableAlias (next + takenBy tableAlias) filters ++
          Link.logicEach settings join.tableAlias
            (next + takenBy tableAlias + Group.aliasCountEach filters) links
      .negatedIf (kind == .notAny)
        (.existence table join.tableAlias
          (.joined .and (join.condition.test :: (Logic.joined? .and parts).toList)))

def Link.logicEach (settings : Settings) (outerAlias : Text) (next : Nat) : List Link -> List Logic
  | [] => []
  | link :: links =>
      link.logic settings outerAlias next ::
        Link.logicEach settings outerAlias (next + link.aliasCount) links

end

/-- The expression of a whole filter, if it has any filters or links. -/
def Query.logic? (settings : Settings) (tableAlias : Text) (query : Query) : Option Logic :=
  Logic.joined? .and
    (Group.logicEach settings tableAlias 0 query.filters ++
      Link.logicEach settings tableAlias (Group.aliasCountEach query.filters) query.links)

/-! ## Aliases of what is left -/

variable (settings : Settings)

mutual

theorem Item.aliasCount_prune? (item : Item) :
    ((item.prune? settings).map Item.aliasCount).getD 0 = item.aliasCount := by
  cases item with
  | condition condition =>
      rw [Item.prune?, Item.aliasCount]
      split <;> rfl
  | group group =>
      rw [Item.prune?, Item.aliasCount, Option.map_map, ← Group.aliasCount_prune? group]
      rfl
  | link link =>
      rw [Item.prune?, Item.aliasCount, Option.map_map, ← Link.aliasCount_prune? link]
      rfl

theorem Item.aliasCountEach_pruneEach (items : List Item) :
    Item.aliasCountEach (Item.pruneEach settings items) = Item.aliasCountEach items := by
  cases items with
  | nil => rw [Item.pruneEach]
  | cons item items =>
      have first := Item.aliasCount_prune? item
      have others := Item.aliasCountEach_pruneEach items
      rw [Item.pruneEach, Item.aliasCountEach, ← first, ← others]
      cases item.prune? settings with
      | none => simp
      | some kept => rw [Option.toList_some, List.singleton_append, Item.aliasCountEach]; rfl

theorem Group.aliasCount_prune? (group : Group) :
    ((group.prune? settings).map Group.aliasCount).getD 0 = group.aliasCount := by
  cases group with
  | mk connective items =>
      have each := Item.aliasCountEach_pruneEach items
      rw [Group.prune?, Group.aliasCount, ← each]
      split
      · next empty => rw [empty, Item.aliasCountEach]; rfl
      · rfl

theorem Group.aliasCountEach_pruneEach (groups : List Group) :
    Group.aliasCountEach (Group.pruneEach settings groups) = Group.aliasCountEach groups := by
  cases groups with
  | nil => rw [Group.pruneEach]
  | cons group groups =>
      have first := Group.aliasCount_prune? group
      have others := Group.aliasCountEach_pruneEach groups
      rw [Group.pruneEach, Group.aliasCountEach, ← first, ← others]
      cases group.prune? settings with
      | none => simp
      | some kept => rw [Option.toList_some, List.singleton_append, Group.aliasCountEach]; rfl

theorem Link.aliasCount_prune? (link : Link) :
    ((link.prune? settings).map Link.aliasCount).getD 0 = link.aliasCount := by
  cases link with
  | mk table column outerColumn tableAlias kind filters links =>
      rw [Link.prune?, Link.aliasCount]
      split
      · next followed =>
          rw [Option.map_some, Option.getD_some, Link.aliasCount, if_pos followed,
            Group.aliasCountEach_pruneEach, Link.aliasCountEach_pruneEach]
      · rfl

theorem Link.aliasCountEach_pruneEach (links : List Link) :
    Link.aliasCountEach (Link.pruneEach settings links) = Link.aliasCountEach links := by
  cases links with
  | nil => rw [Link.pruneEach]
  | cons link links =>
      have first := Link.aliasCount_prune? link
      have others := Link.aliasCountEach_pruneEach links
      rw [Link.pruneEach, Link.aliasCountEach, ← first, ← others]
      cases link.prune? settings with
      | none => simp
      | some kept => rw [Option.toList_some, List.singleton_append, Link.aliasCountEach]; rfl

end

/-! ## Expressions of what is written -/

theorem logic_junction (connective : Connective) (parts : List Predicate) :
    (Predicate.junction connective parts).logic =
      .joined connective (parts.map Predicate.logic) := by
  rw [Predicate.logic, Predicate.logicEach_eq_map]

theorem logic_parenthesised (predicate : Predicate) :
    predicate.parenthesised.logic = predicate.logic := by
  rw [Predicate.parenthesised]
  split
  · rw [Predicate.logic]
  · rfl

theorem map_logic_join (connective : Connective) (parts : List Predicate) :
    (Group.join connective parts).map Predicate.logic =
      Logic.joined? connective (parts.map Predicate.logic) := by
  match parts with
  | [] => rfl
  | [only] => rfl
  | first :: second :: others => exact congrArg some (logic_junction connective _)

theorem map_logic_all? (parts : List Predicate) :
    (Predicate.all? parts).map Predicate.logic =
      Logic.joined? .and (parts.map Predicate.logic) := by
  match parts with
  | [] => rfl
  | [only] => rfl
  | first :: second :: others =>
      have each : (first :: second :: others).map (Predicate.logic ∘ Predicate.parenthesised) =
          (first :: second :: others).map Predicate.logic :=
        List.map_congr_left fun part _ => logic_parenthesised part
      have whole := logic_junction .and ((first :: second :: others).map Predicate.parenthesised)
      rw [List.map_map, each] at whole
      exact congrArg some whole

theorem logic_linkPredicate (negated : Bool) (join : Join) (parts : List Predicate) :
    (linkPredicate negated join parts).logic =
      .negatedIf negated
        (.existence join.table join.tableAlias
          (.joined .and
            (join.condition.test :: (Logic.joined? .and (parts.map Predicate.logic)).toList))) := by
  rw [linkPredicate, ← map_logic_all?]
  cases Predicate.all? parts with
  | none =>
      rw [Predicate.logic]
      rfl
  | some condition =>
      rw [Predicate.logic]
      rfl

-- Numbers of aliases are given out in the order of the filter. What is taken out of it takes
-- no numbers, so what is left gets the numbers that it had.
mutual

theorem Item.map_logic_convert (tableAlias : Text) (next : Nat) (item : Item) :
    (item.convert settings tableAlias next).value.map Predicate.logic =
      (item.prune? settings).map (Item.logic settings tableAlias next) := by
  cases item with
  | condition condition =>
      have expressed := condition.isSome_convert settings tableAlias
      rw [Item.convert, Item.prune?]
      cases found : (condition.convert settings tableAlias).predicate? with
      | none =>
          rw [found, Option.isSome_none] at expressed
          rw [if_neg (by rw [← expressed]; exact Bool.false_ne_true)]
          rfl
      | some predicate =>
          rw [found, Option.isSome_some] at expressed
          rw [if_pos expressed.symm, Option.map_some, Option.map_some, Item.logic, Condition.logic,
            found]
          rfl
  | group group =>
      have inner := Group.map_logic_convert tableAlias next group
      have grouped : Predicate.logic ∘ Predicate.grouped = Predicate.logic :=
        funext fun inner => by rw [Function.comp_apply, Predicate.logic]
      have same : Item.logic settings tableAlias next ∘ Item.group =
          Group.logic settings tableAlias next :=
        funext fun group => by rw [Function.comp_apply, Item.logic]
      rw [Item.convert, Item.prune?, Option.map_map, Option.map_map, grouped, same]
      exact inner
  | link link =>
      have inner := Link.map_logic_convert tableAlias next link
      have same : Item.logic settings tableAlias next ∘ Item.link =
          Link.logic settings tableAlias next :=
        funext fun link => by rw [Function.comp_apply, Item.logic]
      rw [Item.convert, Item.prune?, Option.map_map, same]
      exact inner

theorem Item.map_logic_convertEach (tableAlias : Text) (next : Nat) (items : List Item) :
    (Item.convertEach settings tableAlias next items).value.map Predicate.logic =
      Item.logicEach settings tableAlias next (Item.pruneEach settings items) := by
  cases items with
  | nil => rw [Item.convertEach, Item.pruneEach, Item.logicEach, List.map_nil]
  | cons item items =>
      have first := Item.map_logic_convert tableAlias next item
      have others := Item.map_logic_convertEach tableAlias (next + item.aliasCount) items
      have count := Item.aliasCount_prune? settings item
      rw [Item.value_convertEach_cons, Item.pruneEach, List.map_append, ← Option.toList_map, first,
        others]
      cases found : item.prune? settings with
      | none =>
          rw [found] at count
          rw [← count]
          rfl
      | some kept =>
          rw [found] at count
          rw [Option.toList_some, List.singleton_append, Item.logicEach, ← count]
          rfl

theorem Group.map_logic_convert (tableAlias : Text) (next : Nat) (group : Group) :
    (group.convert settings tableAlias next).value.map Predicate.logic =
      (group.prune? settings).map (Group.logic settings tableAlias next) := by
  cases group with
  | mk connective items =>
      rw [Group.convert, map_logic_join, Item.map_logic_convertEach tableAlias next items,
        Group.prune?]
      cases Item.pruneEach settings items with
      | nil =>
          rw [Item.logicEach]
          rfl
      | cons first others =>
          rw [Option.map_some, Group.logic, Item.logicEach]
          rfl

theorem Group.map_logic_convertEach (tableAlias : Text) (next : Nat) (groups : List Group) :
    (Group.convertEach settings tableAlias next groups).value.map Predicate.logic =
      Group.logicEach settings tableAlias next (Group.pruneEach settings groups) := by
  cases groups with
  | nil => rw [Group.convertEach, Group.pruneEach, Group.logicEach, List.map_nil]
  | cons group groups =>
      have first := Group.map_logic_convert tableAlias next group
      have others := Group.map_logic_convertEach tableAlias (next + group.aliasCount) groups
      have count := Group.aliasCount_prune? settings group
      rw [Group.value_convertEach_cons, Group.pruneEach, List.map_append, ← Option.toList_map,
        first, others]
      cases found : group.prune? settings with
      | none =>
          rw [found] at count
          rw [← count]
          rfl
      | some kept =>
          rw [found] at count
          rw [Option.toList_some, List.singleton_append, Group.logicEach, ← count]
          rfl

theorem Link.map_logic_convert (outerAlias : Text) (next : Nat) (link : Link) :
    (link.convert settings outerAlias next).value.map Predicate.logic =
      (link.prune? settings).map (Link.logic settings outerAlias next) := by
  cases link with
  | mk table column outerColumn tableAlias kind filters links =>
      rw [Link.value_convert, Link.prune?]
      split
      · rw [Option.map_some, Option.map_some, logic_linkPredicate, List.map_append,
          Group.map_logic_convertEach, Link.map_logic_convertEach, Link.logic,
          Group.aliasCountEach_pruneEach]
      · rfl

theorem Link.map_logic_convertEach (outerAlias : Text) (next : Nat) (links : List Link) :
    (Link.convertEach settings outerAlias next links).value.map Predicate.logic =
      Link.logicEach settings outerAlias next (Link.pruneEach settings links) := by
  cases links with
  | nil => rw [Link.convertEach, Link.pruneEach, Link.logicEach, List.map_nil]
  | cons link links =>
      have first := Link.map_logic_convert outerAlias next link
      have others := Link.map_logic_convertEach outerAlias (next + link.aliasCount) links
      have count := Link.aliasCount_prune? settings link
      rw [Link.value_convertEach_cons, Link.pruneEach, List.map_append, ← Option.toList_map, first,
        others]
      cases found : link.prune? settings with
      | none =>
          rw [found] at count
          rw [← count]
          rfl
      | some kept =>
          rw [found] at count
          rw [Option.toList_some, List.singleton_append, Link.logicEach, ← count]
          rfl

end

/-- The predicate of a filter stands for the expression of what is left of it. -/
theorem Query.map_logic_convert (tableAlias : Text) (query : Query) :
    (query.convert settings tableAlias).predicate.map Predicate.logic =
      (query.prune settings).logic? settings tableAlias := by
  rw [Query.predicate_convert, map_logic_all?, List.map_append, Group.map_logic_convertEach,
    Link.map_logic_convertEach, Query.logic?, Query.prune, Group.aliasCountEach_pruneEach]

theorem Query.logic?_eq_none_iff (tableAlias : Text) (query : Query) :
    query.logic? settings tableAlias = none ↔ query.filters = [] ∧ query.links = [] := by
  have joined (parts : List Logic) : Logic.joined? .and parts = none ↔ parts = [] := by
    cases parts <;> simp [Logic.joined?]
  have groups (next : Nat) (groups : List Group) :
      Group.logicEach settings tableAlias next groups = [] ↔ groups = [] := by
    cases groups <;> simp [Group.logicEach]
  have links (next : Nat) (links : List Link) :
      Link.logicEach settings tableAlias next links = [] ↔ links = [] := by
    cases links <;> simp [Link.logicEach]
  rw [Query.logic?, joined, List.append_eq_nil_iff, groups, links]

theorem render_ne_nil {predicate : Predicate} (sound : predicate.IsSound) :
    predicate.render ≠ [] := by
  intro empty
  have read := Sql.Spells.lexemes_eq sound.writes
  rw [empty, eq_comm, Sql.lexemes_of_allBlank rfl, List.map_eq_nil_iff] at read
  exact sound.pieces_ne_nil read

/-- What is written for a filter is read as the expression of what is left of it, and
nothing is written just where nothing is left. -/
theorem Query.logic?_clause (tableAlias : Text) (query : Query) :
    Sql.logic? (query.convert settings tableAlias).clause =
        (query.prune settings).logic? settings tableAlias ∧
      ((query.convert settings tableAlias).clause = [] ↔
        (query.prune settings).filters = [] ∧ (query.prune settings).links = []) := by
  rw [← Query.logic?_eq_none_iff settings tableAlias, ← Query.map_logic_convert, Conversion.clause]
  cases kept : (query.convert settings tableAlias).predicate with
  | none => exact ⟨rfl, iff_of_true rfl rfl⟩
  | some predicate =>
      have sound := Query.isSound_convert settings kept
      rw [Option.map_some, Option.map_some, Option.getD_some]
      exact ⟨sound.logic?_render, fun empty => absurd empty (render_ne_nil sound),
        fun absent => absurd absent (Option.some_ne_none _)⟩

end Filter

end TabularModel
