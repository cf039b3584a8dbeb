import TabularModel.Proofs.Filter.Gathering
import TabularModel.Proofs.Filter.Mentions
import TabularModel.Proofs.Filter.Structure
import TabularModel.Proofs.Text.Characters

/-!
# The tables that aliases stand for

Inside the subquery of a link its alias and those of the tables around it are known, and a
column is taken from the innermost table that is known by its alias. If no written alias
occurs twice or is one of those that are given out, then the alias of a subquery differs from
all aliases around it, and every column is taken from the table that the view means.
-/

set_option autoImplicit false

namespace TabularModel

/-- Two texts are told apart even where letter case does not count. -/
def Text.Apart (left right : Text) : Prop :=
  Text.sameIgnoringCase left right = false

instance (left right : Text) : Decidable (Text.Apart left right) :=
  inferInstanceAs (Decidable (_ = false))

theorem Text.apart_iff {left right : Text} :
    Text.Apart left right ↔ Text.lower left ≠ Text.lower right := by
  rw [Text.Apart, Text.sameIgnoringCase, beq_eq_false_iff_ne]

theorem Text.Apart.symm {left right : Text} (apart : Text.Apart left right) :
    Text.Apart right left :=
  Text.apart_iff.mpr (Text.apart_iff.mp apart).symm

namespace Sql

/-! ## Scopes -/

/-- A table with the alias by which it is known. -/
structure Binding where
  tableAlias : Text
  table : Text
deriving DecidableEq, Repr

/-- The tables that are known at a place of a query, the innermost first. -/
abbrev Scope := List Binding

namespace Scope

def tables (scope : Scope) : List Text :=
  scope.map Binding.table

/-- The innermost table known by an alias, and those around it. -/
def resolve (scope : Scope) (tableAlias : Text) : List Text :=
  tables (scope.dropWhile fun binding => !Text.sameIgnoringCase binding.tableAlias tableAlias)

def HasDistinctAliases (scope : Scope) : Prop :=
  scope.Pairwise fun inner outer => Text.Apart inner.tableAlias outer.tableAlias

theorem resolve_cons_self (tableAlias table : Text) (outer : Scope) :
    resolve (⟨tableAlias, table⟩ :: outer) tableAlias = table :: tables outer := by
  simp [resolve, tables, Text.sameIgnoringCase]

theorem resolve_cons_of_apart {binding : Binding} {tableAlias : Text} (outer : Scope)
    (apart : Text.Apart binding.tableAlias tableAlias) :
    resolve (binding :: outer) tableAlias = resolve outer tableAlias := by
  simp [resolve, show Text.sameIgnoringCase binding.tableAlias tableAlias = false from apart]

end Scope

/-- A column, with the table that it is taken from and the tables around that one. -/
structure Reference where
  column : Text
  tables : List Text
deriving DecidableEq, Repr

/-- The references to the tables of a team subquery that stands inside the given tables. -/
def teamReferences (tables : List Text) : List Reference :=
  ["teamid", "systemuserid"].map fun column => ⟨column, "teammembership" :: tables⟩

/-- The columns of an expression with their aliases. -/
def Expression.columns : Expression -> List (Text × Text)
  | .column tableAlias name => [(tableAlias, name)]
  | .dateAdd _ _ moment => moment.columns
  | .startOf _ moment => moment.columns
  | .partOf _ moment => moment.columns
  | .monthOf moment => moment.columns
  | .yearOf moment => moment.columns
  | .asDate moment => moment.columns
  | .literal _ | .currentUser | .utcNow | .fragment _ => []

def Expression.references (scope : Scope) (expression : Expression) : List Reference :=
  expression.columns.map fun column => ⟨column.2, scope.resolve column.1⟩

/-- The scope inside the subquery of a link. -/
def Join.scope (join : Join) (outer : Scope) : Scope :=
  ⟨join.tableAlias, join.table⟩ :: outer

/-- The columns on which a link is joined. Both are written inside the subquery. -/
def Join.references (join : Join) (outer : Scope) : List Reference :=
  [⟨join.column, (join.scope outer).resolve join.tableAlias⟩,
    ⟨join.outerColumn, (join.scope outer).resolve join.outerAlias⟩]

namespace Predicate

mutual

/-- The references of a predicate in the order in which they are written. -/
def references (scope : Scope) : Predicate -> List Reference
  | .compare _ left right => left.references scope ++ right.references scope
  | .isNull _ tested => tested.references scope
  | .like _ tested _ => tested.references scope
  | .isIn _ tested _ => tested.references scope
  | .between _ tested _ _ => tested.references scope
  | .inUserTeams _ tested =>
      let inner : Scope := ⟨"tm", "teammembership"⟩ :: scope
      tested.references scope ++
        [⟨"teamid", inner.resolve "tm"⟩, ⟨"systemuserid", inner.resolve "tm"⟩]
  | .junction _ parts => referencesEach scope parts
  | .grouped inner => references scope inner
  | .linked _ join => join.references scope
  | .linkedWhere _ join inner => join.references scope ++ references (join.scope scope) inner

def referencesEach (scope : Scope) : List Predicate -> List Reference
  | [] => []
  | part :: parts => references scope part ++ referencesEach scope parts

end

mutual

/-- The scopes of the subqueries for linked rows, each with its own alias first. -/
def subqueries (scope : Scope) : Predicate -> List Scope
  | .junction _ parts => subqueriesEach scope parts
  | .grouped inner => subqueries scope inner
  | .linked _ join => [join.scope scope]
  | .linkedWhere _ join inner => join.scope scope :: subqueries (join.scope scope) inner
  | _ => []

def subqueriesEach (scope : Scope) : List Predicate -> List Scope
  | [] => []
  | part :: parts => subqueries scope part ++ subqueriesEach scope parts

end

end Predicate

attribute [simp] Expression.references Expression.columns Predicate.references
  Predicate.referencesEach Predicate.subqueries Predicate.subqueriesEach

theorem Expression.columns_eq_nil {expression : Expression} (silent : expression.mentions = []) :
    expression.columns = [] := by
  induction expression <;> simp_all [columns]

end Sql

namespace Filter

open Sql (Expression Predicate Reference Scope)

theorem isGathered_references (scope : Scope) : IsGathered (Predicate.references scope) := by
  refine ⟨fun connective parts => ?_, fun inner => ?_⟩
  · rw [Predicate.references]
    induction parts with
    | nil => rw [Predicate.referencesEach, List.flatMap_nil]
    | cons part parts ih => rw [Predicate.referencesEach, ih, List.flatMap_cons]
  · rw [Predicate.references]

theorem isGathered_subqueries (scope : Scope) : IsGathered (Predicate.subqueries scope) := by
  refine ⟨fun connective parts => ?_, fun inner => ?_⟩
  · rw [Predicate.subqueries]
    induction parts with
    | nil => rw [Predicate.subqueriesEach, List.flatMap_nil]
    | cons part parts ih => rw [Predicate.subqueriesEach, ih, List.flatMap_cons]
  · rw [Predicate.subqueries]

/-! ## The references of a view -/

namespace Condition

/-- What a condition speaks about inside the given tables, of which the first is its own. -/
def references (settings : Settings) (condition : Condition) (tables : List Text) :
    List Reference :=
  if condition.isExpressed settings then
    List.replicate condition.operator.columnUses ⟨condition.column, tables⟩ ++
      match condition.operator with
      | .userTeams _ => Sql.teamReferences tables
      | _ => []
  else []

end Condition

mutual

def Item.references (settings : Settings) (tables : List Text) : Item -> List Reference
  | .condition condition => condition.references settings tables
  | .group group => group.references settings tables
  | .link link => link.references settings tables

def Item.referencesEach (settings : Settings) (tables : List Text) : List Item -> List Reference
  | [] => []
  | item :: items => item.references settings tables ++ Item.referencesEach settings tables items

def Group.references (settings : Settings) (tables : List Text) : Group -> List Reference
  | ⟨_, items⟩ => Item.referencesEach settings tables items

def Group.referencesEach (settings : Settings) (tables : List Text) :
    List Group -> List Reference
  | [] => []
  | group :: groups =>
      group.references settings tables ++ Group.referencesEach settings tables groups

/-- A link compares a column of its own table with one of the table outside, and what is in
it speaks about its own table. -/
def Link.references (settings : Settings) (tables : List Text) : Link -> List Reference
  | ⟨table, column, outerColumn, _, kind, filters, links⟩ =>
      if kind.isFollowed column outerColumn then
        [⟨column, table :: tables⟩, ⟨outerColumn, tables⟩] ++
          (Group.referencesEach settings (table :: tables) filters ++
            Link.referencesEach settings (table :: tables) links)
      else []

def Link.referencesEach (settings : Settings) (tables : List Text) : List Link -> List Reference
  | [] => []
  | link :: links => link.references settings tables ++ Link.referencesEach settings tables links

end

/-- What a view speaks about. Aliases play no part in it. -/
def Query.references (settings : Settings) (query : Query) : List Reference :=
  Group.referencesEach settings [query.entity] query.filters ++
    Link.referencesEach settings [query.entity] query.links

/-! ## Conditions -/

namespace LocalTime

variable (time : LocalTime)

@[simp] theorem columns_localise (moment : Expression) :
    (time.localise moment).columns = moment.columns := by
  rw [localise]
  split <;> rw [Expression.columns]

@[simp] theorem columns_now : time.now.columns = [] :=
  Expression.columns_eq_nil time.mentions_now

@[simp] theorem columns_boundary (unit : DateUnit) (count : Int) :
    (time.boundary unit count).columns = [] :=
  Expression.columns_eq_nil (time.mentions_boundary unit count)

@[simp] theorem columns_reference (unit : DateUnit) (neighbour : Neighbour) :
    (time.reference unit neighbour).columns = [] :=
  Expression.columns_eq_nil (time.mentions_reference unit neighbour)

variable (scope : Scope) (column : Expression)

theorem references_inPeriod (period : CalendarPeriod) (neighbour : Neighbour) :
    (time.inPeriod column period neighbour).references scope =
      (List.replicate (ConditionOperator.inPeriod period neighbour).columnUses
        (column.references scope)).flatten := by
  cases period <;>
    simp [inPeriod, ConditionOperator.columnUses, List.replicate]

theorem references_window (unit : DateUnit) (count : Int) (direction : Direction) :
    (time.window column unit count direction).references scope =
      column.references scope ++ column.references scope := by
  cases direction <;>
    simp [window, within]

theorem references_comparedWithDay {day : Expression} (constant : day.columns = [])
    (relation : DayRelation) :
    (Condition.comparedWithDay time column day relation).references scope =
      column.references scope := by
  cases relation <;>
    simp [Condition.comparedWithDay, constant]

@[simp] theorem subqueries_inPeriod (period : CalendarPeriod) (neighbour : Neighbour) :
    (time.inPeriod column period neighbour).subqueries scope = [] := by
  cases period <;> simp [inPeriod]

@[simp] theorem subqueries_window (unit : DateUnit) (count : Int) (direction : Direction) :
    (time.window column unit count direction).subqueries scope = [] := by
  cases direction <;> simp [window, within]

@[simp] theorem subqueries_comparedWithDay (day : Expression) (relation : DayRelation) :
    (Condition.comparedWithDay time column day relation).subqueries scope = [] := by
  cases relation <;> simp [Condition.comparedWithDay]

end LocalTime

namespace Condition

variable {condition : Condition} {settings : Settings} {predicate : Predicate}

/-- A condition speaks about the table that its alias stands for, and about no linked one. -/
theorem references_convert {tableAlias table : Text} {outer : Scope}
    (kept : (condition.convert settings tableAlias).predicate? = some predicate) :
    predicate.references (⟨tableAlias, table⟩ :: outer) =
        condition.references settings (table :: Scope.tables outer) ∧
      predicate.subqueries (⟨tableAlias, table⟩ :: outer) = [] := by
  have expressed : condition.isExpressed settings = true := by
    rw [← condition.isSome_convert settings tableAlias, kept, Option.isSome_some]
  have own : Scope.resolve (⟨tableAlias, table⟩ :: outer) tableAlias =
      table :: Scope.tables outer := Scope.resolve_cons_self tableAlias table outer
  rw [references, if_pos expressed]
  cases yields_of_convert kept with
  | compare isOperator => simp [isOperator, own, ConditionOperator.columnUses]
  | isNull isOperator => simp [isOperator, own, ConditionOperator.columnUses]
  | like isOperator => simp [isOperator, own, ConditionOperator.columnUses]
  | isIn isOperator => simp [isOperator, own, ConditionOperator.columnUses]
  | between isOperator => simp [isOperator, own, ConditionOperator.columnUses]
  | inPeriod isOperator => simp [isOperator, own, LocalTime.references_inPeriod]
  | sevenDays isOperator =>
      simp [isOperator, own, LocalTime.references_window, ConditionOperator.columnUses,
        List.replicate]
  | window isOperator =>
      simp [isOperator, own, LocalTime.references_window, ConditionOperator.columnUses,
        List.replicate]
  | olderThan isOperator =>
      simp [isOperator, own, LocalTime.olderThan, LocalTime.nowPlus, ConditionOperator.columnUses]
  | @day _ value isOperator =>
      have constant : (Expression.literal (.ofText value)).columns = [] := rfl
      simp [isOperator, own, LocalTime.references_comparedWithDay _ _ _ constant,
        ConditionOperator.columnUses]
  | currentUser isOperator => simp [isOperator, own, ConditionOperator.columnUses]
  | userTeams isOperator =>
      simp [isOperator, own, ConditionOperator.columnUses, Sql.teamReferences,
        Scope.resolve_cons_self]
      rfl

end Condition

/-! ## Aliases that are given out -/

theorem toLower_of_isDigit {c : Char} (digit : Decimal.isDigit c = true) : c.toLower = c := by
  have bounds := (Text.isDigit_iff c).mp digit
  have notUpper : ¬('A'.val ≤ c.val ∧ c.val ≤ 'Z'.val) := by
    intro upper
    have least : 65 ≤ c.toNat := upper.1
    omega
  exact dif_neg notUpper

theorem lower_generatedAlias (number : Nat) :
    Text.lower (generatedAlias number) = generatedAlias number := by
  have digits : Text.lower (Decimal.natural number) = Decimal.natural number := by
    rw [Text.lower]
    conv_rhs => rw [← List.map_id (Decimal.natural number)]
    exact List.map_congr_left fun c member => toLower_of_isDigit (Sql.isDigit_of_mem_natural member)
  rw [generatedAlias, Text.lower, List.map_append, ← Text.lower, ← Text.lower, digits]
  rfl

/-- Different aliases are given out for different numbers. -/
theorem apart_generatedAlias {left right : Nat} (different : left ≠ right) :
    Text.Apart (generatedAlias left) (generatedAlias right) := by
  rw [Text.apart_iff, lower_generatedAlias, lower_generatedAlias]
  intro same
  have digits : Decimal.natural left = Decimal.natural right := List.append_cancel_left same
  refine different ?_
  rw [← Nat.ofDigitChars_toDigits (b := 10) (n := left) (by decide) (by decide),
    ← Nat.ofDigitChars_toDigits (b := 10) (n := right) (by decide) (by decide)]
  exact congrArg (Nat.ofDigitChars 10 · 0) digits

/-! ## Aliases that are written -/

mutual

/-- The aliases that are written in an item, of all links in it. -/
def Item.writtenAliases : Item -> List Text
  | .condition _ => []
  | .group group => group.writtenAliases
  | .link link => link.writtenAliases

def Item.writtenAliasesEach : List Item -> List Text
  | [] => []
  | item :: items => item.writtenAliases ++ Item.writtenAliasesEach items

def Group.writtenAliases : Group -> List Text
  | ⟨_, items⟩ => Item.writtenAliasesEach items

def Group.writtenAliasesEach : List Group -> List Text
  | [] => []
  | group :: groups => group.writtenAliases ++ Group.writtenAliasesEach groups

def Link.writtenAliases : Link -> List Text
  | ⟨_, _, _, tableAlias, _, filters, links⟩ =>
      tableAlias.toList ++ (Group.writtenAliasesEach filters ++ Link.writtenAliasesEach links)

def Link.writtenAliasesEach : List Link -> List Text
  | [] => []
  | link :: links => link.writtenAliases ++ Link.writtenAliasesEach links

end

def Query.writtenAliases (query : Query) : List Text :=
  Group.writtenAliasesEach query.filters ++ Link.writtenAliasesEach query.links

/-- How many aliases are given out in a view. -/
def Query.aliasCount (query : Query) : Nat :=
  Group.aliasCountEach query.filters + Link.aliasCountEach query.links

/-- Inside a scope, `count` aliases may be given out from `next` on beside the written ones. -/
structure Permits (scope : Scope) (written : List Text) (next count : Nat) : Prop where
  enclosing : scope.HasDistinctAliases
  distinct : written.Pairwise Text.Apart
  unbound : ∀ own ∈ written, ∀ binding ∈ scope, Text.Apart own binding.tableAlias
  unused : ∀ number, next ≤ number -> number < next + count -> ∀ binding ∈ scope,
    Text.Apart (generatedAlias number) binding.tableAlias
  free : ∀ number, next ≤ number -> number < next + count -> ∀ own ∈ written,
    Text.Apart (generatedAlias number) own

namespace Permits

variable {scope : Scope} {written more : List Text} {next count others : Nat}

theorem front (permits : Permits scope (written ++ more) next (count + others)) :
    Permits scope written next count where
  enclosing := permits.enclosing
  distinct := (List.pairwise_append.mp permits.distinct).1
  unbound := fun own member => permits.unbound own (List.mem_append_left more member)
  unused := fun number least most => permits.unused number least (by omega)
  free := fun number least most own member =>
    permits.free number least (by omega) own (List.mem_append_left more member)

theorem back (permits : Permits scope (written ++ more) next (count + others)) :
    Permits scope more (next + count) others where
  enclosing := permits.enclosing
  distinct := (List.pairwise_append.mp permits.distinct).2.1
  unbound := fun own member => permits.unbound own (List.mem_append_right written member)
  unused := fun number least most => permits.unused number (by omega) (by omega)
  free := fun number least most own member =>
    permits.free number (by omega) (by omega) own (List.mem_append_right written member)

/-- The alias of a link differs from those around it, and the link is permitted whatever the
place was permitted beside it. -/
theorem enter {tableAlias : Option Text} (table : Text)
    (permits : Permits scope (tableAlias.toList ++ written) next (takenBy tableAlias + count)) :
    Permits (⟨linkAlias next tableAlias, table⟩ :: scope) written (next + takenBy tableAlias)
      count := by
  have rest := permits.back
  cases tableAlias with
  | some own =>
      refine ⟨?_, rest.distinct, ?_, ?_, rest.free⟩
      · exact .cons (permits.unbound own List.mem_cons_self) rest.enclosing
      · intro inner member
        have apart := (List.pairwise_cons.mp permits.distinct).1 inner member
        exact List.forall_mem_cons.mpr ⟨apart.symm, rest.unbound inner member⟩
      · intro number least most
        exact List.forall_mem_cons.mpr
          ⟨permits.free number least (by simpa [takenBy] using most) own List.mem_cons_self,
            rest.unused number least most⟩
  | none =>
      have first : next < next + (takenBy none + count) := by
        have one : takenBy none = 1 := rfl
        omega
      refine ⟨?_, rest.distinct, ?_, ?_, rest.free⟩
      · exact .cons (permits.unused next (Nat.le_refl next) first) rest.enclosing
      · intro inner member
        have apart := permits.free next (Nat.le_refl next) first inner member
        exact List.forall_mem_cons.mpr ⟨apart.symm, rest.unbound inner member⟩
      · intro number least most
        have later : number ≠ next := by
          rintro rfl
          exact absurd least (by simp [takenBy])
        exact List.forall_mem_cons.mpr
          ⟨apart_generatedAlias later, rest.unused number least most⟩

end Permits

/-! ## The walk through a filter -/

/-- Predicates that open subqueries under distinct aliases and have the expected references. -/
structure Resolves (scope : Scope) (expected : List Reference) (parts : List Predicate) :
    Prop where
  distinct : ∀ inner ∈ parts.flatMap (Predicate.subqueries scope), Scope.HasDistinctAliases inner
  references : parts.flatMap (Predicate.references scope) = expected

namespace Resolves

variable {scope : Scope} {expected : List Reference} {parts : List Predicate}

theorem nil : Resolves scope [] [] :=
  ⟨by simp, rfl⟩

theorem append {others : List Reference} {more : List Predicate}
    (first : Resolves scope expected parts) (second : Resolves scope others more) :
    Resolves scope (expected ++ others) (parts ++ more) := by
  refine ⟨?_, by rw [List.flatMap_append, first.references, second.references]⟩
  intro inner member
  rw [List.flatMap_append] at member
  exact (List.mem_append.mp member).elim (first.distinct inner) (second.distinct inner)

/-- Parts that are put together keep their subqueries and references. -/
theorem of_eq {joined : List Predicate} (each : Resolves scope expected parts)
    (subqueries : joined.flatMap (Predicate.subqueries scope) =
      parts.flatMap (Predicate.subqueries scope))
    (references : joined.flatMap (Predicate.references scope) =
      parts.flatMap (Predicate.references scope)) : Resolves scope expected joined :=
  ⟨by rw [subqueries]; exact each.distinct, references.trans each.references⟩

theorem join (each : Resolves scope expected parts) (connective : Connective) :
    Resolves scope expected (Group.join connective parts).toList :=
  each.of_eq ((isGathered_subqueries scope).join connective parts)
    ((isGathered_references scope).join connective parts)

theorem all? (each : Resolves scope expected parts) :
    Resolves scope expected (Predicate.all? parts).toList :=
  each.of_eq ((isGathered_subqueries scope).all? parts) ((isGathered_references scope).all? parts)

theorem grouped {part : Option Predicate} (inner : Resolves scope expected part.toList) :
    Resolves scope expected (part.map Predicate.grouped).toList :=
  inner.of_eq ((isGathered_subqueries scope).grouped? part)
    ((isGathered_references scope).grouped? part)

end Resolves

section Walk

variable (settings : Settings) (tableAlias table : Text) (outer : Scope)

theorem Condition.resolves_convert (condition : Condition) :
    Resolves (⟨tableAlias, table⟩ :: outer)
      (condition.references settings (table :: Scope.tables outer))
      (condition.convert settings tableAlias).predicate?.toList := by
  cases kept : (condition.convert settings tableAlias).predicate? with
  | none =>
      have unexpressed : ¬condition.isExpressed settings = true := by
        rw [← condition.isSome_convert settings tableAlias, kept]
        exact Bool.false_ne_true
      rw [Condition.references, if_neg unexpressed]
      exact .nil
  | some predicate =>
      obtain ⟨references, subqueries⟩ := Condition.references_convert kept
      refine ⟨?_, ?_⟩
      · rw [Option.toList_some, List.flatMap_singleton, subqueries]
        simp
      · rw [Option.toList_some, List.flatMap_singleton, references]

/-- A link refers to its own table and to the one outside, and what is in it is resolved
inside its scope. -/
theorem resolves_linkPredicate (join : Sql.Join) {negated : Bool} {expected : List Reference}
    {parts : List Predicate} (outside : join.outerAlias = tableAlias)
    (distinct : Scope.HasDistinctAliases (join.scope (⟨tableAlias, table⟩ :: outer)))
    (inner : Resolves (join.scope (⟨tableAlias, table⟩ :: outer)) expected parts) :
    Resolves (⟨tableAlias, table⟩ :: outer)
      ([⟨join.column, join.table :: table :: Scope.tables outer⟩,
        ⟨join.outerColumn, table :: Scope.tables outer⟩] ++ expected)
      [linkPredicate negated join parts] := by
  have apart : Text.Apart join.tableAlias tableAlias :=
    (List.pairwise_cons.mp distinct).1 ⟨tableAlias, table⟩ List.mem_cons_self
  have own : join.references (⟨tableAlias, table⟩ :: outer) =
      [⟨join.column, join.table :: table :: Scope.tables outer⟩,
        ⟨join.outerColumn, table :: Scope.tables outer⟩] := by
    rw [Sql.Join.references, Sql.Join.scope, Scope.resolve_cons_self, outside,
      Scope.resolve_cons_of_apart _ apart, Scope.resolve_cons_self]
    rfl
  have subqueries : (linkPredicate negated join parts).subqueries (⟨tableAlias, table⟩ :: outer) =
      [join.scope (⟨tableAlias, table⟩ :: outer)] ++
        parts.flatMap (Predicate.subqueries (join.scope (⟨tableAlias, table⟩ :: outer))) :=
    (isGathered_subqueries _).linkPredicate (by rw [Predicate.subqueries])
      (fun _ => by rw [Predicate.subqueries]; rfl) parts
  have references : (linkPredicate negated join parts).references (⟨tableAlias, table⟩ :: outer) =
      join.references (⟨tableAlias, table⟩ :: outer) ++
        parts.flatMap (Predicate.references (join.scope (⟨tableAlias, table⟩ :: outer))) :=
    (isGathered_references _).linkPredicate (by rw [Predicate.references])
      (fun _ => by rw [Predicate.references]) parts
  refine ⟨?_, ?_⟩
  · rw [List.flatMap_singleton, subqueries, List.singleton_append]
    exact List.forall_mem_cons.mpr ⟨distinct, inner.distinct⟩
  · rw [List.flatMap_singleton, references, inner.references, own]

end Walk

variable (settings : Settings)

mutual

theorem Item.resolves_convert {tableAlias table : Text} {outer : Scope} {next : Nat} (item : Item)
    (permits : Permits (⟨tableAlias, table⟩ :: outer) item.writtenAliases next item.aliasCount) :
    Resolves (⟨tableAlias, table⟩ :: outer) (item.references settings (table :: Scope.tables outer))
      (item.convert settings tableAlias next).value.toList := by
  cases item with
  | condition condition =>
      rw [Item.convert, Item.references]
      exact condition.resolves_convert settings tableAlias table outer
  | group group =>
      rw [Item.writtenAliases, Item.aliasCount] at permits
      rw [Item.convert, Item.references]
      exact (Group.resolves_convert group permits).grouped
  | link link =>
      rw [Item.writtenAliases, Item.aliasCount] at permits
      rw [Item.convert, Item.references]
      exact Link.resolves_convert link permits

theorem Item.resolves_convertEach {tableAlias table : Text} {outer : Scope} {next : Nat}
    (items : List Item)
    (permits : Permits (⟨tableAlias, table⟩ :: outer) (Item.writtenAliasesEach items) next
      (Item.aliasCountEach items)) :
    Resolves (⟨tableAlias, table⟩ :: outer)
      (Item.referencesEach settings (table :: Scope.tables outer) items)
      (Item.convertEach settings tableAlias next items).value := by
  cases items with
  | nil =>
      rw [Item.convertEach, Item.referencesEach]
      exact .nil
  | cons item items =>
      rw [Item.writtenAliasesEach, Item.aliasCountEach] at permits
      rw [Item.value_convertEach_cons, Item.referencesEach]
      exact (Item.resolves_convert item permits.front).append
        (Item.resolves_convertEach items permits.back)

theorem Group.resolves_convert {tableAlias table : Text} {outer : Scope} {next : Nat}
    (group : Group)
    (permits : Permits (⟨tableAlias, table⟩ :: outer) group.writtenAliases next
      group.aliasCount) :
    Resolves (⟨tableAlias, table⟩ :: outer)
      (group.references settings (table :: Scope.tables outer))
      (group.convert settings tableAlias next).value.toList := by
  cases group with
  | mk connective items =>
      rw [Group.writtenAliases, Group.aliasCount] at permits
      rw [Group.convert, Group.references]
      exact (Item.resolves_convertEach items permits).join connective

theorem Group.resolves_convertEach {tableAlias table : Text} {outer : Scope} {next : Nat}
    (groups : List Group)
    (permits : Permits (⟨tableAlias, table⟩ :: outer) (Group.writtenAliasesEach groups) next
      (Group.aliasCountEach groups)) :
    Resolves (⟨tableAlias, table⟩ :: outer)
      (Group.referencesEach settings (table :: Scope.tables outer) groups)
      (Group.convertEach settings tableAlias next groups).value := by
  cases groups with
  | nil =>
      rw [Group.convertEach, Group.referencesEach]
      exact .nil
  | cons group groups =>
      rw [Group.writtenAliasesEach, Group.aliasCountEach] at permits
      rw [Group.value_convertEach_cons, Group.referencesEach]
      exact (Group.resolves_convert group permits.front).append
        (Group.resolves_convertEach groups permits.back)

theorem Link.resolves_convert {tableAlias table : Text} {outer : Scope} {next : Nat} (link : Link)
    (permits : Permits (⟨tableAlias, table⟩ :: outer) link.writtenAliases next link.aliasCount) :
    Resolves (⟨tableAlias, table⟩ :: outer) (link.references settings (table :: Scope.tables outer))
      (link.convert settings tableAlias next).value.toList := by
  cases link with
  | mk linked column outerColumn ownAlias kind filters links =>
      rw [Link.value_convert, Link.references]
      split
      · next followed =>
          rw [Link.writtenAliases, Link.aliasCount, if_pos followed] at permits
          have inside := permits.enter linked
          exact resolves_linkPredicate tableAlias table outer
            ⟨linked, linkAlias next ownAlias, column, tableAlias, outerColumn⟩ rfl inside.enclosing
            ((Group.resolves_convertEach filters inside.front).append
              (Link.resolves_convertEach links inside.back))
      · exact .nil

theorem Link.resolves_convertEach {tableAlias table : Text} {outer : Scope} {next : Nat}
    (links : List Link)
    (permits : Permits (⟨tableAlias, table⟩ :: outer) (Link.writtenAliasesEach links) next
      (Link.aliasCountEach links)) :
    Resolves (⟨tableAlias, table⟩ :: outer)
      (Link.referencesEach settings (table :: Scope.tables outer) links)
      (Link.convertEach settings tableAlias next links).value := by
  cases links with
  | nil =>
      rw [Link.convertEach, Link.referencesEach]
      exact .nil
  | cons link links =>
      rw [Link.writtenAliasesEach, Link.aliasCountEach] at permits
      rw [Link.value_convertEach_cons, Link.referencesEach]
      exact (Link.resolves_convert link permits.front).append
        (Link.resolves_convertEach links permits.back)

end

/-- The scope of a view outside of its links. -/
def Query.scope (tableAlias : Text) (query : Query) : Scope :=
  [⟨tableAlias, query.entity⟩]

/-- Subqueries do not capture the aliases of others. If no alias is written twice, and none
that is given out is written, then the alias of every subquery differs from the aliases around
it, and the references of the row filter are those of the view. -/
theorem Query.resolves_references_convert (settings : Settings) (tableAlias : Text)
    (query : Query)
    (distinct : (tableAlias :: query.writtenAliases).Pairwise Text.Apart)
    (free : ∀ number < query.aliasCount, ∀ own ∈ tableAlias :: query.writtenAliases,
      Text.Apart (generatedAlias number) own) :
    Resolves (query.scope tableAlias) (query.references settings)
      (query.convert settings tableAlias).predicate.toList := by
  obtain ⟨apart, written⟩ := List.pairwise_cons.mp distinct
  have permits : Permits (query.scope tableAlias) query.writtenAliases 0 query.aliasCount := by
    refine ⟨List.pairwise_singleton _ _, written, ?_, ?_, ?_⟩
    · intro own member binding inside
      rw [List.mem_singleton.mp inside]
      exact (apart own member).symm
    · intro number _ most binding inside
      rw [List.mem_singleton.mp inside]
      exact free number (by omega) tableAlias List.mem_cons_self
    · intro number _ most own member
      exact free number (by omega) own (List.mem_cons_of_mem tableAlias member)
  have filters := Group.resolves_convertEach settings query.filters permits.front
  have links := Link.resolves_convertEach settings query.links permits.back
  rw [Nat.zero_add] at links
  rw [Query.predicate_convert]
  exact (filters.append links).all?

/-- Accounts that have a contact with an open task. The alias of the inner link is written. -/
def taskView (ownAlias : Text) : Query :=
  ⟨"account", [],
    [⟨"contact", "parentcustomerid", "accountid", none, .inner, [],
      [⟨"task", "regardingobjectid", "contactid", some ownAlias, .inner,
        [⟨.and, [.condition ⟨"statecode", .compare .equal, some "0", [], none⟩]⟩], []⟩]⟩]⟩

theorem Query.resolves_references_convert_taskView :
    ((("Base" : Text) :: (taskView "t").writtenAliases).Pairwise Text.Apart ∧
      ∀ number < (taskView "t").aliasCount,
        ∀ own ∈ ("Base" : Text) :: (taskView "t").writtenAliases,
          Text.Apart (generatedAlias number) own) ∧
    Resolves ((taskView "t").scope "Base") ((taskView "t").references ⟨⟨0⟩, .unrestricted⟩)
      ((taskView "t").convert ⟨⟨0⟩, .unrestricted⟩ "Base").predicate.toList :=
  ⟨⟨by decide +kernel, by decide +kernel⟩,
    Query.resolves_references_convert _ _ _ (by decide +kernel) (by decide +kernel)⟩

/-- An alias that is given out may be written further inside. Then both columns on which the
inner link is joined are taken from its own table. -/
theorem Query.captures_convert_taskView :
    (("Base" : Text) :: (taskView "le0").writtenAliases).Pairwise Text.Apart ∧
      ¬Resolves ((taskView "le0").scope "Base") ((taskView "le0").references ⟨⟨0⟩, .unrestricted⟩)
        ((taskView "le0").convert ⟨⟨0⟩, .unrestricted⟩ "Base").predicate.toList := by
  refine ⟨by decide +kernel, fun resolves => ?_⟩
  exact absurd resolves.references (by decide +kernel)

end Filter

end TabularModel
