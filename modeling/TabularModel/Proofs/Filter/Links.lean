import TabularModel.Filter.Conversion

/-!
# Links and their aliases

A link that is followed becomes an existence test, and one without an alias of
its own takes the next number. How many numbers a part of a filter takes does not
depend on where the counting begins.
-/

set_option autoImplicit false

namespace TabularModel

namespace Filter

open Sql (Predicate)

/-- Whether a link of this kind between these columns restricts rows. -/
def LinkKind.isFollowed (kind : LinkKind) (column outerColumn : Text) : Bool :=
  match kind with
  | .outer => false
  | .other _ => false
  | .inner | .any | .notAny => !Text.allBlank column && !Text.allBlank outerColumn

/-- The numbers that the alias of a link takes. -/
def takenBy (tableAlias : Option Text) : Nat :=
  if tableAlias.isSome then 0 else 1

mutual

/-- How many aliases are given out in an item. -/
def Item.aliasCount : Item -> Nat
  | .condition _ => 0
  | .group group => group.aliasCount
  | .link link => link.aliasCount

def Item.aliasCountEach : List Item -> Nat
  | [] => 0
  | item :: items => item.aliasCount + Item.aliasCountEach items

def Group.aliasCount : Group -> Nat
  | ⟨_, items⟩ => Item.aliasCountEach items

def Group.aliasCountEach : List Group -> Nat
  | [] => 0
  | group :: groups => group.aliasCount + Group.aliasCountEach groups

def Link.aliasCount : Link -> Nat
  | ⟨_, column, outerColumn, tableAlias, kind, filters, links⟩ =>
      if kind.isFollowed column outerColumn then
        takenBy tableAlias + (Group.aliasCountEach filters + Link.aliasCountEach links)
      else 0

def Link.aliasCountEach : List Link -> Nat
  | [] => 0
  | link :: links => link.aliasCount + Link.aliasCountEach links

end

/-- The predicate of a link whose filters and links have become `parts`. -/
def linkPredicate (negated : Bool) (join : Sql.Join) (parts : List Predicate) : Predicate :=
  match Predicate.all? parts with
  | none => .linked negated join
  | some condition => .linkedWhere negated join condition

/-- The alias of a link, its own one or the next that is given out. -/
def linkAlias (next : Nat) (tableAlias : Option Text) : Text :=
  tableAlias.getD (generatedAlias next)

section Conversion

variable (settings : Settings) (outerAlias : Text) (next : Nat)
variable (table : Text) {column outerColumn : Text} (tableAlias : Option Text) {kind : LinkKind}
variable (filters : List Group) (links : List Link)

theorem Link.convert_of_not_followed (skipped : kind.isFollowed column outerColumn = false) :
    ∃ notes, Link.convert settings outerAlias next
      ⟨table, column, outerColumn, tableAlias, kind, filters, links⟩ = ⟨none, notes, next⟩ := by
  cases kind with
  | outer => exact ⟨_, rfl⟩
  | other name => exact ⟨_, rfl⟩
  | inner | any | notAny =>
      rw [LinkKind.isFollowed, ← Bool.not_or, Bool.not_eq_false'] at skipped
      rw [Link.convert, skipped]
      exact ⟨_, rfl⟩

/-- The filters and the links of a followed link. -/
def linkParts : Step (List Predicate) × Step (List Predicate) :=
  let joinAlias := linkAlias next tableAlias
  let inner := Group.convertEach settings joinAlias (next + takenBy tableAlias) filters
  (inner, Link.convertEach settings joinAlias inner.nextAlias links)

theorem Link.convert_of_followed (followed : kind.isFollowed column outerColumn = true)
    {inner nested : Step (List Predicate)}
    (parts : linkParts settings next tableAlias filters links = (inner, nested)) :
    ∃ notes, Link.convert settings outerAlias next
      ⟨table, column, outerColumn, tableAlias, kind, filters, links⟩ =
        ⟨some (linkPredicate (kind == .notAny)
            ⟨table, linkAlias next tableAlias, column, outerAlias, outerColumn⟩
            (inner.value ++ nested.value)), notes, nested.nextAlias⟩ := by
  have taken : (if tableAlias.isSome then next else next + 1) = next + takenBy tableAlias := by
    rw [takenBy]
    split <;> rfl
  cases parts
  cases kind with
  | outer => cases followed
  | other name => cases followed
  | inner | any | notAny =>
      rw [LinkKind.isFollowed, ← Bool.not_or, Bool.not_eq_true'] at followed
      rw [Link.convert, followed]
      simp only [Bool.false_eq_true, if_false, taken]
      exact ⟨_, rfl⟩

end Conversion

mutual

theorem Item.nextAlias_convert (settings : Settings) (tableAlias : Text) (next : Nat)
    (item : Item) : (item.convert settings tableAlias next).nextAlias = next + item.aliasCount := by
  cases item with
  | condition condition => rw [Item.convert, Item.aliasCount, Nat.add_zero]
  | group group =>
      rw [Item.convert, Item.aliasCount]
      exact Group.nextAlias_convert settings tableAlias next group
  | link link =>
      rw [Item.convert, Item.aliasCount]
      exact Link.nextAlias_convert settings tableAlias next link

theorem Item.nextAlias_convertEach (settings : Settings) (tableAlias : Text) (next : Nat)
    (items : List Item) :
    (Item.convertEach settings tableAlias next items).nextAlias =
      next + Item.aliasCountEach items := by
  cases items with
  | nil => rw [Item.convertEach, Item.aliasCountEach, Nat.add_zero]
  | cons item items =>
      have first := Item.nextAlias_convert settings tableAlias next item
      have others := Item.nextAlias_convertEach settings tableAlias (next + item.aliasCount) items
      rw [Item.convertEach, Item.aliasCountEach, first, ← Nat.add_assoc]
      exact others

theorem Group.nextAlias_convert (settings : Settings) (tableAlias : Text) (next : Nat)
    (group : Group) :
    (group.convert settings tableAlias next).nextAlias = next + group.aliasCount := by
  cases group with
  | mk connective items =>
      rw [Group.convert, Group.aliasCount]
      exact Item.nextAlias_convertEach settings tableAlias next items

theorem Group.nextAlias_convertEach (settings : Settings) (tableAlias : Text) (next : Nat)
    (groups : List Group) :
    (Group.convertEach settings tableAlias next groups).nextAlias =
      next + Group.aliasCountEach groups := by
  cases groups with
  | nil => rw [Group.convertEach, Group.aliasCountEach, Nat.add_zero]
  | cons group groups =>
      have first := Group.nextAlias_convert settings tableAlias next group
      have others := Group.nextAlias_convertEach settings tableAlias (next + group.aliasCount) groups
      rw [Group.convertEach, Group.aliasCountEach, first, ← Nat.add_assoc]
      exact others

theorem Link.nextAlias_convert (settings : Settings) (outerAlias : Text) (next : Nat)
    (link : Link) :
    (link.convert settings outerAlias next).nextAlias = next + link.aliasCount := by
  cases link with
  | mk table column outerColumn tableAlias kind filters links =>
      rw [Link.aliasCount]
      split
      · next followed =>
          obtain ⟨_, converted⟩ :=
            Link.convert_of_followed settings outerAlias next table tableAlias filters links followed
              rfl
          have inner := Group.nextAlias_convertEach settings (linkAlias next tableAlias)
            (next + takenBy tableAlias) filters
          rw [converted, Link.nextAlias_convertEach, inner]
          omega
      · next skipped =>
          obtain ⟨_, converted⟩ :=
            Link.convert_of_not_followed settings outerAlias next table tableAlias filters links
              (Bool.eq_false_iff.mpr skipped)
          rw [converted, Nat.add_zero]

theorem Link.nextAlias_convertEach (settings : Settings) (outerAlias : Text) (next : Nat)
    (links : List Link) :
    (Link.convertEach settings outerAlias next links).nextAlias =
      next + Link.aliasCountEach links := by
  cases links with
  | nil => rw [Link.convertEach, Link.aliasCountEach, Nat.add_zero]
  | cons link links =>
      have first := Link.nextAlias_convert settings outerAlias next link
      have others := Link.nextAlias_convertEach settings outerAlias (next + link.aliasCount) links
      rw [Link.convertEach, Link.aliasCountEach, first, ← Nat.add_assoc]
      exact others

end

/-! ## What is written, with the numbers counted -/

theorem Item.value_convertEach_cons (settings : Settings) (tableAlias : Text) (next : Nat)
    (item : Item) (items : List Item) :
    (Item.convertEach settings tableAlias next (item :: items)).value =
      (item.convert settings tableAlias next).value.toList ++
        (Item.convertEach settings tableAlias (next + item.aliasCount) items).value := by
  rw [Item.convertEach, Item.nextAlias_convert]

theorem Group.value_convertEach_cons (settings : Settings) (tableAlias : Text) (next : Nat)
    (group : Group) (groups : List Group) :
    (Group.convertEach settings tableAlias next (group :: groups)).value =
      (group.convert settings tableAlias next).value.toList ++
        (Group.convertEach settings tableAlias (next + group.aliasCount) groups).value := by
  rw [Group.convertEach, Group.nextAlias_convert]

theorem Link.value_convertEach_cons (settings : Settings) (outerAlias : Text) (next : Nat)
    (link : Link) (links : List Link) :
    (Link.convertEach settings outerAlias next (link :: links)).value =
      (link.convert settings outerAlias next).value.toList ++
        (Link.convertEach settings outerAlias (next + link.aliasCount) links).value := by
  rw [Link.convertEach, Link.nextAlias_convert]

theorem Link.value_convert (settings : Settings) (outerAlias : Text) (next : Nat)
    (table column outerColumn : Text) (tableAlias : Option Text) (kind : LinkKind)
    (filters : List Group) (links : List Link) :
    (Link.convert settings outerAlias next
      ⟨table, column, outerColumn, tableAlias, kind, filters, links⟩).value =
      if kind.isFollowed column outerColumn then
        some (linkPredicate (kind == .notAny)
          ⟨table, linkAlias next tableAlias, column, outerAlias, outerColumn⟩
          ((Group.convertEach settings (linkAlias next tableAlias) (next + takenBy tableAlias)
              filters).value ++
            (Link.convertEach settings (linkAlias next tableAlias)
              (next + takenBy tableAlias + Group.aliasCountEach filters) links).value))
      else none := by
  split
  · next followed =>
      obtain ⟨_, converted⟩ :=
        Link.convert_of_followed settings outerAlias next table tableAlias filters links followed rfl
      rw [converted, Group.nextAlias_convertEach]
  · next skipped =>
      obtain ⟨_, converted⟩ :=
        Link.convert_of_not_followed settings outerAlias next table tableAlias filters links
          (Bool.eq_false_iff.mpr skipped)
      rw [converted]

theorem Query.predicate_convert (settings : Settings) (tableAlias : Text) (query : Query) :
    (query.convert settings tableAlias).predicate =
      Predicate.all? ((Group.convertEach settings tableAlias 0 query.filters).value ++
        (Link.convertEach settings tableAlias (Group.aliasCountEach query.filters)
          query.links).value) := by
  rw [Query.convert, Group.nextAlias_convertEach, Nat.zero_add]

end Filter

end TabularModel
