import TabularModel.Proofs.Filter.Visits

/-!
# Filters without a user

A replica and an import know no user who asks. There a filter is converted as if the
conditions on the user had never been in it: the same numbers of aliases are given out, the
same predicates are put together, and the same notes are made. In between stands one report
for each of these conditions that is visited.
-/

set_option autoImplicit false

namespace TabularModel

namespace Filter

open Sql (Predicate)

/-! ## What is said about the user -/

/-- Whether a condition on its own table asks for the user or for the teams of the user. -/
def Condition.isOnUser (condition : Condition) : Bool :=
  condition.joinAlias.isNone && condition.operator.asksForUser

def Unsupported.isOnUser : Unsupported -> Bool
  | .noUser _ _ _ => true
  | _ => false

def Note.isOnUser (note : Note) : Bool :=
  note.unsupported?.any Unsupported.isOnUser

def Visit.onUser? : Visit -> Option Condition
  | .condition _ tested => if tested.isOnUser then some tested else none
  | .link _ _ _ => none

/-- The visited conditions on the user, in the order of the filter. -/
def Query.onUser (tableAlias : Text) (query : Query) : List Condition :=
  (query.visits tableAlias).filterMap Visit.onUser?

mutual

def Item.withoutUser? : Item -> Option Item
  | .condition condition => if condition.isOnUser then none else some (.condition condition)
  | .group group => some (.group group.withoutUser)
  | .link link => some (.link link.withoutUser)

def Item.withoutUserEach : List Item -> List Item
  | [] => []
  | item :: items => item.withoutUser?.toList ++ Item.withoutUserEach items

/-- A group stays even if nothing is left in it. -/
def Group.withoutUser : Group -> Group
  | ⟨connective, items⟩ => ⟨connective, Item.withoutUserEach items⟩

def Group.withoutUserEach : List Group -> List Group
  | [] => []
  | group :: groups => group.withoutUser :: Group.withoutUserEach groups

def Link.withoutUser : Link -> Link
  | ⟨table, column, outerColumn, tableAlias, kind, filters, links⟩ =>
      ⟨table, column, outerColumn, tableAlias, kind, Group.withoutUserEach filters,
        Link.withoutUserEach links⟩

def Link.withoutUserEach : List Link -> List Link
  | [] => []
  | link :: links => link.withoutUser :: Link.withoutUserEach links

end

/-- A filter without the conditions on the user, at whatever depth they stand. -/
def Query.withoutUser (query : Query) : Query :=
  ⟨query.entity, Group.withoutUserEach query.filters, Link.withoutUserEach query.links⟩

/-- The same settings where the user is known. -/
def Settings.withUser (settings : Settings) : Settings :=
  { settings with environment := .unrestricted }

/-! ## Conditions -/

theorem Environment.exists_missingUser? {environment : Environment}
    (restricted : environment.replicaSource = true ∨ environment.importMode = true) :
    ∃ reason, environment.missingUser? = some reason := by
  rw [Environment.missingUser?]
  split
  · exact ⟨_, rfl⟩
  · next other => exact ⟨_, if_pos (restricted.resolve_left other)⟩

namespace Condition

variable {condition : Condition} {settings : Settings} {reason : Text} (tableAlias : Text)

theorem isOnUser_iff :
    condition.isOnUser = true ↔
      condition.joinAlias = none ∧ condition.operator.asksForUser = true := by
  rw [isOnUser, Bool.and_eq_true, Option.isNone_iff_eq_none]

/-- A condition on a missing user is left out. -/
theorem convert_of_isOnUser (missing : settings.environment.missingUser? = some reason)
    (onUser : condition.isOnUser = true) :
    condition.convert settings tableAlias =
      .dropped (.noUser condition.operator condition.column reason) := by
  obtain ⟨here, asks⟩ := isOnUser_iff.mp onUser
  exact convert_of_isObstacle tableAlias (.noUser here asks missing)

/-- Another condition does not depend on whether there is a user. -/
theorem convert_withUser (other : condition.isOnUser = false) :
    condition.convert settings.withUser tableAlias = condition.convert settings tableAlias := by
  rw [convert, convert]
  cases elsewhere : condition.joinAlias with
  | some joinAlias => rfl
  | none =>
      have noUser : condition.operator.asksForUser = false := by
        rw [isOnUser, elsewhere] at other
        exact other
      cases isOperator : condition.operator with
      | currentUser negated =>
          rw [isOperator] at noUser
          cases noUser
      | userTeams negated =>
          rw [isOperator] at noUser
          cases noUser
      | _ => rfl

theorem isOnUser_of_report? (other : condition.isOnUser = false) {feature : Unsupported}
    (reported : (condition.convert settings tableAlias).report? = some feature) :
    feature.isOnUser = false := by
  have apart (here : condition.joinAlias = none) : condition.operator.asksForUser = false := by
    rw [isOnUser, here] at other
    exact other
  have becomes := condition.becomes_convert settings tableAlias
  generalize condition.convert settings tableAlias = outcome at becomes reported
  cases becomes with
  | full predicate => cases reported
  | partly predicate feature asks =>
      obtain ⟨here, ⟨negated, teams⟩, _⟩ := asks
      have asked := apart here
      rw [teams] at asked
      cases asked
  | dropped obstacle =>
      cases reported
      cases obstacle with
      | noUser here asks missing => rw [apart here] at asks; cases asks
      | _ => rfl
  | vacuous empty => cases reported

end Condition

theorem Outcome.filter_notes (condition : Condition) {outcome : Outcome}
    (other : ∀ feature, outcome.report? = some feature -> feature.isOnUser = false) :
    (outcome.notes condition).filter (!·.isOnUser) = outcome.notes condition := by
  refine List.filter_eq_self.mpr fun note member => ?_
  cases outcome with
  | full predicate =>
      rw [List.mem_singleton.mp member]
      rfl
  | partly predicate feature =>
      rcases List.mem_pair.mp member with rfl | rfl
      · simp [Note.isOnUser, Note.unsupported?, other feature rfl]
      · rfl
  | dropped feature =>
      rw [List.mem_singleton.mp member]
      simp [Note.isOnUser, Note.unsupported?, other feature rfl]
  | vacuous =>
      rw [List.mem_singleton.mp member]
      rfl

/-! ## Two runs side by side -/

/-- A step as it is made without a word about the user. -/
def Step.forgetUser {α : Type} (step : Step α) : Step α :=
  { step with notes := step.notes.filter (!·.isOnUser) }

@[simp] theorem Step.nextAlias_forgetUser {α : Type} (step : Step α) :
    step.forgetUser.nextAlias = step.nextAlias :=
  rfl

/-- The step of a list from those of its first member and of the others. -/
theorem Step.forgetUser_append (first : Step (Option Predicate)) (others : Step (List Predicate)) :
    Step.forgetUser ⟨first.value.toList ++ others.value, first.notes ++ others.notes,
        others.nextAlias⟩ =
      ⟨first.forgetUser.value.toList ++ others.forgetUser.value,
        first.forgetUser.notes ++ others.forgetUser.notes, others.forgetUser.nextAlias⟩ := by
  simp only [Step.forgetUser, List.filter_append]

section Runs

variable {settings : Settings} {reason : Text}

-- What is taken out gives out no alias, so both runs stay at the same number throughout.
mutual

theorem Item.forgetUser_convert
    (missing : settings.environment.missingUser? = some reason) (tableAlias : Text) (next : Nat)
    (item : Item) :
    (item.convert settings tableAlias next).forgetUser =
      (item.withoutUser?.map (Item.convert settings.withUser tableAlias next)).getD
        ⟨none, [], next⟩ := by
  cases item with
  | condition condition =>
      rw [Item.convert, Item.withoutUser?]
      cases onUser : condition.isOnUser with
      | true =>
          rw [condition.convert_of_isOnUser tableAlias missing onUser]
          rfl
      | false =>
          have quiet : ((condition.convert settings tableAlias).notes condition).filter
              (!·.isOnUser) = (condition.convert settings tableAlias).notes condition :=
            Outcome.filter_notes condition fun _ => condition.isOnUser_of_report? tableAlias onUser
          rw [if_neg Bool.false_ne_true, Option.map_some, Option.getD_some, Item.convert,
            condition.convert_withUser tableAlias onUser]
          simp only [Step.forgetUser, quiet]
  | group group =>
      have inner := Group.forgetUser_convert missing tableAlias next group
      rw [Item.withoutUser?, Option.map_some, Option.getD_some, Item.convert, Item.convert, ← inner]
      rfl
  | link link =>
      rw [Item.withoutUser?, Option.map_some, Option.getD_some, Item.convert, Item.convert]
      exact Link.forgetUser_convert missing tableAlias next link

theorem Item.forgetUser_convertEach
    (missing : settings.environment.missingUser? = some reason) (tableAlias : Text) (next : Nat)
    (items : List Item) :
    (Item.convertEach settings tableAlias next items).forgetUser =
      Item.convertEach settings.withUser tableAlias next (Item.withoutUserEach items) := by
  cases items with
  | nil =>
      rw [Item.withoutUserEach, Item.convertEach, Item.convertEach]
      rfl
  | cons item items =>
      have first := Item.forgetUser_convert missing tableAlias next item
      have others := Item.forgetUser_convertEach missing tableAlias
        (item.convert settings tableAlias next).nextAlias items
      rw [Item.withoutUserEach, Item.convertEach, Step.forgetUser_append, first, others,
        ← Step.nextAlias_forgetUser, first]
      cases item.withoutUser? with
      | none => rfl
      | some kept =>
          rw [Option.toList_some, List.singleton_append, Item.convertEach]
          rfl

theorem Group.forgetUser_convert
    (missing : settings.environment.missingUser? = some reason) (tableAlias : Text) (next : Nat)
    (group : Group) :
    (group.convert settings tableAlias next).forgetUser =
      group.withoutUser.convert settings.withUser tableAlias next := by
  cases group with
  | mk connective items =>
      have each := Item.forgetUser_convertEach missing tableAlias next items
      rw [Group.withoutUser, Group.convert, Group.convert, ← each]
      rfl

theorem Group.forgetUser_convertEach
    (missing : settings.environment.missingUser? = some reason) (tableAlias : Text) (next : Nat)
    (groups : List Group) :
    (Group.convertEach settings tableAlias next groups).forgetUser =
      Group.convertEach settings.withUser tableAlias next (Group.withoutUserEach groups) := by
  cases groups with
  | nil =>
      rw [Group.withoutUserEach, Group.convertEach, Group.convertEach]
      rfl
  | cons group groups =>
      have first := Group.forgetUser_convert missing tableAlias next group
      have others := Group.forgetUser_convertEach missing tableAlias
        (group.convert settings tableAlias next).nextAlias groups
      rw [Group.withoutUserEach, Group.convertEach, Group.convertEach, Step.forgetUser_append,
        first, others, ← Step.nextAlias_forgetUser, first]

theorem Link.forgetUser_convert
    (missing : settings.environment.missingUser? = some reason) (outerAlias : Text) (next : Nat)
    (link : Link) :
    (link.convert settings outerAlias next).forgetUser =
      link.withoutUser.convert settings.withUser outerAlias next := by
  cases link with
  | mk table column outerColumn tableAlias kind filters links =>
      rw [Link.withoutUser]
      cases kind with
      | outer | other name =>
          rw [Link.convert, Link.convert]
          rfl
      | inner | any | notAny =>
          rw [Link.convert, Link.convert]
          cases lacking : Text.allBlank column || Text.allBlank outerColumn with
          | true => rfl
          | false =>
              simp only [Bool.false_eq_true, if_false, ← Group.forgetUser_convertEach missing,
                ← Link.forgetUser_convertEach missing, Step.nextAlias_forgetUser]
              simp [Step.forgetUser, Note.isOnUser, Note.unsupported?]

theorem Link.forgetUser_convertEach
    (missing : settings.environment.missingUser? = some reason) (outerAlias : Text) (next : Nat)
    (links : List Link) :
    (Link.convertEach settings outerAlias next links).forgetUser =
      Link.convertEach settings.withUser outerAlias next (Link.withoutUserEach links) := by
  cases links with
  | nil =>
      rw [Link.withoutUserEach, Link.convertEach, Link.convertEach]
      rfl
  | cons link links =>
      have first := Link.forgetUser_convert missing outerAlias next link
      have others := Link.forgetUser_convertEach missing outerAlias
        (link.convert settings outerAlias next).nextAlias links
      rw [Link.withoutUserEach, Link.convertEach, Link.convertEach, Step.forgetUser_append,
        first, others, ← Step.nextAlias_forgetUser, first]

end

/-- The conversion of the other conditions where the user is known. -/
theorem Query.convert_withoutUser (missing : settings.environment.missingUser? = some reason)
    (tableAlias : Text) (query : Query) :
    query.withoutUser.convert settings.withUser tableAlias =
      ⟨(query.convert settings tableAlias).predicate,
        (query.convert settings tableAlias).notes.filter (!·.isOnUser)⟩ := by
  simp only [Query.withoutUser, Query.convert, ← Group.forgetUser_convertEach missing,
    ← Link.forgetUser_convertEach missing, Step.nextAlias_forgetUser]
  simp [Step.forgetUser, Note.isOnUser, Note.unsupported?]

end Runs

/-! ## The reports -/

theorem reportsOf_filter (notes : List Note) :
    reportsOf (notes.filter (!·.isOnUser)) = (reportsOf notes).filter (!·.isOnUser) := by
  rw [reportsOf, reportsOf, List.filterMap_filter, List.filter_filterMap]
  refine List.filterMap_congr fun note _ => ?_
  cases note with
  | unsupported feature =>
      cases onUser : feature.isOnUser <;>
        simp [Note.isOnUser, Note.unsupported?, Option.filter, onUser]
  | _ => rfl

theorem Link.isOnUser_of_report? {link : Link} {feature : Unsupported}
    (reported : link.report? = some feature) : feature.isOnUser = false := by
  rw [Link.report?] at reported
  split at reported
  · cases reported
  · cases reported
    rfl
  all_goals
    split at reported
    · cases reported
      rfl
    · cases reported

/-- A visit is reported for the user exactly where it asks for the user. -/
theorem Visit.filter_report? {settings : Settings} {reason : Text}
    (missing : settings.environment.missingUser? = some reason) (visit : Visit) :
    (visit.report? settings).filter Unsupported.isOnUser =
      visit.onUser?.map fun condition =>
        .noUser condition.operator condition.column reason := by
  cases visit with
  | condition tableAlias condition =>
      rw [Visit.report?, Visit.onUser?]
      cases onUser : condition.isOnUser with
      | true =>
          rw [condition.convert_of_isOnUser tableAlias missing onUser]
          rfl
      | false =>
          rw [if_neg Bool.false_ne_true, Option.map_none, Option.filter_eq_none_iff]
          exact fun feature reported => Bool.eq_false_iff.mp
            (condition.isOnUser_of_report? tableAlias onUser reported)
  | link outerAlias ownAlias link =>
      rw [Visit.report?, Visit.onUser?, Option.map_none, Option.filter_eq_none_iff]
      exact fun feature reported => Bool.eq_false_iff.mp (Link.isOnUser_of_report? reported)

theorem Query.unsupported_convert (settings : Settings) (tableAlias : Text) (query : Query) :
    (query.convert settings tableAlias).unsupported =
      (query.visits tableAlias).filterMap (Visit.report? settings) := by
  have filters := Group.covers_convertEach settings tableAlias 0 query.filters
  have links := Link.covers_convertEach settings tableAlias
    (Group.aliasCountEach query.filters) query.links
  rw [Query.visits, ← (filters.append links).reported, Query.convert,
    Group.nextAlias_convertEach, Nat.zero_add]
  simp [Conversion.unsupported, reportsOf, Note.unsupported?, List.filterMap_cons]

/-- A conversion beside the one that keeps nothing of what the conditions asked of the user:
the row filter is the same, each of these conditions is reported once, in their order, and
the other reports are the same, in their order. -/
structure Conversion.OmitsUser (reason : Text) (asked : List Condition)
    (conversion kept : Conversion) : Prop where
  predicate : conversion.predicate = kept.predicate
  clause : conversion.clause = kept.clause
  asked : conversion.unsupported.filter Unsupported.isOnUser =
    asked.map fun condition => .noUser condition.operator condition.column reason
  others : conversion.unsupported.filter (!·.isOnUser) = kept.unsupported

/-- Where no user is known, the conditions on the user are left out of a view, and nothing
else becomes of it than of the view without them where a user is known. -/
theorem Query.omitsUser_convert (settings : Settings) (tableAlias : Text) (query : Query)
    (restricted : settings.environment.replicaSource = true ∨
      settings.environment.importMode = true) :
    ∃ reason, settings.environment.missingUser? = some reason ∧
      (query.convert settings tableAlias).OmitsUser reason (query.onUser tableAlias)
        (query.withoutUser.convert settings.withUser tableAlias) := by
  obtain ⟨reason, missing⟩ := Environment.exists_missingUser? restricted
  refine ⟨reason, missing, ?_⟩
  rw [query.convert_withoutUser missing tableAlias]
  refine ⟨rfl, rfl, ?_, ?_⟩
  · rw [query.unsupported_convert, List.filter_filterMap, Query.onUser, List.map_filterMap]
    exact List.filterMap_congr fun visit _ => visit.filter_report? missing
  · exact (reportsOf_filter _).symm

/-- Active accounts, or those of the user, where a contact belongs to somebody else. -/
def ownerView : Query :=
  ⟨"account",
    [⟨.or,
      [.condition ⟨"ownerid", .currentUser false, none, [], none⟩,
        .condition ⟨"statecode", .compare .equal, some "0", [], none⟩,
        .group ⟨.and, [.condition ⟨"ownerid", .userTeams false, none, [], none⟩]⟩]⟩],
    [⟨"contact", "parentcustomerid", "accountid", none, .any,
      [⟨.and, [.condition ⟨"ownerid", .currentUser true, none, [], none⟩]⟩], []⟩]⟩

theorem Query.omitsUser_convert_ownerView :
    (ownerView.onUser "Base").length = 3 ∧
      (ownerView.withoutUser.convert ⟨⟨60⟩, .unrestricted⟩ "Base").clause =
        "Base.statecode = 0 AND EXISTS (SELECT 1 FROM contact AS le0 " ++
          "WHERE le0.parentcustomerid = Base.accountid)" ∧
      ∃ reason, Environment.missingUser? ⟨false, true⟩ = some reason ∧
        (ownerView.convert ⟨⟨60⟩, ⟨false, true⟩⟩ "Base").OmitsUser reason
          (ownerView.onUser "Base")
          (ownerView.withoutUser.convert ⟨⟨60⟩, .unrestricted⟩ "Base") :=
  ⟨by decide +kernel, by decide +kernel,
    Query.omitsUser_convert ⟨⟨60⟩, ⟨false, true⟩⟩ "Base" ownerView (.inr rfl)⟩

end Filter

end TabularModel
