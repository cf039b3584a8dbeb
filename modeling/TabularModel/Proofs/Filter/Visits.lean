import TabularModel.Proofs.Filter.Gathering
import TabularModel.Proofs.Filter.Soundness

/-!
# What becomes of each place of a filter

A conversion visits the conditions and the links of a filter in the order of the view, and
goes into a link only if it follows it. What is visited is written or reported, apart from
a list test without values and an outer link, which restrict nothing. The row filter is put
together from what is written for these places, and nothing else is reported.
-/

set_option autoImplicit false

namespace TabularModel

namespace Filter

open Sql (Predicate)

/-! ## What a predicate is put together from -/

/-- A single test, or a question for linked rows without the conditions on them. -/
inductive Atom where
  | test (predicate : Predicate)
  | existence (negated : Bool) (join : Sql.Join)

mutual

/-- The atoms of a predicate in the order in which they are written. -/
def atoms : Predicate -> List Atom
  | .junction _ parts => atomsEach parts
  | .grouped inner => atoms inner
  | .linked negated join => [.existence negated join]
  | .linkedWhere negated join inner => .existence negated join :: atoms inner
  | test => [.test test]

def atomsEach : List Predicate -> List Atom
  | [] => []
  | part :: parts => atoms part ++ atomsEach parts

end

theorem atomsEach_eq_flatMap (parts : List Predicate) : atomsEach parts = parts.flatMap atoms := by
  induction parts with
  | nil => rw [atomsEach, List.flatMap_nil]
  | cons part parts ih => rw [atomsEach, ih, List.flatMap_cons]

theorem isGathered_atoms : IsGathered atoms := by
  refine ⟨fun connective parts => ?_, fun inner => ?_⟩
  · rw [atoms, atomsEach_eq_flatMap]
  · rw [atoms]

theorem atoms_linkPredicate (negated : Bool) (join : Sql.Join) (parts : List Predicate) :
    atoms (linkPredicate negated join parts) = [.existence negated join] ++ parts.flatMap atoms :=
  isGathered_atoms.linkPredicate (by rw [atoms]) (fun inner => by rw [atoms]; rfl) parts

/-- A sound predicate is not empty. -/
theorem atoms_ne_nil {predicate : Predicate} (sound : predicate.IsSound) :
    atoms predicate ≠ [] := by
  induction sound with
  | @junction connective parts several each simple ih =>
      cases parts with
      | nil => simp at several
      | cons first others =>
          rw [atoms, atomsEach]
          exact List.append_ne_nil_of_left_ne_nil (ih first List.mem_cons_self) _
  | grouped sound ih =>
      rw [atoms]
      exact ih
  | linked negated join => simp [atoms]
  | linkedWhere negated join sound ih => simp [atoms]
  | compare | isNull | like | isIn | between | inUserTeams => simp [atoms]

/-! ## Places of a filter -/

/-- A place that is visited: a condition on the table that is known by an alias, or a link
with the aliases of the table outside and of its own table. -/
inductive Visit where
  | condition (tableAlias : Text) (condition : Condition)
  | link (outerAlias ownAlias : Text) (link : Link)

mutual

/-- The places of an item where aliases are given out from a number on. -/
def Item.visits (tableAlias : Text) (next : Nat) : Item -> List Visit
  | .condition condition => [.condition tableAlias condition]
  | .group group => group.visits tableAlias next
  | .link link => link.visits tableAlias next

def Item.visitsEach (tableAlias : Text) (next : Nat) : List Item -> List Visit
  | [] => []
  | item :: items =>
      item.visits tableAlias next ++ Item.visitsEach tableAlias (next + item.aliasCount) items

def Group.visits (tableAlias : Text) (next : Nat) : Group -> List Visit
  | ⟨_, items⟩ => Item.visitsEach tableAlias next items

def Group.visitsEach (tableAlias : Text) (next : Nat) : List Group -> List Visit
  | [] => []
  | group :: groups =>
      group.visits tableAlias next ++
        Group.visitsEach tableAlias (next + group.aliasCount) groups

/-- A link is visited itself, and what is in it where the link is followed. -/
def Link.visits (outerAlias : Text) (next : Nat) : Link -> List Visit
  | ⟨table, column, outerColumn, tableAlias, kind, filters, links⟩ =>
      .link outerAlias (linkAlias next tableAlias)
          ⟨table, column, outerColumn, tableAlias, kind, filters, links⟩ ::
        if kind.isFollowed column outerColumn then
          Group.visitsEach (linkAlias next tableAlias) (next + takenBy tableAlias) filters ++
            Link.visitsEach (linkAlias next tableAlias)
              (next + takenBy tableAlias + Group.aliasCountEach filters) links
        else []

def Link.visitsEach (outerAlias : Text) (next : Nat) : List Link -> List Visit
  | [] => []
  | link :: links =>
      link.visits outerAlias next ++ Link.visitsEach outerAlias (next + link.aliasCount) links

end

def Query.visits (tableAlias : Text) (query : Query) : List Visit :=
  Group.visitsEach tableAlias 0 query.filters ++
    Link.visitsEach tableAlias (Group.aliasCountEach query.filters) query.links

/-! ## What is written and reported for a place -/

def Outcome.report? : Outcome -> Option Unsupported
  | .full _ => none
  | .partly _ feature => some feature
  | .dropped feature => some feature
  | .vacuous => none

namespace Link

variable (link : Link)

/-- The test for a link that is followed. -/
def existence? (outerAlias ownAlias : Text) : Option Atom :=
  if link.kind.isFollowed link.column link.outerColumn then
    some (.existence (link.kind == .notAny)
      ⟨link.table, ownAlias, link.column, outerAlias, link.outerColumn⟩)
  else none

def report? : Option Unsupported :=
  match link.kind with
  | .outer => none
  | .other name => some (.linkKind link.table name)
  | .inner | .any | .notAny =>
      if Text.allBlank link.column || Text.allBlank link.outerColumn then
        some (.linkWithoutColumns link.table)
      else none

end Link

namespace Visit

variable (settings : Settings)

def written : Visit -> List Atom
  | .condition tableAlias tested =>
      (tested.convert settings tableAlias).predicate?.toList.flatMap atoms
  | .link outerAlias ownAlias joined => (joined.existence? outerAlias ownAlias).toList

def report? : Visit -> Option Unsupported
  | .condition tableAlias tested => (tested.convert settings tableAlias).report?
  | .link _ _ joined => joined.report?

end Visit

/-! ## Conditions -/

namespace ConditionOperator

/-- Whether an operator compares with one value. -/
def takesValue : ConditionOperator -> Bool
  | .compare _ | .like _ _ | .window _ _ | .olderThan _ | .day _ => true
  | _ => false

/-- By how many units a moment is moved for a count. -/
def increment? : ConditionOperator -> Option (Int -> Int)
  | .window direction _ => some (LocalTime.farBound · direction)
  | .olderThan _ => some (- ·)
  | _ => none

/-- Whether an operator speaks about the user who asks. -/
def asksForUser : ConditionOperator -> Bool
  | .currentUser _ | .userTeams _ => true
  | _ => false

theorem takesValue_of_increment? {operator : ConditionOperator} {increment : Int -> Int}
    (found : operator.increment? = some increment) : operator.takesValue = true := by
  cases operator <;> first | rfl | cases found

end ConditionOperator

namespace Condition

/-- What a condition is left out for, with the report on it. -/
inductive IsObstacle (environment : Environment) (condition : Condition) : Unsupported -> Prop where
  | otherJoin {joinAlias : Text} (elsewhere : condition.joinAlias = some joinAlias) :
      IsObstacle environment condition (.otherJoin condition.column joinAlias)
  | unknownOperator {name : Text} (here : condition.joinAlias = none)
      (unknown : condition.operator = .unrecognized name) :
      IsObstacle environment condition (.unknownOperator name condition.column)
  | noValue (here : condition.joinAlias = none) (takes : condition.operator.takesValue = true)
      (missing : condition.scalarValue = none) :
      IsObstacle environment condition (.noValue condition.operator condition.column)
  | badCount {increment : Int -> Int} {value : Text} (here : condition.joinAlias = none)
      (counts : condition.operator.increment? = some increment)
      (given : condition.scalarValue = some value)
      (bad : ∀ count, Decimal.integer? (Text.trim value) = some count ->
        ¬(0 ≤ count ∧ count ≤ greatestCount)) :
      IsObstacle environment condition (.badCount condition.operator condition.column value)
  | outOfRange {increment : Int -> Int} {value : Text} {count : Int}
      (here : condition.joinAlias = none)
      (counts : condition.operator.increment? = some increment)
      (given : condition.scalarValue = some value)
      (read : Decimal.integer? (Text.trim value) = some count)
      (good : 0 ≤ count ∧ count ≤ greatestCount)
      (far : Decimal.fits32 (increment count) = false) :
      IsObstacle environment condition (.outOfRange condition.operator condition.column)
  | notTwoValues {negated : Bool} (here : condition.joinAlias = none)
      (between : condition.operator = .between negated)
      (others : condition.listValues.length ≠ 2) :
      IsObstacle environment condition (.notTwoValues condition.operator condition.column)
  | noUser {reason : Text} (here : condition.joinAlias = none)
      (asks : condition.operator.asksForUser = true)
      (missing : environment.missingUser? = some reason) :
      IsObstacle environment condition (.noUser condition.operator condition.column reason)

/-- Team membership is asked for, and there is a user to ask it of. -/
def AsksForTeams (environment : Environment) (condition : Condition) : Prop :=
  condition.joinAlias = none ∧ (∃ negated, condition.operator = .userTeams negated) ∧
    environment.missingUser? = none

/-- A list test without values. -/
def HasEmptyList (condition : Condition) : Prop :=
  condition.joinAlias = none ∧ (∃ negated, condition.operator = .oneOf negated) ∧
    condition.listValues = []

/-- Why the outcome of a condition is what it is. -/
inductive Becomes (environment : Environment) (condition : Condition) : Outcome -> Prop where
  | full (predicate : Predicate) : Becomes environment condition (.full predicate)
  | partly (predicate : Predicate) (feature : Unsupported)
      (asks : condition.AsksForTeams environment) :
      Becomes environment condition (.partly predicate feature)
  | dropped {feature : Unsupported} (obstacle : condition.IsObstacle environment feature) :
      Becomes environment condition (.dropped feature)
  | vacuous (empty : condition.HasEmptyList) : Becomes environment condition .vacuous

section Outcomes

variable {condition : Condition} {environment : Environment} (here : condition.joinAlias = none)
include here

theorem becomes_withValue (takes : condition.operator.takesValue = true) {use : Text -> Outcome}
    (each : ∀ value, condition.scalarValue = some value ->
      condition.Becomes environment (use value)) :
    condition.Becomes environment (condition.withValue use) := by
  rw [withValue]
  split
  · next value given => exact each value given
  · next missing => exact .dropped (.noValue here takes missing)

theorem becomes_withCount {increment : Int -> Int}
    (counts : condition.operator.increment? = some increment) (use : Int -> Predicate) :
    condition.Becomes environment (condition.withCount increment use) := by
  refine becomes_withValue here (ConditionOperator.takesValue_of_increment? counts) ?_
  intro value given
  split
  · next count read =>
      split
      · next good =>
          split
          · exact .full _
          · next far =>
              exact .dropped (.outOfRange here counts given read good (Bool.eq_false_iff.mpr far))
      · next bad =>
          refine .dropped (.badCount here counts given fun other found => ?_)
          rw [Option.some.inj (found.symm.trans read)]
          exact bad
  · next unread =>
      refine .dropped (.badCount here counts given fun count found => ?_)
      rw [unread] at found
      cases found

theorem becomes_withUser (asks : condition.operator.asksForUser = true) {outcome : Outcome}
    (known : environment.missingUser? = none -> condition.Becomes environment outcome) :
    condition.Becomes environment (condition.withUser environment outcome) := by
  rw [withUser]
  split
  · next reason missing => exact .dropped (.noUser here asks missing)
  · next present => exact known present

end Outcomes

variable (condition : Condition) (settings : Settings) (tableAlias : Text)

theorem becomes_convert :
    condition.Becomes settings.environment (condition.convert settings tableAlias) := by
  rw [convert]
  split
  · next joinAlias elsewhere => exact .dropped (.otherJoin elsewhere)
  · next here =>
      split
      · next isOperator => exact becomes_withValue here (by rw [isOperator]; rfl) fun _ _ => .full _
      · exact .full _
      · next isOperator => exact becomes_withValue here (by rw [isOperator]; rfl) fun _ _ => .full _
      · next negated isOperator =>
          split
          · next empty => exact .vacuous ⟨here, ⟨negated, isOperator⟩, empty⟩
          · exact .full _
      · next negated isOperator =>
          split
          · exact .full _
          · next others =>
              refine .dropped (.notTwoValues here isOperator fun two => ?_)
              obtain ⟨low, high, values⟩ := List.length_eq_two.mp two
              exact others low high values
      · exact .full _
      · exact .full _
      · next isOperator => exact becomes_withCount here (by rw [isOperator]; rfl) _
      · next isOperator => exact becomes_withCount here (by rw [isOperator]; rfl) _
      · next isOperator => exact becomes_withValue here (by rw [isOperator]; rfl) fun _ _ => .full _
      · next isOperator => exact becomes_withUser here (by rw [isOperator]; rfl) fun _ => .full _
      · next negated isOperator =>
          exact becomes_withUser here (by rw [isOperator]; rfl) fun present =>
            .partly _ _ ⟨here, ⟨negated, isOperator⟩, present⟩
      · next name isOperator => exact .dropped (.unknownOperator here isOperator)

variable {condition settings}

/-- A condition with an obstacle is left out, and the obstacle is reported. -/
theorem convert_of_isObstacle {feature : Unsupported}
    (obstacle : condition.IsObstacle settings.environment feature) :
    condition.convert settings tableAlias = .dropped feature := by
  cases obstacle with
  | otherJoin elsewhere => rw [convert, elsewhere]
  | unknownOperator here unknown => rw [convert, here, unknown]
  | noValue here takes missing =>
      rw [convert, here]
      cases isOperator : condition.operator <;>
        simp_all [ConditionOperator.takesValue, withValue, withCount]
  | @badCount increment value here counts given bad =>
      have dropped (use : Int -> Predicate) : condition.withCount increment use =
          .dropped (.badCount condition.operator condition.column value) := by
        simp only [withCount, withValue, given]
        split
        · next count read => rw [if_neg (bad count read)]
        · rfl
      rw [convert, here]
      cases isOperator : condition.operator <;> rw [isOperator] at counts dropped <;>
        cases counts <;> exact dropped _
  | @outOfRange increment value count here counts given read good far =>
      have dropped (use : Int -> Predicate) : condition.withCount increment use =
          .dropped (.outOfRange condition.operator condition.column) := by
        simp only [withCount, withValue, given, read, if_pos good, far, Bool.false_eq_true,
          if_false]
      rw [convert, here]
      cases isOperator : condition.operator <;> rw [isOperator] at counts dropped <;>
        cases counts <;> exact dropped _
  | notTwoValues here between others =>
      rw [convert, here, between]
      simp only
      split
      · next low high values =>
          rw [values] at others
          exact absurd rfl others
      · rfl
  | noUser here asks missing =>
      rw [convert, here]
      cases isOperator : condition.operator <;>
        simp_all [ConditionOperator.asksForUser, withUser]

theorem isObstacle_iff (feature : Unsupported) :
    condition.IsObstacle settings.environment feature ↔
      condition.convert settings tableAlias = .dropped feature := by
  refine ⟨convert_of_isObstacle tableAlias, fun converted => ?_⟩
  have becomes := condition.becomes_convert settings tableAlias
  rw [converted] at becomes
  cases becomes with
  | dropped obstacle => exact obstacle

theorem asksForTeams_iff :
    condition.AsksForTeams settings.environment ↔
      ∃ predicate feature, condition.convert settings tableAlias = .partly predicate feature := by
  constructor
  · rintro ⟨here, ⟨negated, isOperator⟩, present⟩
    rw [convert, here, isOperator]
    simp only [withUser, present]
    exact ⟨_, _, rfl⟩
  · rintro ⟨predicate, feature, converted⟩
    have becomes := condition.becomes_convert settings tableAlias
    rw [converted] at becomes
    cases becomes with
    | partly _ _ asks => exact asks

variable (settings) in
theorem hasEmptyList_iff :
    condition.HasEmptyList ↔ condition.convert settings tableAlias = .vacuous := by
  constructor
  · rintro ⟨here, ⟨negated, isOperator⟩, none⟩
    rw [convert, here, isOperator]
    simp only [none]
  · intro converted
    have becomes := condition.becomes_convert settings tableAlias
    rw [converted] at becomes
    cases becomes with
    | vacuous empty => exact empty

variable (settings condition)

/-- When nothing is written for a condition, and when it is reported. If it is neither left
out nor a question for teams nor a list test without values, it is written and not reported. -/
structure IsAccountedFor : Prop where
  reported (feature : Unsupported) :
    (Visit.written settings (.condition tableAlias condition) = [] ∧
      Visit.report? settings (.condition tableAlias condition) = some feature) ↔
        condition.IsObstacle settings.environment feature
  both :
    (Visit.written settings (.condition tableAlias condition) ≠ [] ∧
      Visit.report? settings (.condition tableAlias condition) ≠ none) ↔
        condition.AsksForTeams settings.environment
  neither :
    (Visit.written settings (.condition tableAlias condition) = [] ∧
      Visit.report? settings (.condition tableAlias condition) = none) ↔
        condition.HasEmptyList

theorem written_eq_nil_iff :
    Visit.written settings (.condition tableAlias condition) = [] ↔
      (condition.convert settings tableAlias).predicate? = none := by
  rw [Visit.written]
  cases kept : (condition.convert settings tableAlias).predicate? with
  | none => simp
  | some predicate => simpa using atoms_ne_nil (isSimple_convert kept).sound

theorem isAccountedFor : condition.IsAccountedFor settings tableAlias := by
  have nothing := condition.written_eq_nil_iff settings tableAlias
  constructor
  · intro feature
    rw [nothing, isObstacle_iff tableAlias, Visit.report?]
    cases condition.convert settings tableAlias <;> simp [Outcome.predicate?, Outcome.report?]
  · rw [Ne, nothing, asksForTeams_iff tableAlias, Visit.report?]
    cases condition.convert settings tableAlias <;> simp [Outcome.predicate?, Outcome.report?]
  · rw [nothing, hasEmptyList_iff settings tableAlias, Visit.report?]
    cases condition.convert settings tableAlias <;> simp [Outcome.predicate?, Outcome.report?]

end Condition

/-! ## Links -/

namespace Link

/-- Whether a link of this kind restricts the rows of the table outside. -/
def Restricts (link : Link) : Prop :=
  link.kind = .inner ∨ link.kind = .any ∨ link.kind = .notAny

def LacksColumns (link : Link) : Prop :=
  Text.allBlank link.column = true ∨ Text.allBlank link.outerColumn = true

variable (outerAlias ownAlias : Text) (link : Link)

/-- When a link is written and when it is reported: one of both, or neither for an outer
link. -/
structure IsAccountedFor : Prop where
  written (atom : Atom) :
    (link.existence? outerAlias ownAlias = some atom ∧ link.report? = none) ↔
      link.Restricts ∧ ¬link.LacksColumns ∧ atom = .existence (link.kind == .notAny)
        ⟨link.table, ownAlias, link.column, outerAlias, link.outerColumn⟩
  reported (feature : Unsupported) :
    (link.existence? outerAlias ownAlias = none ∧ link.report? = some feature) ↔
      (∃ name, link.kind = .other name ∧ feature = .linkKind link.table name) ∨
        link.Restricts ∧ link.LacksColumns ∧ feature = .linkWithoutColumns link.table
  neither :
    (link.existence? outerAlias ownAlias = none ∧ link.report? = none) ↔ link.kind = .outer
  notBoth : link.existence? outerAlias ownAlias = none ∨ link.report? = none

theorem isAccountedFor : link.IsAccountedFor outerAlias ownAlias := by
  obtain ⟨table, column, outerColumn, tableAlias, kind, filters, links⟩ := link
  cases kind with
  | outer =>
      constructor <;> simp [existence?, report?, LinkKind.isFollowed, Restricts]
  | other name =>
      constructor <;> simp [existence?, report?, LinkKind.isFollowed, Restricts, eq_comm]
  | inner | any | notAny =>
      cases column : Text.allBlank column <;> cases outer : Text.allBlank outerColumn <;>
        constructor <;>
        simp [existence?, report?, LinkKind.isFollowed, Restricts, LacksColumns, column, outer,
          eq_comm]

end Link

/-! ## The walk through a filter -/

/-- What is reported by some notes. -/
def reportsOf (notes : List Note) : List Unsupported :=
  notes.filterMap Note.unsupported?

@[simp] theorem reportsOf_append (front back : List Note) :
    reportsOf (front ++ back) = reportsOf front ++ reportsOf back :=
  List.filterMap_append

theorem Outcome.reportsOf_notes (condition : Condition) (outcome : Outcome) :
    reportsOf (outcome.notes condition) = outcome.report?.toList := by
  cases outcome <;> rfl

/-- Predicates and notes that stand for the given places, in their order. -/
structure Covers (settings : Settings) (visits : List Visit) (parts : List Predicate)
    (notes : List Note) : Prop where
  written : parts.flatMap atoms = visits.flatMap (Visit.written settings)
  reported : reportsOf notes = visits.filterMap (Visit.report? settings)

variable {settings : Settings}

theorem Covers.nil : Covers settings [] [] [] :=
  ⟨rfl, rfl⟩

theorem Covers.append {visits others : List Visit} {parts more : List Predicate}
    {notes later : List Note} (first : Covers settings visits parts notes)
    (second : Covers settings others more later) :
    Covers settings (visits ++ others) (parts ++ more) (notes ++ later) := by
  refine ⟨?_, ?_⟩
  · rw [List.flatMap_append, List.flatMap_append, first.written, second.written]
  · rw [reportsOf_append, List.filterMap_append, first.reported, second.reported]

theorem reports_singleton (visit : Visit) :
    [visit].filterMap (Visit.report? settings) = (visit.report? settings).toList := by
  cases found : visit.report? settings <;> simp [found]

theorem covers_condition (tableAlias : Text) (condition : Condition) :
    Covers settings [.condition tableAlias condition]
      (condition.convert settings tableAlias).predicate?.toList
      ((condition.convert settings tableAlias).notes condition) := by
  refine ⟨?_, ?_⟩
  · rw [List.flatMap_singleton, Visit.written]
  · rw [Outcome.reportsOf_notes, reports_singleton, Visit.report?]

theorem Covers.join {visits : List Visit} {parts : List Predicate} {notes : List Note}
    (each : Covers settings visits parts notes) (connective : Connective) :
    Covers settings visits (Group.join connective parts).toList notes :=
  ⟨(isGathered_atoms.join connective parts).trans each.written, each.reported⟩

theorem Covers.grouped {visits : List Visit} {part : Option Predicate} {notes : List Note}
    (inner : Covers settings visits part.toList notes) :
    Covers settings visits (part.map Predicate.grouped).toList notes :=
  ⟨(isGathered_atoms.grouped? part).trans inner.written, inner.reported⟩

/-- A link that is not followed stands for itself alone. -/
theorem Link.covers_of_not_followed (outerAlias : Text) (next : Nat) {link : Link}
    (skipped : link.kind.isFollowed link.column link.outerColumn = false) :
    Covers settings (link.visits outerAlias next)
      (link.convert settings outerAlias next).value.toList
      (link.convert settings outerAlias next).notes := by
  obtain ⟨table, column, outerColumn, tableAlias, kind, filters, links⟩ := link
  have unwritten : Link.existence?
      ⟨table, column, outerColumn, tableAlias, kind, filters, links⟩ outerAlias
        (linkAlias next tableAlias) = none := by
    rw [Link.existence?, skipped]
    rfl
  rw [Link.visits, if_neg (Bool.eq_false_iff.mp skipped)]
  refine ⟨?_, ?_⟩
  · rw [Link.value_convert, if_neg (Bool.eq_false_iff.mp skipped), List.flatMap_singleton,
      Visit.written, unwritten]
    rfl
  · rw [reports_singleton, Visit.report?, Link.report?]
    cases kind with
    | outer => rfl
    | other name => rfl
    | inner | any | notAny =>
        rw [LinkKind.isFollowed, ← Bool.not_or, Bool.not_eq_false'] at skipped
        rw [Link.convert]
        simp only [skipped, if_true]
        rfl

/-- A link that is followed stands for itself and for what is in it. -/
theorem Link.covers_of_followed (outerAlias : Text) (next : Nat) (table : Text)
    {column outerColumn : Text} (tableAlias : Option Text) {kind : LinkKind}
    {filters : List Group} {links : List Link}
    (followed : kind.isFollowed column outerColumn = true) {visits others : List Visit}
    (inner : Covers settings visits
      (Group.convertEach settings (linkAlias next tableAlias) (next + takenBy tableAlias)
        filters).value
      (Group.convertEach settings (linkAlias next tableAlias) (next + takenBy tableAlias)
        filters).notes)
    (nested : Covers settings others
      (Link.convertEach settings (linkAlias next tableAlias)
        (next + takenBy tableAlias + Group.aliasCountEach filters) links).value
      (Link.convertEach settings (linkAlias next tableAlias)
        (next + takenBy tableAlias + Group.aliasCountEach filters) links).notes) :
    Covers settings
      (.link outerAlias (linkAlias next tableAlias)
          ⟨table, column, outerColumn, tableAlias, kind, filters, links⟩ :: (visits ++ others))
      (Link.convert settings outerAlias next
        ⟨table, column, outerColumn, tableAlias, kind, filters, links⟩).value.toList
      (Link.convert settings outerAlias next
        ⟨table, column, outerColumn, tableAlias, kind, filters, links⟩).notes := by
  have both := inner.append nested
  have taken : (if tableAlias.isSome then next else next + 1) = next + takenBy tableAlias := by
    rw [takenBy]
    split <;> rfl
  refine ⟨?_, ?_⟩
  · rw [Link.value_convert, if_pos followed, Option.toList_some, List.flatMap_singleton,
      atoms_linkPredicate, both.written, List.flatMap_cons, Visit.written, Link.existence?,
      if_pos followed]
    rfl
  · cases kind with
    | outer => cases followed
    | other name => cases followed
    | inner | any | notAny =>
        rw [LinkKind.isFollowed, ← Bool.not_or, Bool.not_eq_true'] at followed
        rw [← Group.nextAlias_convertEach settings (linkAlias next tableAlias)] at both
        rw [Link.convert]
        simp only [followed, taken, Bool.false_eq_true, if_false]
        rw [List.filterMap_cons_none (by simp only [Visit.report?, Link.report?, followed]; rfl)]
        exact both.reported

variable (settings)

mutual

theorem Item.covers_convert (tableAlias : Text) (next : Nat) (item : Item) :
    Covers settings (item.visits tableAlias next)
      (item.convert settings tableAlias next).value.toList
      (item.convert settings tableAlias next).notes := by
  cases item with
  | condition condition =>
      rw [Item.convert, Item.visits]
      exact covers_condition tableAlias condition
  | group group =>
      rw [Item.convert, Item.visits]
      exact (Group.covers_convert tableAlias next group).grouped
  | link link =>
      rw [Item.convert, Item.visits]
      exact Link.covers_convert tableAlias next link

theorem Item.covers_convertEach (tableAlias : Text) (next : Nat) (items : List Item) :
    Covers settings (Item.visitsEach tableAlias next items)
      (Item.convertEach settings tableAlias next items).value
      (Item.convertEach settings tableAlias next items).notes := by
  cases items with
  | nil =>
      rw [Item.convertEach, Item.visitsEach]
      exact .nil
  | cons item items =>
      rw [Item.convertEach, Item.visitsEach, Item.nextAlias_convert]
      exact (Item.covers_convert tableAlias next item).append
        (Item.covers_convertEach tableAlias _ items)

theorem Group.covers_convert (tableAlias : Text) (next : Nat) (group : Group) :
    Covers settings (group.visits tableAlias next)
      (group.convert settings tableAlias next).value.toList
      (group.convert settings tableAlias next).notes := by
  cases group with
  | mk connective items =>
      rw [Group.convert, Group.visits]
      exact (Item.covers_convertEach tableAlias next items).join connective

theorem Group.covers_convertEach (tableAlias : Text) (next : Nat) (groups : List Group) :
    Covers settings (Group.visitsEach tableAlias next groups)
      (Group.convertEach settings tableAlias next groups).value
      (Group.convertEach settings tableAlias next groups).notes := by
  cases groups with
  | nil =>
      rw [Group.convertEach, Group.visitsEach]
      exact .nil
  | cons group groups =>
      rw [Group.convertEach, Group.visitsEach, Group.nextAlias_convert]
      exact (Group.covers_convert tableAlias next group).append
        (Group.covers_convertEach tableAlias _ groups)

theorem Link.covers_convert (outerAlias : Text) (next : Nat) (link : Link) :
    Covers settings (link.visits outerAlias next)
      (link.convert settings outerAlias next).value.toList
      (link.convert settings outerAlias next).notes := by
  cases link with
  | mk table column outerColumn tableAlias kind filters links =>
      cases followed : kind.isFollowed column outerColumn with
      | false => exact Link.covers_of_not_followed outerAlias next followed
      | true =>
          rw [Link.visits, if_pos followed]
          exact Link.covers_of_followed outerAlias next table tableAlias followed
            (Group.covers_convertEach _ _ filters) (Link.covers_convertEach _ _ links)

theorem Link.covers_convertEach (outerAlias : Text) (next : Nat) (links : List Link) :
    Covers settings (Link.visitsEach outerAlias next links)
      (Link.convertEach settings outerAlias next links).value
      (Link.convertEach settings outerAlias next links).notes := by
  cases links with
  | nil =>
      rw [Link.convertEach, Link.visitsEach]
      exact .nil
  | cons link links =>
      rw [Link.convertEach, Link.visitsEach, Link.nextAlias_convert]
      exact (Link.covers_convert outerAlias next link).append
        (Link.covers_convertEach outerAlias _ links)

end

/-- What a conversion has to do with the places of a filter. The row filter consists of what
is written for them, and the reports are those on them, in the order of the places. -/
structure Conversion.AccountsFor (settings : Settings) (visits : List Visit)
    (conversion : Conversion) : Prop where
  written : conversion.predicate.toList.flatMap atoms = visits.flatMap (Visit.written settings)
  reported : conversion.unsupported = visits.filterMap (Visit.report? settings)
  conditions : ∀ tableAlias condition, .condition tableAlias condition ∈ visits ->
    condition.IsAccountedFor settings tableAlias
  links : ∀ outerAlias ownAlias link, .link outerAlias ownAlias link ∈ visits ->
    link.IsAccountedFor outerAlias ownAlias
  supported : conversion.isFullySupported = true ↔ conversion.unsupported = []

/-- Nothing of a filter is dropped without a report. -/
theorem Query.accountsFor_convert (settings : Settings) (tableAlias : Text) (query : Query) :
    (query.convert settings tableAlias).AccountsFor settings (query.visits tableAlias) := by
  have filters := Group.covers_convertEach settings tableAlias 0 query.filters
  have links := Link.covers_convertEach settings tableAlias
    (Group.aliasCountEach query.filters) query.links
  have both := filters.append links
  refine ⟨?_, ?_, ?_, ?_, List.isEmpty_iff⟩
  · rw [Query.predicate_convert, isGathered_atoms.all?, both.written, Query.visits]
  · rw [Query.visits, ← both.reported, Query.convert, Group.nextAlias_convertEach, Nat.zero_add]
    simp [Conversion.unsupported, reportsOf, Note.unsupported?, List.filterMap_cons]
  · exact fun tableAlias condition _ => condition.isAccountedFor settings tableAlias
  · exact fun outerAlias ownAlias link _ => link.isAccountedFor outerAlias ownAlias

end Filter

end TabularModel
