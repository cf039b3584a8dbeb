import TabularModel.Proofs.Change.Columns
import TabularModel.Proofs.Change.Paths

/-!
# Relationships accounted for

A relationship that is in both versions is compared with itself. Every other earlier one
has one outcome: one to the calendar is replaced, one that a person has added is kept,
and a generated one moves to an added one with its source or is removed. Every other
fresh one is added, unless an earlier one moves to it. What is kept is what a merge puts
behind the fresh relationships.
-/

set_option autoImplicit false

namespace TabularModel

open Prior (Model fileBlocks mergeRelationship relationshipKey? relationshipText?
  withoutDescriptions)

namespace Change

/-! ## What becomes of relationships -/

/-- The outcome for an earlier relationship that is not among the fresh ones. -/
inductive RelationshipFate where
  | replaced
  | kept
  | moved (key : RelationshipKey)
  | removed

/-- The fresh relationship that takes the place of an earlier one. -/
def RelationshipFate.target? : RelationshipFate -> Option RelationshipKey
  | .moved key => some key
  | .replaced | .kept | .removed => none

def RelationshipFate.entry (old : Prior.Relationship) : RelationshipFate -> Entry
  | .replaced => (.relationship old.key .calendarReplaced, .info, .safe)
  | .kept => (.relationship old.key .userKept, .preserve, .safe)
  | .moved key => (.relationship key (.moved old.key.target), .update, .moderate)
  | .removed => (.relationship old.key .removed, .warning, .destructive)

/-- Which outcome a relationship may have: that is decided by the end it leads to, by its
mark and, for a move, by the end it starts from. -/
inductive Becomes (old : Prior.Relationship) : RelationshipFate -> Prop where
  | replaced (calendar : old.key.isCalendar = true) : Becomes old .replaced
  | kept (other : old.key.isCalendar = false) (user : old.isGenerated = false) : Becomes old .kept
  | moved (other : old.key.isCalendar = false) (generated : old.isGenerated = true)
      {key : RelationshipKey} (source : key.source = old.key.source) : Becomes old (.moved key)
  | removed (other : old.key.isCalendar = false) (generated : old.isGenerated = true) :
      Becomes old .removed

/-- The relationships of two versions: those with a key in both, the others of the earlier
version with their outcomes, and the keys of the fresh ones that are added. -/
structure RelationshipFates where
  common : List (Prior.Relationship × Prior.Relationship)
  lost : List (Prior.Relationship × RelationshipFate)
  added : List RelationshipKey

/-- The keys of the fresh version that are not in the earlier one: those that earlier
relationships move to, and the added ones. -/
def RelationshipFates.freshKeys (fates : RelationshipFates) : List RelationshipKey :=
  fates.lost.filterMap (·.2.target?) ++ fates.added

/-- Every relationship of both versions is accounted for once, and no more of them could
be paired by their sources. -/
structure RelationshipFates.Account (fates : RelationshipFates) (earlier fresh : Model) :
    Prop where
  common : ∀ old new, (old, new) ∈ fates.common ↔
    old ∈ earlier.relationships ∧ new ∈ fresh.relationships ∧ old.key = new.key
  commonOnce : (fates.common.map (·.2.key)).Nodup
  ofEarlier : ∀ old, old ∈ fates.lost.map (·.1) ↔
    old ∈ earlier.relationships ∧ old.key ∉ fresh.relationships.map (·.key)
  earlierOnce : (fates.lost.map (·.1.key)).Nodup
  ofFresh : ∀ key, key ∈ fates.freshKeys ↔
    key ∈ fresh.relationships.map (·.key) ∧ key ∉ earlier.relationships.map (·.key)
  freshOnce : fates.freshKeys.Nodup
  becomes : ∀ old fate, (old, fate) ∈ fates.lost -> Becomes old fate
  apart : ∀ old, (old, .removed) ∈ fates.lost -> ∀ key ∈ fates.added, key.source ≠ old.key.source

/-- The entries for a relationship that is in both versions. -/
def commonRelationshipEntries (settings : Settings) (old new : Prior.Relationship) :
    List Entry :=
  if old.isActive ≠ new.isActive then
    [(.relationship new.key (if new.isActive then .activated else .deactivated),
      .update, .moderate)]
  else if settings.includeUnchanged then
    [(.relationship new.key .unchanged, .preserve, .safe)]
  else []

def RelationshipFates.entries (fates : RelationshipFates) (settings : Settings) : List Entry :=
  fates.common.flatMap (fun (old, new) => commonRelationshipEntries settings old new) ++
    fates.lost.map (fun (old, fate) => fate.entry old) ++
    fates.added.map fun key => (.relationship key .added, .new, .additive)

/-! ## Lost relationships -/

/-- What was decided about earlier relationships: each has an outcome, those that move
take one of the added keys each, and the others are left. -/
structure AreFates (earlier : List Prior.Relationship) (added : List RelationshipKey)
    (changes : List Change) (unpaired : List RelationshipKey)
    (fates : List (Prior.Relationship × RelationshipFate)) : Prop where
  items : fates.map (·.1) = earlier
  targets : (fates.filterMap (·.2.target?) ++ unpaired).Perm added
  becomes : ∀ old fate, (old, fate) ∈ fates -> Becomes old fate
  apart : ∀ old, (old, .removed) ∈ fates -> ∀ key ∈ unpaired, key.source ≠ old.key.source
  entries : changes.map entry = fates.map fun (old, fate) => fate.entry old

variable {earlier : List Prior.Relationship} {added unpaired : List RelationshipKey}
variable {changes : List Change} {fates : List (Prior.Relationship × RelationshipFate)}

/-- One more relationship that takes no key. -/
theorem AreFates.cons (rest : AreFates earlier added changes unpaired fates)
    {old : Prior.Relationship} {fate : RelationshipFate} (becomes : Becomes old fate)
    (single : fate.target? = none)
    (apart : fate = .removed -> ∀ key ∈ added, key.source ≠ old.key.source) {change : Change}
    (same : entry change = fate.entry old) :
    AreFates (old :: earlier) added (change :: changes) unpaired ((old, fate) :: fates) := by
  refine ⟨congrArg (old :: ·) rest.items, ?_, ?_, ?_, ?_⟩
  · simp only [List.filterMap_cons, single]
    exact rest.targets
  · intro other otherFate member
    rcases List.mem_cons.mp member with first | later
    · cases first
      exact becomes
    · exact rest.becomes other otherFate later
  · intro other member key free
    rcases List.mem_cons.mp member with first | later
    · cases first
      exact apart rfl key (rest.targets.subset (List.mem_append_right _ free))
    · exact rest.apart other later key free
  · rw [List.map_cons, List.map_cons, same, rest.entries]

/-- One more relationship that moves to an added key. -/
theorem AreFates.move {moved : RelationshipKey} (member : moved ∈ added)
    (rest : AreFates earlier (added.erase moved) changes unpaired fates)
    {old : Prior.Relationship} (becomes : Becomes old (.moved moved)) :
    AreFates (old :: earlier) added (.relationship moved (.moved old.key.target) :: changes)
      unpaired ((old, .moved moved) :: fates) := by
  refine ⟨congrArg (old :: ·) rest.items, ?_, ?_, ?_, ?_⟩
  · exact (rest.targets.cons moved).trans (List.perm_cons_erase member).symm
  · intro other otherFate inside
    rcases List.mem_cons.mp inside with first | later
    · cases first
      exact becomes
    · exact rest.becomes other otherFate later
  · intro other inside
    rcases List.mem_cons.mp inside with first | later
    · cases first
    · exact rest.apart other later
  · rw [List.map_cons, List.map_cons, rest.entries]
    rfl

theorem exists_areFates (earlier : List Prior.Relationship) (added : List RelationshipKey) :
    ∃ fates, AreFates earlier added (lostRelationships earlier added).1
      (lostRelationships earlier added).2 fates := by
  induction earlier generalizing added with
  | nil => exact ⟨[], rfl, .refl added, by simp, by simp, rfl⟩
  | cons old earlier ih =>
      rw [lostRelationships]
      split
      · next calendar =>
          obtain ⟨fates, rest⟩ := ih added
          exact ⟨_, rest.cons (.replaced calendar) rfl RelationshipFate.noConfusion rfl⟩
      · next noCalendar =>
          have other : old.key.isCalendar = false := Bool.not_eq_true _ ▸ noCalendar
          split
          · next user =>
              obtain ⟨fates, rest⟩ := ih added
              exact ⟨_, rest.cons (.kept other (Bool.not_eq_true' _ ▸ user)) rfl
                RelationshipFate.noConfusion rfl⟩
          · next noUser =>
              have generated : old.isGenerated = true := by simpa using noUser
              split
              · next moved found =>
                  obtain ⟨fates, rest⟩ := ih (added.erase moved)
                  have source : moved.source = old.key.source := by
                    simpa using List.find?_some found
                  exact ⟨_, rest.move (List.mem_of_find?_eq_some found)
                    (.moved other generated source)⟩
              · next none =>
                  obtain ⟨fates, rest⟩ := ih added
                  refine ⟨_, rest.cons (.removed other generated) rfl (fun _ key inside => ?_) rfl⟩
                  simpa using List.find?_eq_none.mp none key inside

/-! ## Both versions -/

/-- The relationships under the keys that both versions have. -/
def commonRelationships (earlier fresh : Model) : List (Prior.Relationship × Prior.Relationship) :=
  fresh.relationshipsByKey.filterMap fun new =>
    (earlier.relationship? new.key).map fun old => (old, new)

/-- The earlier relationships that are not among the fresh ones. -/
def lostFrom (earlier fresh : Model) : List Prior.Relationship :=
  earlier.relationshipsByKey.filter fun old => (fresh.relationship? old.key).isNone

/-- The keys of fresh relationships that are not among the earlier ones. -/
def addedTo (earlier fresh : Model) : List RelationshipKey :=
  (fresh.relationshipsByKey.filter fun new => (earlier.relationship? new.key).isNone).map (·.key)

section

variable {earlier fresh : Model}

theorem relationship?_eq_some_iff (distinct : (earlier.relationships.map (·.key)).Nodup)
    {key : RelationshipKey} {old : Prior.Relationship} :
    earlier.relationship? key = some old ↔ old ∈ earlier.relationships ∧ old.key = key := by
  constructor
  · intro found
    exact ⟨List.mem_of_find?_eq_some found, by simpa using List.find?_some found⟩
  · rintro ⟨member, rfl⟩
    exact Prior.find?_of_nodup distinct member

theorem mem_commonRelationships_iff (distinct : (earlier.relationships.map (·.key)).Nodup)
    {old new : Prior.Relationship} :
    (old, new) ∈ commonRelationships earlier fresh ↔
      old ∈ earlier.relationships ∧ new ∈ fresh.relationships ∧ old.key = new.key := by
  rw [commonRelationships, List.mem_filterMap]
  constructor
  · rintro ⟨other, inside, found⟩
    obtain ⟨known, isKnown, same⟩ := Option.map_eq_some_iff.mp found
    cases same
    obtain ⟨member, key⟩ := (relationship?_eq_some_iff distinct).mp isKnown
    exact ⟨member, (perm_relationshipsByKey fresh).subset inside, key⟩
  · rintro ⟨member, isFresh, key⟩
    refine ⟨new, (perm_relationshipsByKey fresh).symm.subset isFresh, ?_⟩
    rw [(relationship?_eq_some_iff distinct).mpr ⟨member, key⟩]
    rfl

theorem nodup_keys_relationshipsByKey (distinct : (fresh.relationships.map (·.key)).Nodup) :
    (fresh.relationshipsByKey.map (·.key)).Nodup :=
  ((perm_relationshipsByKey fresh).map _).nodup_iff.mpr distinct

theorem nodup_keys_commonRelationships (distinct : (fresh.relationships.map (·.key)).Nodup) :
    ((commonRelationships earlier fresh).map (·.2.key)).Nodup := by
  have keys : (commonRelationships earlier fresh).map (·.2.key) =
      (fresh.relationshipsByKey.filter fun new => (earlier.relationship? new.key).isSome).map
        (·.key) := by
    rw [commonRelationships, List.map_filterMap, ← List.filterMap_eq_map, List.filterMap_filter]
    refine List.filterMap_congr fun new _ => ?_
    cases earlier.relationship? new.key <;> rfl
  rw [keys]
  exact (nodup_keys_relationshipsByKey distinct).sublist (List.filter_sublist.map _)

theorem mem_lostFrom_iff {old : Prior.Relationship} :
    old ∈ lostFrom earlier fresh ↔
      old ∈ earlier.relationships ∧ old.key ∉ fresh.relationships.map (·.key) := by
  rw [lostFrom, List.mem_filter, (perm_relationshipsByKey earlier).mem_iff,
    Option.isNone_iff_eq_none, relationship?_eq_none_iff]

theorem mem_addedTo_iff {key : RelationshipKey} :
    key ∈ addedTo earlier fresh ↔
      key ∈ fresh.relationships.map (·.key) ∧ key ∉ earlier.relationships.map (·.key) := by
  rw [addedTo, List.mem_map, List.mem_map]
  constructor
  · rintro ⟨new, member, rfl⟩
    obtain ⟨inside, absent⟩ := List.mem_filter.mp member
    exact ⟨⟨new, (perm_relationshipsByKey fresh).subset inside, rfl⟩,
      (relationship?_eq_none_iff earlier _).mp (Option.isNone_iff_eq_none.mp absent)⟩
  · rintro ⟨⟨new, inside, rfl⟩, absent⟩
    refine ⟨new, List.mem_filter.mpr ⟨(perm_relationshipsByKey fresh).symm.subset inside, ?_⟩, rfl⟩
    rw [(relationship?_eq_none_iff earlier _).mpr absent]
    rfl

/-- What is decided accounts for all relationships, if each version has one for a key. -/
theorem AreFates.account {changes : List Change} {unpaired : List RelationshipKey}
    {fates : List (Prior.Relationship × RelationshipFate)}
    (decided : AreFates (lostFrom earlier fresh) (addedTo earlier fresh) changes unpaired fates)
    (distinct : (earlier.relationships.map (·.key)).Nodup)
    (freshDistinct : (fresh.relationships.map (·.key)).Nodup) :
    RelationshipFates.Account ⟨commonRelationships earlier fresh, fates, unpaired⟩ earlier
      fresh := by
  refine ⟨fun _ _ => mem_commonRelationships_iff distinct,
    nodup_keys_commonRelationships freshDistinct, ?_, ?_, ?_, ?_, decided.becomes, decided.apart⟩
  · intro old
    rw [decided.items]
    exact mem_lostFrom_iff
  · have keys : fates.map (·.1.key) = (lostFrom earlier fresh).map (·.key) := by
      rw [← decided.items, List.map_map]
      rfl
    rw [keys]
    exact (nodup_keys_relationshipsByKey distinct).sublist (List.filter_sublist.map _)
  · exact fun key => decided.targets.mem_iff.trans mem_addedTo_iff
  · refine decided.targets.nodup_iff.mpr ?_
    exact (nodup_keys_relationshipsByKey freshDistinct).sublist (List.filter_sublist.map _)

theorem map_entry_commonRelationship (settings : Settings) (old new : Prior.Relationship) :
    (commonRelationship settings old new).map entry =
      commonRelationshipEntries settings old new := by
  rw [commonRelationship, commonRelationshipEntries, ifListed]
  split
  · cases new.isActive <;> rfl
  · split <;> rfl

/-- The entries of a comparison on relationships. -/
theorem exists_account (settings : Settings) (distinct : (earlier.relationships.map (·.key)).Nodup)
    (freshDistinct : (fresh.relationships.map (·.key)).Nodup) :
    ∃ fates : RelationshipFates, fates.Account earlier fresh ∧
      (relationshipChanges settings earlier fresh).map entry = fates.entries settings := by
  obtain ⟨fates, decided⟩ := exists_areFates (lostFrom earlier fresh) (addedTo earlier fresh)
  refine ⟨_, decided.account distinct freshDistinct, ?_⟩
  rw [relationshipChanges, RelationshipFates.entries, List.map_append, List.map_append]
  refine congrArg₂ _ (congrArg₂ _ ?_ decided.entries) List.map_map
  rw [commonRelationships, List.map_flatMap, List.filterMap_eq_flatMap_toList, List.flatMap_assoc]
  refine List.flatMap_congr fun new _ => ?_
  cases earlier.relationship? new.key with
  | none => rfl
  | some old => simpa using map_entry_commonRelationship settings old new

end

/-! ## Entries on relationships -/

section

variable {settings : Settings} {earlier fresh : Model}

theorem subject_of_mem_relationshipChanges {change : Change}
    (member : change ∈ relationshipChanges settings earlier fresh) :
    change.subject = .relationship := by
  obtain ⟨fates, decided⟩ := exists_areFates (lostFrom earlier fresh) (addedTo earlier fresh)
  rcases List.mem_append.mp member with first | added
  · rcases List.mem_append.mp first with common | lost
    · obtain ⟨new, -, inside⟩ := List.mem_flatMap.mp common
      split at inside
      · rw [commonRelationship, ifListed] at inside
        grind [subject]
      · cases inside
    · have entered := decided.entries ▸ List.mem_map_of_mem (f := entry) lost
      obtain ⟨⟨old, fate⟩, -, same⟩ := List.mem_map.mp entered
      have isEntry : (fate.entry old).1 = change := congrArg Prod.fst same
      rw [← isEntry]
      cases fate <;> rfl
  · obtain ⟨key, -, rfl⟩ := List.mem_map.mp added
    rfl

theorem subject_of_mem_freshTable {key : Text} {table : Prior.Table} {change : Change}
    (member : change ∈ freshTable settings earlier key table) : change.subject ≠ .relationship := by
  rcases List.mem_append.mp member with compared | keys
  · split at compared
    · rcases List.mem_append.mp compared with first | query
      · rcases List.mem_append.mp first with column | measure
        · rw [subject_of_mem_columnChanges column]
          exact Subject.noConfusion
        · rw [subject_of_mem_measureChanges measure]
          exact Subject.noConfusion
      · rw [subject_of_mem_queryChanges query]
        exact Subject.noConfusion
    · rw [addedTable] at compared
      grind [subject]
  · rw [keyChanges] at keys
    grind [subject]

theorem subject_of_mem_removedTable {key : Text} {table : Prior.Table} {change : Change}
    (member : change ∈ removedTable fresh key table) : change.subject ≠ .relationship := by
  rw [removedTable] at member
  grind [subject]

theorem subject_of_mem_modeChanges {table : Prior.Table} {change : Change}
    (member : change ∈ modeChanges settings table) : change.subject = .table := by
  rw [modeChanges] at member
  grind [subject]

theorem subject_of_mem_reachabilityChanges {change : Change}
    (member : change ∈ reachabilityChanges settings earlier fresh) : change.subject = .table := by
  rw [reachabilityChanges] at member
  split at member
  · cases member
  · obtain ⟨table, -, rfl⟩ := List.mem_map.mp member
    rfl

/-- All entries of a comparison on relationships come from one place. -/
theorem filter_relationship_compare (definitions : DefinitionSet) :
    (compare settings earlier definitions).filter (·.subject == .relationship) =
      relationshipChanges settings earlier (.ofDefinitions definitions) := by
  rw [compare, List.filter_append, List.filter_append, List.filter_append, List.filter_append,
    filter_subject_of_forall fun _ => subject_of_mem_relationshipChanges,
    filter_subject_of_forall_ne, filter_subject_of_forall_ne, filter_subject_of_forall_ne,
    filter_subject_of_forall_ne, List.nil_append, List.nil_append, List.nil_append, List.append_nil]
  · intro change member
    rw [subject_of_mem_reachabilityChanges member]
    exact Subject.noConfusion
  · intro change member
    obtain ⟨table, -, inside⟩ := List.mem_flatMap.mp member
    rw [subject_of_mem_modeChanges inside]
    exact Subject.noConfusion
  · intro change member
    obtain ⟨table, -, inside⟩ := List.mem_flatMap.mp member
    exact subject_of_mem_removedTable inside
  · intro change member
    obtain ⟨table, -, inside⟩ := List.mem_flatMap.mp member
    exact subject_of_mem_freshTable inside

end

/-! ## What is kept -/

/-- The key of a relationship that is reported as kept. -/
def keptKey? : Change -> Option RelationshipKey
  | .relationship key .userKept => some key
  | _ => none

theorem AreFates.filterMap_keptKey? (decided : AreFates earlier added changes unpaired fates) :
    changes.filterMap keptKey? =
      (earlier.filter fun old => !old.key.isCalendar && !old.isGenerated).map (·.key) := by
  have read : changes.filterMap keptKey? = (changes.map entry).filterMap (keptKey? ·.1) := by
    rw [List.filterMap_map]
    rfl
  rw [read, decided.entries, ← decided.items, List.filter_map, List.map_map, List.filterMap_map,
    ← List.filterMap_eq_map, List.filterMap_filter]
  refine List.filterMap_congr fun found member => ?_
  obtain ⟨old, fate⟩ := found
  cases decided.becomes old fate member with
  | replaced calendar => simp [RelationshipFate.entry, keptKey?, calendar]
  | kept other user => simp [RelationshipFate.entry, keptKey?, other, user]
  | moved other generated => simp [RelationshipFate.entry, keptKey?, generated]
  | removed other generated => simp [RelationshipFate.entry, keptKey?, generated]

theorem keptKey?_of_subject_ne {change : Change} (other : change.subject ≠ .relationship) :
    keptKey? change = none := by
  cases change with
  | relationship key outcome => exact absurd rfl other
  | _ => rfl

/-- Only lost relationships are reported as kept. -/
theorem filterMap_keptKey?_compare (settings : Settings) (earlier : Model)
    (definitions : DefinitionSet) :
    (compare settings earlier definitions).filterMap keptKey? =
      ((lostFrom earlier (.ofDefinitions definitions)).filter fun old =>
        !old.key.isCalendar && !old.isGenerated).map (·.key) := by
  obtain ⟨fates, decided⟩ := exists_areFates (lostFrom earlier (.ofDefinitions definitions))
    (addedTo earlier (.ofDefinitions definitions))
  have onRelationships : (compare settings earlier definitions).filterMap keptKey? =
      ((compare settings earlier definitions).filter (·.subject == .relationship)).filterMap
        keptKey? := by
    rw [List.filterMap_filter]
    refine List.filterMap_congr fun change _ => ?_
    split
    · rfl
    · next other => exact keptKey?_of_subject_ne fun same => other (beq_iff_eq.mpr same)
  rw [onRelationships, filter_relationship_compare, relationshipChanges, List.filterMap_append,
    List.filterMap_append, List.filterMap_flatMap, List.filterMap_map]
  refine Eq.trans (congrArg₂ _ (congrArg₂ _ (List.flatMap_eq_nil_iff.mpr ?_)
    decided.filterMap_keptKey?) (List.filterMap_eq_nil_iff.mpr fun _ _ => rfl)) (List.append_nil _)
  intro new _
  split
  · rw [commonRelationship, ifListed]
    split
    · cases new.isActive <;> rfl
    · split <;> rfl
  · rfl

/-- The comparison keeps what a merge with the same fresh keys keeps. -/
theorem perm_keptKeys (settings : Settings) (earlier : Model) (fresh : DefinitionSet) :
    ((compare settings earlier fresh).filterMap keptKey?).Perm
      ((earlier.userRelationships (Prior.relationshipKeys fresh)).map (·.key)) := by
  have lost (old : Prior.Relationship) :
      ((Model.ofDefinitions fresh).relationship? old.key).isNone =
        !(Prior.relationshipKeys fresh).contains old.key := by
    rw [Bool.eq_iff_iff, Option.isNone_iff_eq_none, relationship?_eq_none_iff,
      mem_keys_relationships_iff]
    simp
  rw [filterMap_keptKey?_compare, lostFrom, List.filter_filter]
  refine (((perm_relationshipsByKey earlier).filter _).map _).trans (.of_eq ?_)
  rw [Prior.Model.userRelationships]
  refine congrArg _ (List.filter_congr fun old _ => ?_)
  rw [lost, Bool.and_comm, Bool.and_assoc]

/-- What a merge keeps of the earlier relationships: the merged file consists of the fresh
blocks, which may bear other names, and behind them of the kept ones without their
descriptions. -/
structure MergeKeeps (earlier fresh : DefinitionSet) (kept : List Prior.Relationship) : Prop where
  known : kept.Sublist (Model.ofDefinitions earlier).relationships
  keys : ∀ added ∈ kept, relationshipKey? (withoutDescriptions added.block) = some added.key
  merged : ∃ renamed,
    (merge fresh (.ofDefinitions earlier)).get? Path.relationships =
      relationshipText? (renamed ++ kept.map fun added => withoutDescriptions added.block) ∧
    List.Forall₂ (fun block other => other.docs = block.docs ∧ other.children = block.children)
      (fileBlocks fresh Path.relationships) renamed

theorem mergeKeeps_of_generate {options : Generation.Options} {supply : Generation.Supply}
    {selection : Catalog.Selection} {output : Generation.Output}
    (generated : Generation.generate options supply selection = .ok output)
    (earlier : DefinitionSet) :
    MergeKeeps earlier output.definitions
      ((Model.ofDefinitions earlier).userRelationships
        (Prior.relationshipKeys output.definitions)) := by
  obtain ⟨relationships, isGenerated⟩ := Generation.exists_isGenerated generated
  obtain ⟨-, written⟩ := Prior.get?_relationships_merge isGenerated (.ofDefinitions earlier)
  rw [Prior.mergeRelationships, freshKeys_fileBlocks] at written
  refine ⟨List.filter_sublist, fun _ member => (relationshipKey?_of_mem_userRelationships member).2,
    _, written, List.forall₂_map_right_iff.mpr (List.forall₂_same.mpr fun block _ => ?_)⟩
  split
  · rcases Prior.mergeRelationship_eq earlier block with same | ⟨_, _, _, _, _, same⟩ <;>
      rw [same] <;> exact ⟨rfl, rfl⟩
  · exact ⟨rfl, rfl⟩

/-- The relationships of an earlier set and of a generated one are accounted for: what a
comparison says about them is one outcome for each. What it reports as kept are the keys of
the relationships that a merge of the two sets keeps. -/
theorem compare_accountsForRelationships {options : Generation.Options}
    {supply : Generation.Supply} {selection : Catalog.Selection} {output : Generation.Output}
    (generated : Generation.generate options supply selection = .ok output)
    (earlier : DefinitionSet) (settings : Settings) :
    (∃ fates : RelationshipFates,
      fates.Account (.ofDefinitions earlier) (.ofDefinitions output.definitions) ∧
      ((compare settings (.ofDefinitions earlier) output.definitions).filter
        (·.subject == .relationship)).map entry = fates.entries settings) ∧
    ∃ kept, MergeKeeps earlier output.definitions kept ∧
      ((compare settings (.ofDefinitions earlier) output.definitions).filterMap keptKey?).Perm
        (kept.map (·.key)) := by
  refine ⟨?_, _, mergeKeeps_of_generate generated earlier, perm_keptKeys settings _ _⟩
  rw [filter_relationship_compare]
  exact exists_account settings (nodup_keys_relationships earlier)
    (nodup_keys_relationships output.definitions)

/-- Opportunities are joined to accounts, beside a relationship that a person has added. -/
theorem compare_accountsForRelationships_kept :
    let selection : Catalog.Selection :=
      { modelName := "Sales"
        tables := [{ Catalog.Table.plain "opportunity" "opportunityid" with
            attributes := [⟨"customerid", none, .lookup, ["account"], none⟩] },
          Catalog.Table.plain "account" "accountid"]
        edges := [.plain "opportunity" "customerid" "account"]
        calendar := none }
    let options := { Generation.Options.standard with checksQueries := false }
    let supply : Generation.Supply := fun _ => "fresh"
    let earlier : DefinitionSet := .ofList
      [(Path.relationships, Block.textOfLines
        ["relationship mine", "\tfromColumn: opportunity.score", "\ttoColumn: grade.score", ""])]
    ∃ output, Generation.generate options supply selection = .ok output ∧
      (∃ fates : RelationshipFates,
        fates.Account (.ofDefinitions earlier) (.ofDefinitions output.definitions) ∧
        ((compare .standard (.ofDefinitions earlier) output.definitions).filter
          (·.subject == .relationship)).map entry = fates.entries .standard) ∧
      ∃ kept, MergeKeeps earlier output.definitions kept ∧
        kept.map (·.key) = [⟨"opportunity.score", "grade.score"⟩] := by
  intro selection options supply earlier
  have written : (Generation.generate options supply selection).toOption.map (fun output =>
      ((Model.ofDefinitions earlier).userRelationships
        (Prior.relationshipKeys output.definitions)).map (·.key)) =
      some [⟨"opportunity.score", "grade.score"⟩] := by
    decide +kernel
  obtain ⟨output, found, keys⟩ := Option.map_eq_some_iff.mp written
  have generated := Generation.eq_ok_of_toOption found
  obtain ⟨accounted, kept, keeps, same⟩ :=
    compare_accountsForRelationships generated earlier .standard
  have perm := (perm_keptKeys .standard (.ofDefinitions earlier) output.definitions).symm.trans same
  rw [keys] at perm
  exact ⟨output, generated, accounted, kept, keeps, List.perm_singleton.mp perm.symm⟩

end Change

end TabularModel
