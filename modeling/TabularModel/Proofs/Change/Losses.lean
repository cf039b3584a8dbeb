import Mathlib.Data.Finset.Card
import TabularModel.Proofs.Change.Comparison

/-!
# What is reported as lost

Every destructive change of a comparison is one of four: a column whose source is gone,
a generated measure whose name is gone, something of a generated table whose key is
gone, or a relationship that finds no new one with its source. There is no such
relationship with a source where as many relationships lead from that source as before.
-/

set_option autoImplicit false

namespace TabularModel

namespace Change

open Prior (Model)

/-! ## Parts of a comparison -/

/-- What is lost between an earlier and a fresh model. -/
inductive IsLoss (earlier fresh : Model) : Change -> Prop where
  | column {key : Text} {old new : Prior.Table} (found : earlier.tables.get? key = some old)
      (isFresh : fresh.tables.get? key = some new) {column : Prior.Column}
      (gone : column ∈ withoutPartner old new) :
      IsLoss earlier fresh (.column new.name column.name (.removed column.source))
  | measure {key : Text} {old new : Prior.Table} (found : earlier.tables.get? key = some old)
      (isFresh : fresh.tables.get? key = some new) {name : Text}
      (was : name ∈ generatedMeasures old) (gone : name ∉ generatedMeasures new) :
      IsLoss earlier fresh (.measure old.name name .generatedRemoved)
  | table {key : Text} {old : Prior.Table} (found : earlier.tables.get? key = some old)
      (gone : fresh.tables.get? key = none) (change : Change) : IsLoss earlier fresh change
  | relationship {key : RelationshipKey} {settings : Settings}
      (removed : .relationship key .removed ∈ relationshipChanges settings earlier fresh) :
      IsLoss earlier fresh (.relationship key .removed)

variable {settings : Settings} {earlier fresh : Model} {change : Change}

theorem exists_removed_of_mem_columnChanges {old new : Prior.Table}
    (member : change ∈ columnChanges settings old new) (destructive : change.isDestructive = true) :
    ∃ column ∈ withoutPartner old new,
      change = .column new.name column.name (.removed column.source) := by
  rw [columnChanges] at member
  have pairing := isPairing_pairByName (withoutPartner old new) (withoutPartner new old)
  rw [List.mem_append, List.mem_append, List.mem_append] at member
  rcases member with ((paired | common) | added) | removed
  · obtain ⟨pair, _, rfl⟩ := List.mem_map.mp paired
    cases destructive
  · obtain ⟨⟨source, new⟩, _, inside⟩ := List.mem_flatMap.mp common
    simp only at inside
    split at inside
    · unfold commonColumn at inside
      split at inside
      · rw [List.mem_singleton.mp inside] at destructive
        cases destructive
      · split at inside
        · rw [List.mem_singleton.mp inside] at destructive
          cases destructive
        · rw [ifListed] at inside
          split at inside
          · rw [List.mem_singleton.mp inside] at destructive
            cases destructive
          · cases inside
    · cases inside
  · obtain ⟨column, _, rfl⟩ := List.mem_map.mp added
    cases destructive
  · obtain ⟨column, inside, rfl⟩ := List.mem_map.mp removed
    exact ⟨column, pairing.earlier.subset (List.mem_append_right _ inside), rfl⟩

theorem exists_removed_of_mem_measureChanges {old new : Prior.Table}
    (member : change ∈ measureChanges old new) (destructive : change.isDestructive = true) :
    ∃ name ∈ generatedMeasures old, name ∉ generatedMeasures new ∧
      change = .measure old.name name .generatedRemoved := by
  rw [measureChanges, List.mem_append, List.mem_append] at member
  rcases member with (added | removed) | kept
  · obtain ⟨name, _, rfl⟩ := List.mem_map.mp added
    cases destructive
  · obtain ⟨name, inside, rfl⟩ := List.mem_map.mp removed
    obtain ⟨was, gone⟩ := List.mem_filter.mp inside
    exact ⟨name, was, by simpa using gone, rfl⟩
  · obtain ⟨measure, _, rfl⟩ := List.mem_map.mp kept
    cases destructive

theorem isLoss_of_mem_freshTable {key : Text} {new : Prior.Table}
    (isFresh : fresh.tables.get? key = some new) (member : change ∈ freshTable settings earlier key new)
    (destructive : change.isDestructive = true) : IsLoss earlier fresh change := by
  rw [freshTable] at member
  rcases List.mem_append.mp member with compared | keyed
  · split at compared
    · next old found =>
        rw [tableChanges, List.mem_append, List.mem_append] at compared
        rcases compared with (column | measure) | query
        · obtain ⟨column, gone, rfl⟩ := exists_removed_of_mem_columnChanges column destructive
          exact .column found isFresh gone
        · obtain ⟨name, was, gone, rfl⟩ := exists_removed_of_mem_measureChanges measure destructive
          exact .measure found isFresh was gone
        · rw [queryChanges] at query
          split at query
          · split at query
            · cases query
            · rw [List.mem_singleton.mp query] at destructive
              cases destructive
          · cases query
    · rw [addedTable] at compared
      rcases List.mem_cons.mp compared with rfl | measure
      · cases destructive
      · obtain ⟨_, _, rfl⟩ := List.mem_map.mp measure
        cases destructive
  · rw [keyChanges] at keyed
    split at keyed
    · cases keyed
    · rw [List.mem_singleton.mp keyed] at destructive
      cases destructive

theorem not_isDestructive_of_mem_modeChanges {old : Prior.Table}
    (member : change ∈ modeChanges settings old) : change.isDestructive = false := by
  rw [modeChanges] at member
  split at member
  · cases member
  · split at member
    · cases member
    · split at member
      · cases member
      · rw [List.mem_singleton.mp member]
        rfl

theorem exists_removed_of_mem_lostRelationships {lost : List Prior.Relationship}
    {added : List RelationshipKey} (member : change ∈ (lostRelationships lost added).1)
    (destructive : change.isDestructive = true) : ∃ key, change = .relationship key .removed := by
  induction lost generalizing added with
  | nil => cases member
  | cons old lost ih =>
      rw [lostRelationships] at member
      split at member
      · rcases List.mem_cons.mp member with rfl | later
        · cases destructive
        · exact ih later
      · split at member
        · rcases List.mem_cons.mp member with rfl | later
          · cases destructive
          · exact ih later
        · split at member
          · rcases List.mem_cons.mp member with rfl | later
            · cases destructive
            · exact ih later
          · rcases List.mem_cons.mp member with rfl | later
            · exact ⟨_, rfl⟩
            · exact ih later

/-- The part of the relationships is lost relationships and nothing else that is
destructive. -/
theorem mem_lostRelationships_of_mem (member : change ∈ relationshipChanges settings earlier fresh)
    (destructive : change.isDestructive = true) :
    change ∈ (lostRelationships
      (earlier.relationshipsByKey.filter fun old => (fresh.relationship? old.key).isNone)
      ((fresh.relationshipsByKey.filter fun new => (earlier.relationship? new.key).isNone).map
        (·.key))).1 := by
  rw [relationshipChanges, List.mem_append, List.mem_append] at member
  rcases member with (common | lost) | added
  · obtain ⟨new, _, inside⟩ := List.mem_flatMap.mp common
    split at inside
    · rw [commonRelationship] at inside
      split at inside
      · rw [List.mem_singleton.mp inside] at destructive
        split at destructive <;> cases destructive
      · rw [ifListed] at inside
        split at inside
        · rw [List.mem_singleton.mp inside] at destructive
          cases destructive
        · cases inside
    · cases inside
  · exact lost
  · obtain ⟨_, _, rfl⟩ := List.mem_map.mp added
    cases destructive

/-- Every destructive change of a comparison is a loss. -/
theorem isLoss_of_mem_compare {definitions : DefinitionSet}
    (member : change ∈ compare settings earlier definitions)
    (destructive : change.isDestructive = true) :
    IsLoss earlier (.ofDefinitions definitions) change := by
  rw [compare, List.mem_append, List.mem_append, List.mem_append, List.mem_append] at member
  rcases member with (((tables | removals) | modes) | relationships) | reachability
  · obtain ⟨entry, inside, isChange⟩ := List.mem_flatMap.mp tables
    exact isLoss_of_mem_freshTable (SortedMap.get?_of_mem inside) isChange destructive
  · obtain ⟨⟨key, old⟩, inside, isChange⟩ := List.mem_flatMap.mp removals
    simp only [removedTable] at isChange
    split at isChange
    · cases isChange
    · next gone =>
        refine .table (SortedMap.get?_of_mem inside) ?_ change
        rw [Bool.or_eq_true, not_or, SortedMap.contains_eq] at gone
        simpa using gone.2
  · obtain ⟨old, _, isChange⟩ := List.mem_flatMap.mp modes
    rw [not_isDestructive_of_mem_modeChanges isChange] at destructive
    cases destructive
  · obtain ⟨key, rfl⟩ := exists_removed_of_mem_lostRelationships
      (mem_lostRelationships_of_mem relationships destructive) destructive
    exact .relationship relationships
  · rw [reachabilityChanges] at reachability
    split at reachability
    · cases reachability
    · obtain ⟨_, _, rfl⟩ := List.mem_map.mp reachability
      cases destructive

/-! ## Relationships by their sources -/

/-- How many of the keys have the source. -/
def countFrom (source : Text) (keys : List RelationshipKey) : Nat :=
  keys.countP (·.source == source)

theorem countFrom_erase {keys : List RelationshipKey} {key : RelationshipKey} (member : key ∈ keys)
    (source : Text) :
    countFrom source keys =
      countFrom source (keys.erase key) + if key.source = source then 1 else 0 := by
  rw [countFrom, (List.perm_cons_erase member).countP_eq, List.countP_cons, countFrom]
  simp only [beq_iff_eq]

/-- A relationship is removed only where fewer are added from its source than are lost. -/
theorem countFrom_lt_of_removed {lost : List Prior.Relationship} {added : List RelationshipKey}
    {key : RelationshipKey}
    (removed : .relationship key .removed ∈ (lostRelationships lost added).1) :
    countFrom key.source added <
      countFrom key.source ((lost.filter fun old => !old.key.isCalendar).map (·.key)) := by
  induction lost generalizing added with
  | nil => cases removed
  | cons old lost ih =>
      rw [lostRelationships] at removed
      split at removed
      · next calendar =>
          rw [List.filter_cons_of_neg (by simp [calendar])]
          rcases List.mem_cons.mp removed with same | later
          · cases same
          · exact ih later
      · next other =>
          rw [List.filter_cons_of_pos (by simpa using other), List.map_cons, countFrom, countFrom,
            List.countP_cons, ← countFrom, ← countFrom]
          split at removed
          · rcases List.mem_cons.mp removed with same | later
            · cases same
            · exact Nat.lt_add_right _ (ih later)
          · split at removed
            · next moved found =>
                have source : moved.source = old.key.source := by simpa using List.find?_some found
                rcases List.mem_cons.mp removed with same | later
                · cases same
                · have fewer := ih later
                  rw [countFrom_erase (List.mem_of_find?_eq_some found), source]
                  simp only [beq_iff_eq]
                  exact Nat.add_lt_add_right fewer _
            · next none =>
                rcases List.mem_cons.mp removed with same | later
                · cases same
                  have absent : countFrom old.key.source added = 0 :=
                    List.countP_eq_zero.mpr (List.find?_eq_none.mp none)
                  rw [absent]
                  simp
                · exact Nat.lt_add_right _ (ih later)

/-- Where no fewer keys have the source, no fewer are added than are lost. -/
theorem countFrom_le_of_card_le {source : Text} {lost added : List RelationshipKey}
    (distinct : lost.Nodup) {before after : Finset RelationshipKey}
    (isLost : ∀ key ∈ lost, key.source = source -> key ∈ before \ after)
    (isAdded : ∀ key ∈ after \ before, key ∈ added ∧ key.source = source)
    (enough : before.card ≤ after.card) : countFrom source lost ≤ countFrom source added := by
  calc countFrom source lost
      = (lost.filter (·.source == source)).toFinset.card := by
        rw [List.toFinset_card_of_nodup (distinct.filter _), countFrom, List.countP_eq_length_filter]
    _ ≤ (before \ after).card := Finset.card_le_card fun key member => by
        rw [List.mem_toFinset, List.mem_filter, beq_iff_eq] at member
        exact isLost key member.1 member.2
    _ ≤ (after \ before).card := Finset.card_sdiff_le_card_sdiff_iff.mpr enough
    _ ≤ (added.filter (·.source == source)).toFinset.card := Finset.card_le_card fun key member => by
        rw [List.mem_toFinset, List.mem_filter, beq_iff_eq]
        exact isAdded key member
    _ ≤ countFrom source added := by
        rw [countFrom, List.countP_eq_length_filter]
        exact List.toFinset_card_le _

/-- No relationship with a source is removed if no fewer of the fresh ones have that
source. The relationships to the calendar need not be counted. -/
theorem not_removed_of_card_le
    (distinct : (earlier.relationships.map (·.key)).Nodup) {key : RelationshipKey}
    (before after : Finset RelationshipKey)
    (isBefore : ∀ other ∈ earlier.relationships.map (·.key), other.source = key.source ->
      other.isCalendar = false -> other ∈ before)
    (isAfter : ∀ other ∈ after, other ∈ fresh.relationships.map (·.key) ∧
      other.source = key.source)
    (isNew : ∀ other ∈ after, other ∈ earlier.relationships.map (·.key) -> other ∈ before)
    (enough : before.card ≤ after.card) :
    .relationship key .removed ∉ relationshipChanges settings earlier fresh := by
  intro removed
  have fewer := countFrom_lt_of_removed (mem_lostRelationships_of_mem removed rfl)
  refine absurd (countFrom_le_of_card_le ?_ ?_ ?_ enough) (Nat.not_le_of_lt fewer)
  · refine List.Nodup.sublist (List.filter_sublist.map _) ?_
    exact ((perm_relationshipsByKey earlier).map (·.key)).nodup_iff.mpr distinct |>.sublist
      (List.filter_sublist.map _)
  · intro other member source
    obtain ⟨old, inside, rfl⟩ := List.mem_map.mp member
    obtain ⟨isLost, notCalendar⟩ := List.mem_filter.mp inside
    obtain ⟨known, gone⟩ := List.mem_filter.mp isLost
    have unknown := (relationship?_eq_none_iff fresh _).mp (Option.isNone_iff_eq_none.mp gone)
    rw [Finset.mem_sdiff]
    refine ⟨isBefore _ (List.mem_map_of_mem ((perm_relationshipsByKey earlier).subset known)) source
      (by simpa using notCalendar), fun inAfter => unknown (isAfter _ inAfter).1⟩
  · intro other member
    rw [Finset.mem_sdiff] at member
    obtain ⟨isFresh, source⟩ := isAfter other member.1
    obtain ⟨new, known, rfl⟩ := List.mem_map.mp isFresh
    refine ⟨List.mem_map_of_mem (List.mem_filter.mpr
      ⟨(perm_relationshipsByKey fresh).symm.subset known, ?_⟩), source⟩
    rw [Option.isNone_iff_eq_none, relationship?_eq_none_iff]
    exact fun inEarlier => member.2 (isNew _ member.1 inEarlier)

end Change

end TabularModel
