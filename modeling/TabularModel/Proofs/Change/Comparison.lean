import Mathlib.Data.Set.Function
import TabularModel.Change.Comparison
import TabularModel.Proofs.SortedMap

/-!
# Harmless changes

Changes are harmless if none of them is destructive. A comparison is harmless if
everything that it does not find under its key has been paired with something new,
each with one of its own. So an earlier model has partners in the fresh one.
-/

set_option autoImplicit false

namespace TabularModel

namespace Change

open Prior (Model)

def AreHarmless (changes : List Change) : Prop :=
  ∀ change ∈ changes, change.isDestructive = false

instance (changes : List Change) : Decidable (AreHarmless changes) :=
  inferInstanceAs (Decidable (∀ change ∈ changes, change.isDestructive = false))

theorem areHarmless_append {left right : List Change} :
    AreHarmless (left ++ right) ↔ AreHarmless left ∧ AreHarmless right :=
  List.forall_mem_append

theorem areHarmless_cons {change : Change} {changes : List Change} :
    AreHarmless (change :: changes) ↔ change.isDestructive = false ∧ AreHarmless changes :=
  List.forall_mem_cons

theorem areHarmless_flatMap {α : Type} {items : List α} {changesOf : α -> List Change} :
    AreHarmless (items.flatMap changesOf) ↔ ∀ item ∈ items, AreHarmless (changesOf item) := by
  simp only [AreHarmless, List.forall_mem_flatMap]

theorem areHarmless_map {α : Type} {items : List α} {changeOf : α -> Change} :
    AreHarmless (items.map changeOf) ↔ ∀ item ∈ items, (changeOf item).isDestructive = false :=
  List.forall_mem_map

/-- Nothing is among changes that would destroy each of the items. -/
theorem eq_nil_of_areHarmless_map {α : Type} {items : List α} {changeOf : α -> Change}
    (destructive : ∀ item, (changeOf item).isDestructive = true)
    (harmless : AreHarmless (items.map changeOf)) : items = [] := by
  refine List.eq_nil_iff_forall_not_mem.mpr fun item member => ?_
  have spared := areHarmless_map.mp harmless item member
  rw [destructive item] at spared
  cases spared

/-! ## Partners -/

/-- Pairs of different items with different new ones make up partners for all items:
where there is no pair, an item is its own partner. -/
theorem exists_partner {α β : Type} [DecidableEq α] {own : List α} {pairs : List β}
    (first second : β -> α) (firsts : (pairs.map first).Nodup) (seconds : (pairs.map second).Nodup)
    (new : ∀ pair ∈ pairs, second pair ∉ own) :
    ∃ partner : α -> α, Set.InjOn partner {item | item ∈ own} ∧
      (∀ pair ∈ pairs, partner (first pair) = second pair) ∧
      ∀ item, item ∉ pairs.map first -> partner item = item := by
  let partner := fun item => ((pairs.find? fun pair => first pair == item).map second).getD item
  have paired : ∀ pair ∈ pairs, partner (first pair) = second pair := by
    intro pair member
    have hit : (pairs.find? fun other => first other == first pair).isSome = true :=
      List.find?_isSome.mpr ⟨pair, member, beq_self_eq_true (first pair)⟩
    obtain ⟨found, isFound⟩ := Option.isSome_iff_exists.mp hit
    have same : first found = first pair := by simpa using List.find?_some isFound
    have equal := List.inj_on_of_nodup_map firsts (List.mem_of_find?_eq_some isFound) member same
    simp only [partner, isFound, Option.map_some, Option.getD_some, equal]
  have single : ∀ item, item ∉ pairs.map first -> partner item = item := by
    intro item absent
    have none : (pairs.find? fun pair => first pair == item) = none := by
      refine List.find?_eq_none.mpr fun pair member same => ?_
      exact absent (List.mem_map.mpr ⟨pair, member, by simpa using same⟩)
    simp only [partner, none, Option.map_none, Option.getD_none]
  refine ⟨partner, ?_, paired, single⟩
  -- Partners of pairs are new, and those of single items are not.
  intro left leftOwn right rightOwn same
  by_cases leftPaired : left ∈ pairs.map first <;> by_cases rightPaired : right ∈ pairs.map first
  · obtain ⟨pair, member, rfl⟩ := List.mem_map.mp leftPaired
    obtain ⟨other, otherMember, rfl⟩ := List.mem_map.mp rightPaired
    rw [paired pair member, paired other otherMember] at same
    rw [List.inj_on_of_nodup_map seconds member otherMember same]
  · obtain ⟨pair, member, rfl⟩ := List.mem_map.mp leftPaired
    rw [paired pair member, single right rightPaired] at same
    exact absurd (same ▸ rightOwn) (new pair member)
  · obtain ⟨pair, member, rfl⟩ := List.mem_map.mp rightPaired
    rw [paired pair member, single left leftPaired] at same
    exact absurd (same.symm ▸ leftOwn) (new pair member)
  · rwa [single left leftPaired, single right rightPaired] at same

/-- What is found first stands in front of what is left without it. -/
theorem perm_cons_eraseP {α : Type} {test : α -> Bool} {items : List α} {item : α}
    (found : items.find? test = some item) : items.Perm (item :: items.eraseP test) := by
  induction items with
  | nil => cases found
  | cons first items ih =>
      rw [List.find?_cons] at found
      rw [List.eraseP_cons]
      cases hit : test first with
      | true =>
          rw [hit] at found
          rw [Option.some.inj found, cond_true]
      | false =>
          rw [hit] at found
          exact ((ih found).cons first).trans (.swap item first _)

/-! ## Columns -/

/-- A pairing makes pairs of columns with the same name, and leaves the others. -/
structure IsPairing (earlier fresh : List Prior.Column) (pairing : Pairing) : Prop where
  earlier : (pairing.pairs.map (·.1) ++ pairing.removed).Perm earlier
  fresh : (pairing.pairs.map (·.2) ++ pairing.added).Perm fresh
  names : ∀ pair ∈ pairing.pairs, haveSameName pair.1 pair.2 = true

theorem isPairing_pairByName (earlier fresh : List Prior.Column) :
    IsPairing earlier fresh (pairByName earlier fresh) := by
  induction earlier generalizing fresh with
  | nil => exact ⟨.nil, .refl fresh, by simp [pairByName]⟩
  | cons old earlier ih =>
      rw [pairByName]
      cases found : fresh.find? (haveSameName old) with
      | some new =>
          have rest := ih (fresh.eraseP (haveSameName old))
          refine ⟨rest.earlier.cons old, (rest.fresh.cons new).trans (perm_cons_eraseP found).symm, ?_⟩
          exact List.forall_mem_cons.mpr ⟨List.find?_some found, rest.names⟩
      | none =>
          have rest := ih fresh
          exact ⟨List.perm_middle.trans (rest.earlier.cons old), rest.fresh, rest.names⟩

/-- Columns are entered under their sources. -/
def HasOwnSources (table : Prior.Table) : Prop :=
  ∀ entry ∈ table.columns.entries, entry.2.source = entry.1

section

variable {table other : Prior.Table}

theorem source_of_get? (own : HasOwnSources table) {source : Text} {column : Prior.Column}
    (found : table.columns.get? source = some column) : column.source = source :=
  own _ (SortedMap.mem_of_get? found)

/-- A column is without a partner if it is known here and its source is not known there. -/
theorem mem_withoutPartner_iff (own : HasOwnSources table) (column : Prior.Column) :
    column ∈ withoutPartner table other ↔
      table.columns.get? column.source = some column ∧ other.columns.get? column.source = none := by
  rw [withoutPartner, SortedMap.values, SortedMap.filter, List.mem_map]
  constructor
  · rintro ⟨entry, member, rfl⟩
    obtain ⟨inside, absent⟩ := List.mem_filter.mp member
    rw [own entry inside, SortedMap.get?_of_mem inside]
    simpa [SortedMap.contains_eq] using absent
  · rintro ⟨found, absent⟩
    refine ⟨(column.source, column), List.mem_filter.mpr ⟨SortedMap.mem_of_get? found, ?_⟩, rfl⟩
    simp [SortedMap.contains_eq, absent]

theorem nodup_withoutPartner (own : HasOwnSources table) :
    ((withoutPartner table other).map (·.source)).Nodup := by
  have keys : (withoutPartner table other).map (·.source) =
      ((table.columns.filter fun source _ => !other.columns.contains source).entries).map (·.1) := by
    rw [withoutPartner, SortedMap.values, List.map_map]
    exact List.map_congr_left fun entry member => own entry (List.mem_of_mem_filter member)
  rw [keys]
  exact SortedMap.keys_nodup _

end

/-- Under harmless changes every column has a partner in the fresh table: under its own
source, or one with its name. -/
theorem exists_columnPartner {settings : Settings} {earlier fresh : Prior.Table}
    (ownEarlier : HasOwnSources earlier) (ownFresh : HasOwnSources fresh)
    (harmless : AreHarmless (columnChanges settings earlier fresh)) :
    ∃ partner : Text -> Text, Set.InjOn partner {source | source ∈ earlier.columns.keys} ∧
      ∀ source old, earlier.columns.get? source = some old ->
        ∃ new, fresh.columns.get? (partner source) = some new ∧
          (partner source = source ∨ haveSameName old new = true) := by
  have pairing := isPairing_pairByName (withoutPartner earlier fresh) (withoutPartner fresh earlier)
  have none : (pairByName (withoutPartner earlier fresh) (withoutPartner fresh earlier)).removed = [] :=
    eq_nil_of_areHarmless_map (fun _ => rfl) (areHarmless_append.mp harmless).2
  revert pairing none
  generalize pairByName (withoutPartner earlier fresh) (withoutPartner fresh earlier) = parts
  intro pairing none
  have firsts := pairing.earlier
  rw [none, List.append_nil] at firsts
  have seconds : ∀ pair ∈ parts.pairs, pair.2 ∈ withoutPartner fresh earlier := fun pair member =>
    pairing.fresh.subset (List.mem_append_left _ (List.mem_map_of_mem member))
  have firstSources : (parts.pairs.map fun pair => pair.1.source).Nodup := by
    have distinct := (firsts.map (·.source)).nodup_iff.mpr (nodup_withoutPartner ownEarlier)
    rwa [List.map_map] at distinct
  have secondSources : (parts.pairs.map fun pair => pair.2.source).Nodup := by
    have distinct := (pairing.fresh.map (·.source)).nodup_iff.mpr (nodup_withoutPartner ownFresh)
    rw [List.map_append, List.map_map] at distinct
    exact distinct.of_append_left
  have new : ∀ pair ∈ parts.pairs, pair.2.source ∉ earlier.columns.keys := by
    intro pair isPair inside
    have absent := ((mem_withoutPartner_iff ownFresh _).mp (seconds pair isPair)).2
    obtain ⟨entry, known, same⟩ := List.mem_map.mp inside
    rw [← same, SortedMap.get?_of_mem known] at absent
    cases absent
  obtain ⟨partner, injective, paired, single⟩ := exists_partner _ _ firstSources secondSources new
  refine ⟨partner, injective, fun source old found => ?_⟩
  cases known : fresh.columns.get? source with
  | some new =>
      have same : partner source = source := by
        refine single source fun inside => ?_
        obtain ⟨pair, isPair, rfl⟩ := List.mem_map.mp inside
        have lone := firsts.subset (List.mem_map_of_mem (f := (·.1)) isPair)
        rw [((mem_withoutPartner_iff ownEarlier _).mp lone).2] at known
        cases known
      exact ⟨new, same.symm ▸ known, Or.inl same⟩
  | none =>
      have isSource := source_of_get? ownEarlier found
      have lone : old ∈ withoutPartner earlier fresh := by
        rw [mem_withoutPartner_iff ownEarlier, isSource]
        exact ⟨found, known⟩
      obtain ⟨pair, isPair, rfl⟩ := List.mem_map.mp (firsts.symm.subset lone)
      have taken : partner source = pair.2.source := by
        rw [← isSource]
        exact paired pair isPair
      rw [taken]
      exact ⟨pair.2, ((mem_withoutPartner_iff ownFresh _).mp (seconds pair isPair)).1,
        Or.inr (pairing.names pair isPair)⟩

/-! ## Measures -/

theorem generatedMeasures_subset {earlier fresh : Prior.Table}
    (harmless : AreHarmless (measureChanges earlier fresh)) :
    generatedMeasures earlier ⊆ generatedMeasures fresh := by
  have none := eq_nil_of_areHarmless_map (fun _ => rfl)
    (areHarmless_append.mp (areHarmless_append.mp harmless).1).2
  intro name member
  simpa using List.filter_eq_nil_iff.mp none name member

theorem mem_generatedMeasures_iff (table : Prior.Table) (name : Text) :
    name ∈ generatedMeasures table ↔
      ∃ measure ∈ table.measures, measure.isGenerated = true ∧ measure.name = name := by
  simp [generatedMeasures, and_assoc]

/-! ## Relationships -/

/-- Harmlessly lost relationships move, apart from those to the calendar and those that
a person has added: each to an added one of its own, with the same source. -/
theorem exists_moves (earlier : List Prior.Relationship) (added : List RelationshipKey)
    (harmless : AreHarmless (lostRelationships earlier added).1) :
    ∃ moves : List (RelationshipKey × RelationshipKey),
      moves.map (·.1) = (earlier.filter fun old => !old.key.isCalendar && old.isGenerated).map (·.key) ∧
      (moves.map (·.2) ++ (lostRelationships earlier added).2).Perm added ∧
      ∀ move ∈ moves, move.2.source = move.1.source := by
  induction earlier generalizing added with
  | nil => exact ⟨[], rfl, .refl added, by simp⟩
  | cons old earlier ih =>
      rw [lostRelationships] at harmless ⊢
      by_cases calendar : old.key.isCalendar = true
      · rw [if_pos calendar] at harmless ⊢
        rw [List.filter_cons_of_neg (by simp [calendar])]
        exact ih added (areHarmless_cons.mp harmless).2
      · rw [if_neg calendar] at harmless ⊢
        by_cases user : (!old.isGenerated) = true
        · rw [if_pos user] at harmless ⊢
          rw [List.filter_cons_of_neg (by simpa using fun _ => user)]
          exact ih added (areHarmless_cons.mp harmless).2
        · rw [if_neg user] at harmless ⊢
          rw [List.filter_cons_of_pos (by simpa [calendar] using user)]
          cases found : added.find? (·.source == old.key.source) with
          | some moved =>
              rw [found] at harmless
              obtain ⟨moves, firsts, seconds, sources⟩ :=
                ih (added.erase moved) (areHarmless_cons.mp harmless).2
              have member := List.mem_of_find?_eq_some found
              refine ⟨(old.key, moved) :: moves, congrArg (old.key :: ·) firsts,
                (seconds.cons moved).trans (List.perm_cons_erase member).symm, ?_⟩
              refine List.forall_mem_cons.mpr ⟨?_, sources⟩
              simpa using List.find?_some found
          | none =>
              rw [found] at harmless
              have lost := (areHarmless_cons.mp harmless).1
              cases lost

/-- What becomes of a relationship under harmless changes: it stays, if it is fresh or a
person has added it, or it moves to a new one with its source. -/
inductive IsPartner (earlier fresh : Model) (old : Prior.Relationship) : RelationshipKey -> Prop where
  | stays (kept : (fresh.relationship? old.key).isSome = true ∨ old.isGenerated = false) :
      IsPartner earlier fresh old old.key
  | moves {key : RelationshipKey} (generated : old.isGenerated = true)
      (isFresh : key ∈ fresh.relationships.map (·.key))
      (isNew : key ∉ earlier.relationships.map (·.key)) (source : key.source = old.key.source) :
      IsPartner earlier fresh old key

theorem perm_relationshipsByKey (model : Model) :
    model.relationshipsByKey.Perm model.relationships :=
  List.mergeSort_perm _ _

theorem relationship?_eq_none_iff (model : Model) (key : RelationshipKey) :
    model.relationship? key = none ↔ key ∉ model.relationships.map (·.key) := by
  rw [Model.relationship?, List.find?_eq_none, List.mem_map]
  simp

/-- Under harmless changes every relationship that does not lead to the calendar has a
partner, and different ones have different partners. -/
theorem exists_relationshipPartner {settings : Settings} {earlier fresh : Model}
    (distinct : (earlier.relationships.map (·.key)).Nodup)
    (freshDistinct : (fresh.relationships.map (·.key)).Nodup)
    (harmless : AreHarmless (relationshipChanges settings earlier fresh)) :
    ∃ partner : RelationshipKey -> RelationshipKey,
      Set.InjOn partner {key | key ∈ earlier.relationships.map (·.key)} ∧
      ∀ old ∈ earlier.relationships, old.key.isCalendar = false ->
        IsPartner earlier fresh old (partner old.key) := by
  let lost := earlier.relationshipsByKey.filter fun old => (fresh.relationship? old.key).isNone
  let added := (fresh.relationshipsByKey.filter fun new => (earlier.relationship? new.key).isNone).map
    (·.key)
  obtain ⟨moves, firsts, seconds, sources⟩ := exists_moves lost added
    (areHarmless_append.mp (areHarmless_append.mp harmless).1).2
  have isAdded : ∀ key ∈ added, key ∈ fresh.relationships.map (·.key) ∧
      key ∉ earlier.relationships.map (·.key) := by
    intro key member
    obtain ⟨new, inside, rfl⟩ := List.mem_map.mp member
    obtain ⟨known, absent⟩ := List.mem_filter.mp inside
    exact ⟨List.mem_map_of_mem ((perm_relationshipsByKey fresh).subset known),
      (relationship?_eq_none_iff earlier _).mp (Option.isNone_iff_eq_none.mp absent)⟩
  have goal : ∀ move ∈ moves, move.2 ∈ added := fun move member =>
    seconds.subset (List.mem_append_left _ (List.mem_map_of_mem member))
  have lostKeys : (lost.map (·.key)).Nodup :=
    ((perm_relationshipsByKey earlier).map (·.key)).nodup_iff.mpr distinct |>.sublist
      (List.filter_sublist.map _)
  have addedKeys : added.Nodup :=
    ((perm_relationshipsByKey fresh).map (·.key)).nodup_iff.mpr freshDistinct |>.sublist
      (List.filter_sublist.map _)
  have firstKeys : (moves.map (·.1)).Nodup := by
    rw [firsts]
    exact lostKeys.sublist (List.filter_sublist.map _)
  have secondKeys : (moves.map (·.2)).Nodup :=
    (seconds.nodup_iff.mpr addedKeys).of_append_left
  obtain ⟨partner, injective, paired, single⟩ := exists_partner _ _ firstKeys secondKeys
    fun move member => (isAdded move.2 (goal move member)).2
  refine ⟨partner, injective, fun old inside notCalendar => ?_⟩
  by_cases moved : old.key ∈ moves.map (·.1)
  · obtain ⟨move, member, same⟩ := List.mem_map.mp moved
    have generated : old.isGenerated = true := by
      rw [firsts] at moved
      obtain ⟨other, isLost, sameKey⟩ := List.mem_map.mp moved
      obtain ⟨known, marked⟩ := List.mem_filter.mp isLost
      have again := (perm_relationshipsByKey earlier).subset (List.mem_of_mem_filter known)
      rw [← List.inj_on_of_nodup_map distinct again inside sameKey]
      exact (Bool.and_eq_true_iff.mp marked).2
    obtain ⟨isFresh, isNew⟩ := isAdded move.2 (goal move member)
    rw [← same, paired move member]
    exact .moves generated isFresh isNew (same ▸ sources move member)
  · rw [single old.key moved]
    refine .stays ?_
    by_contra neither
    obtain ⟨unknown, generated⟩ := not_or.mp neither
    refine moved ?_
    rw [firsts]
    refine List.mem_map_of_mem (List.mem_filter.mpr ⟨List.mem_filter.mpr
      ⟨(perm_relationshipsByKey earlier).symm.subset inside, by simpa using unknown⟩, ?_⟩)
    simpa [notCalendar] using generated

/-! ## Tables -/

/-- The parts of a comparison that may be destructive. -/
structure HasHarmlessParts (settings : Settings) (earlier fresh : Model) : Prop where
  tables : ∀ entry ∈ fresh.tables.entries, AreHarmless (freshTable settings earlier entry.1 entry.2)
  removals : ∀ entry ∈ earlier.tables.entries, AreHarmless (removedTable fresh entry.1 entry.2)
  relationships : AreHarmless (relationshipChanges settings earlier fresh)

theorem hasHarmlessParts_of_compare {settings : Settings} {earlier : Model}
    {definitions : DefinitionSet} (harmless : AreHarmless (compare settings earlier definitions)) :
    HasHarmlessParts settings earlier (.ofDefinitions definitions) := by
  rw [compare, areHarmless_append, areHarmless_append, areHarmless_append, areHarmless_append,
    areHarmless_flatMap, areHarmless_flatMap] at harmless
  obtain ⟨⟨⟨⟨tables, removals⟩, -⟩, relationships⟩, -⟩ := harmless
  exact ⟨tables, removals, relationships⟩

namespace HasHarmlessParts

variable {settings : Settings} {earlier fresh : Model}
variable (parts : HasHarmlessParts settings earlier fresh)
include parts

/-- A generated table is found again under its key. -/
theorem exists_get?_of_isGenerated {key : Text} {old : Prior.Table}
    (found : earlier.tables.get? key = some old) (generated : old.isGenerated = true) :
    ∃ new, fresh.tables.get? key = some new := by
  have spared := parts.removals _ (SortedMap.mem_of_get? found)
  rw [← Option.isSome_iff_exists, ← SortedMap.contains_eq]
  by_contra absent
  simp only [removedTable, generated] at spared
  rw [if_neg (by simpa using absent)] at spared
  cases (areHarmless_cons.mp spared).1

/-- Under one key the columns and the measures of a table are compared. -/
theorem areHarmless_tableChanges {key : Text} {old new : Prior.Table}
    (found : earlier.tables.get? key = some old) (isFresh : fresh.tables.get? key = some new) :
    AreHarmless (columnChanges settings old new) ∧ AreHarmless (measureChanges old new) := by
  have spared := parts.tables _ (SortedMap.mem_of_get? isFresh)
  simp only [freshTable, found] at spared
  rw [areHarmless_append, tableChanges, areHarmless_append, areHarmless_append] at spared
  exact spared.1.1

end HasHarmlessParts

end Change

end TabularModel
