import TabularModel.Proofs.Generation.Labels

/-!
# Histories of regenerations

A model is regenerated again and again, each time beside the definitions that the time
before has left, while its tables, columns and edges come and go. If every identifier
that is drawn on the way is new, then an identifier that has labelled an element never
labels another one.
-/

set_option autoImplicit false

namespace TabularModel

open Catalog (Selection)
open Generation (Fault HasStableNames Options Supply isTag_wordsOf wordsOf)
open Prior (Element IsTag Label labels)

/-- What a model is regenerated from. -/
structure Run where
  options : Options
  settings : Change.Settings
  supply : Supply
  selection : Selection

/-- The identifiers that a run draws, whether or not they are kept. -/
def Run.drawn (run : Run) : List Text :=
  (Generation.elements run.options run.selection).map fun found => run.supply found.2

/-- The definitions after each run, where every run gets those of the one before. -/
def history (earlier : Option DefinitionSet) : List Run -> Except Fault (List DefinitionSet)
  | [] => .ok []
  | run :: runs => do
      let result <- regenerate run.options run.settings run.supply run.selection earlier
      let later <- history (some result.definitions) runs
      return result.definitions :: later

/-- A model that is accepted, under names and identifiers by which everything that is
written for it is found again. -/
structure Run.IsSound (run : Run) : Prop where
  accepted : ∃ result,
    regenerate run.options run.settings run.supply run.selection none = .ok result
  names : HasStableNames run.options run.selection
  tags : ∀ slot, IsTag (run.supply slot)

/-! ## Labels with one owner each -/

/-- No identifier labels two elements. -/
def AreOwned (labels : List Label) : Prop :=
  ∀ element other identifier, (element, identifier) ∈ labels -> (other, identifier) ∈ labels ->
    element = other

theorem AreOwned.subset {left right : List Label} (owned : AreOwned right)
    (included : ∀ label ∈ left, label ∈ right) : AreOwned left :=
  fun element other identifier first second =>
    owned element other identifier (included _ first) (included _ second)

/-- Different elements bear different identifiers. -/
theorem AreOwned.nodup_identifiers {labels : List Label} (owned : AreOwned labels)
    (distinct : (labels.map (·.1)).Nodup) : (labels.map (·.2)).Nodup := by
  have pairs : labels.Nodup := .of_map _ distinct
  refine pairs.map_on ?_
  rintro ⟨element, identifier⟩ member ⟨other, _⟩ otherMember rfl
  rw [owned element other identifier member otherMember]

/-! ## One run -/

/-- What is known before a run: the labels of all sets so far have one owner each, and all
their identifiers were drawn. -/
structure IsPast (past : List Label) (drawn : List Text) (earlier : DefinitionSet) : Prop where
  unedited : Prior.IsUnedited earlier
  owned : AreOwned past
  drawn : ∀ label ∈ past, label.2 ∈ drawn
  last : ∀ label ∈ labels earlier, label ∈ past

/-- The set that a run leaves, and its labels. -/
structure IsStep (run : Run) (earlier output : DefinitionSet) : Prop where
  unedited : Prior.IsUnedited earlier -> Prior.IsUnedited output
  labelled : Prior.IsUnedited earlier -> (labels output).Perm
    ((Generation.elements run.options run.selection).map (Generation.label earlier run.supply))
  distinct : ((Generation.elements run.options run.selection).map (·.1)).Nodup

theorem isStep_of_regenerate {run : Run} (sound : run.IsSound) {earlier : Option DefinitionSet}
    {result : Regeneration}
    (accepted : regenerate run.options run.settings run.supply run.selection earlier = .ok result) :
    IsStep run (earlier.getD .empty) result.definitions := by
  obtain ⟨-, fresh, generated, merged⟩ := Regeneration.exists_of_regenerate accepted
  obtain ⟨relationships, isGenerated⟩ := Generation.exists_isGenerated generated
  have single := Generation.hasSingleLines_of_mem_plans sound.names.stableTables
  rw [Regeneration.earlierModel_eq] at merged
  rw [merged]
  exact ⟨isGenerated.isUnedited_merge single sound.tags,
    isGenerated.perm_labels sound.names sound.tags, isGenerated.nodup_elements sound.names⟩

/-- A label of the set that a run leaves is an earlier one or bears an identifier that was
drawn for its element. -/
theorem IsStep.mem_labels {run : Run} {earlier output : DefinitionSet}
    (step : IsStep run earlier output) (unedited : Prior.IsUnedited earlier) {label : Label}
    (member : label ∈ labels output) :
    label ∈ labels earlier ∨ ∃ slot,
      (label.1, slot) ∈ Generation.elements run.options run.selection ∧ run.supply slot = label.2 := by
  obtain ⟨⟨element, slot⟩, inside, rfl⟩ :=
    List.mem_map.mp ((step.labelled unedited).mem_iff.mp member)
  rw [Generation.label]
  cases found : (Prior.Model.ofDefinitions earlier).identifier? element with
  | none => exact Or.inr ⟨slot, inside, rfl⟩
  | some identifier => exact Or.inl (Prior.mem_labels_of_identifier? found)

/-- Identifiers that are drawn anew belong to nothing that was labelled before. -/
theorem IsStep.isPast {run : Run} {earlier output : DefinitionSet}
    (step : IsStep run earlier output) {past : List Label} {drawn : List Text}
    (isPast : IsPast past drawn earlier) (new : (drawn ++ run.drawn).Nodup) :
    IsPast (past ++ labels output) (drawn ++ run.drawn) output := by
  obtain ⟨-, ownNew, apart⟩ := List.nodup_append.mp new
  have origin : ∀ label ∈ past ++ labels output, label ∈ past ∨ ∃ slot,
      (label.1, slot) ∈ Generation.elements run.options run.selection ∧ run.supply slot = label.2 := by
    intro label member
    rcases List.mem_append.mp member with old | own
    · exact Or.inl old
    · exact (step.mem_labels isPast.unedited own).imp_left (isPast.last label)
  have isDrawn {element : Element} {slot : Generation.Slot}
      (inside : (element, slot) ∈ Generation.elements run.options run.selection) :
      run.supply slot ∈ run.drawn := List.mem_map.mpr ⟨_, inside, rfl⟩
  refine ⟨step.unedited isPast.unedited, ?_, ?_, fun label => List.mem_append_right past⟩
  · intro element other identifier first second
    rcases origin _ first with old | ⟨slot, inside, rfl⟩
    · rcases origin _ second with otherOld | ⟨otherSlot, otherInside, rfl⟩
      · exact isPast.owned element other identifier old otherOld
      · exact absurd rfl (apart _ (isPast.drawn _ old) _ (isDrawn otherInside))
    · rcases origin _ second with otherOld | ⟨otherSlot, otherInside, same⟩
      · exact absurd rfl (apart _ (isPast.drawn _ otherOld) _ (isDrawn inside))
      · have equal := List.inj_on_of_nodup_map ownNew otherInside inside same
        exact (congrArg Prod.fst equal).symm
  · intro label member
    rcases origin label member with old | ⟨slot, inside, same⟩
    · exact List.mem_append_left _ (isPast.drawn label old)
    · exact List.mem_append_right _ (same ▸ isDrawn inside)

/-! ## All runs -/

theorem exists_of_history {earlier : Option DefinitionSet} {run : Run} {runs : List Run}
    {outputs : List DefinitionSet} (accepted : history earlier (run :: runs) = .ok outputs) :
    ∃ result later,
      regenerate run.options run.settings run.supply run.selection earlier = .ok result ∧
      history (some result.definitions) runs = .ok later ∧
      outputs = result.definitions :: later := by
  rw [history] at accepted
  cases first : regenerate run.options run.settings run.supply run.selection earlier with
  | error fault =>
      rw [first] at accepted
      cases accepted
  | ok result =>
      rw [first] at accepted
      cases rest : history (some result.definitions) runs with
      | error fault =>
          simp only [bind, Except.bind, rest] at accepted
          cases accepted
      | ok later =>
          simp only [bind, Except.bind, rest] at accepted
          cases accepted
          exact ⟨result, later, rfl, rest, rfl⟩

/-- Whether a run is accepted does not depend on what was before. -/
theorem exists_history {runs : List Run} (sound : ∀ run ∈ runs, run.IsSound)
    (earlier : Option DefinitionSet) : ∃ outputs, history earlier runs = .ok outputs := by
  induction runs generalizing earlier with
  | nil => exact ⟨[], rfl⟩
  | cons run runs ih =>
      obtain ⟨_, accepted⟩ := (sound run List.mem_cons_self).accepted
      obtain ⟨checked, _, generated, _⟩ := Regeneration.exists_of_regenerate accepted
      obtain ⟨result, regenerated, _⟩ := Regeneration.exists_regenerate checked generated earlier
      obtain ⟨later, rest⟩ := ih (fun other member => sound other (List.mem_cons_of_mem run member))
        (some result.definitions)
      refine ⟨result.definitions :: later, ?_⟩
      rw [history, regenerated]
      simp only [bind, Except.bind, rest]
      rfl

/-- The labels of a set are those of the elements of its run. -/
def Labels (run : Run) (output : DefinitionSet) : Prop :=
  ((labels output).map (·.1)).Perm
    ((Generation.elements run.options run.selection).map (·.1))

/-- The labels of all sets of a history, with those from before, have one owner each. -/
theorem exists_isPast_of_history {earlier : Option DefinitionSet} {runs : List Run}
    {outputs : List DefinitionSet} (accepted : history earlier runs = .ok outputs)
    (sound : ∀ run ∈ runs, run.IsSound) {past : List Label} {drawn : List Text}
    (isPast : IsPast past drawn (earlier.getD .empty))
    (new : (drawn ++ runs.flatMap Run.drawn).Nodup) :
    List.Forall₂ Labels runs outputs ∧ (∀ output ∈ outputs, ((labels output).map (·.1)).Nodup) ∧
      AreOwned (past ++ outputs.flatMap labels) := by
  induction runs generalizing earlier outputs past drawn with
  | nil =>
      cases accepted
      exact ⟨.nil, by simp, by simpa using isPast.owned⟩
  | cons run runs ih =>
      obtain ⟨result, later, regenerated, rest, rfl⟩ := exists_of_history accepted
      have step := isStep_of_regenerate (sound run List.mem_cons_self) regenerated
      rw [List.flatMap_cons, ← List.append_assoc] at new
      have next := step.isPast isPast (List.nodup_append.mp new).1
      obtain ⟨each, distinct, owned⟩ := ih rest
        (fun other member => sound other (List.mem_cons_of_mem run member)) next new
      have elements := (step.labelled isPast.unedited).map Prod.fst
      rw [List.map_map] at elements
      refine ⟨.cons elements each, ?_, ?_⟩
      · intro output member
        rcases List.mem_cons.mp member with rfl | member
        · exact elements.nodup_iff.mpr step.distinct
        · exact distinct output member
      · rw [List.flatMap_cons, ← List.append_assoc]
        exact owned

/-- Over a whole history, every element that is written bears one identifier in its set, and
no identifier ever labels two elements. -/
theorem history_keepsIdentifiers {runs : List Run} (sound : ∀ run ∈ runs, run.IsSound)
    (new : (runs.flatMap Run.drawn).Nodup) :
    ∃ outputs, history none runs = .ok outputs ∧
      List.Forall₂ Labels runs outputs ∧
      (∀ output ∈ outputs, ((labels output).map (·.2)).Nodup) ∧
      ∀ first ∈ outputs, ∀ second ∈ outputs, ∀ element other identifier,
        (element, identifier) ∈ labels first -> (other, identifier) ∈ labels second ->
          element = other := by
  obtain ⟨outputs, accepted⟩ := exists_history sound none
  have isPast : IsPast [] [] ((none : Option DefinitionSet).getD .empty) :=
    ⟨Prior.isUnedited_empty, by simp [AreOwned], by simp, by decide⟩
  obtain ⟨each, distinct, owned⟩ := exists_isPast_of_history accepted sound isPast
    (by simpa using new)
  rw [List.nil_append] at owned
  refine ⟨outputs, accepted, each, fun output member => ?_, ?_⟩
  · refine AreOwned.nodup_identifiers (owned.subset fun label inside => ?_) (distinct output member)
    exact List.mem_flatMap.mpr ⟨output, member, inside⟩
  · intro first member second otherMember element other identifier inside otherInside
    exact owned element other identifier (List.mem_flatMap.mpr ⟨first, member, inside⟩)
      (List.mem_flatMap.mpr ⟨second, otherMember, otherInside⟩)

/-- An account that is renamed, goes with its relationship, and comes back under its first
name. -/
theorem history_keepsIdentifiers_returned :
    let order : Catalog.Table :=
      { Catalog.Table.plain "order" "orderid" with
        role := .fact
        attributes := [⟨"customerid", none, .lookup, ["account"], none⟩] }
    let account (name : Text) : Catalog.Table :=
      { Catalog.Table.plain "account" "accountid" with displayName := some name }
    let run (number : Text) (tables : List Catalog.Table) : Run :=
      { options := .standard
        settings := .standard
        supply := wordsOf number
        selection :=
          { modelName := "Sales"
            tables := tables
            edges := [.plain "order" "customerid" "account"]
            calendar := none } }
    let runs := [run "1" [order, account "Account"], run "2" [order, account "Customer"],
      run "3" [order], run "4" [order, account "Account"]]
    ∃ outputs, history none runs = .ok outputs ∧
      List.Forall₂ Labels runs outputs ∧
      (∀ output ∈ outputs, ((labels output).map (·.2)).Nodup) ∧
      ∀ first ∈ outputs, ∀ second ∈ outputs, ∀ element other identifier,
        (element, identifier) ∈ labels first -> (other, identifier) ∈ labels second ->
          element = other := by
  intro order account run runs
  have standard : Options.standard.corrections.AreStable ∧
      ∀ parameter ∈ Options.standard.connection.parameters, Text.IsSingleLine parameter.2 := by
    decide +kernel
  have sound (number : Text) (tables : List Catalog.Table)
      (accepted : (regenerate .standard .standard (wordsOf number) (run number tables).selection
        none).toOption.isSome = true)
      (names : ∀ table ∈ tables, table.HasStableNames) (visible : number.any isBlank = false) :
      (run number tables).IsSound := by
    obtain ⟨result, found⟩ := Option.isSome_iff_exists.mp accepted
    exact ⟨⟨result, Generation.eq_ok_of_toOption found⟩,
      ⟨names, standard.1, standard.2, fun configured => Bool.noConfusion configured⟩,
      isTag_wordsOf visible⟩
  refine history_keepsIdentifiers ?_ ?_
  · intro member inside
    simp only [runs, List.mem_cons, List.not_mem_nil, or_false] at inside
    rcases inside with rfl | rfl | rfl | rfl <;>
      exact sound _ _ (by decide +kernel) (by decide +kernel) (by decide)
  · decide +kernel

/-- An identifier labels two columns if the name of a key begins with a blank, and two
parameters if the value of one held lines of its own. -/
theorem history_repeats_identifiers :
    let account (key : Text) : Catalog.Table :=
      { Catalog.Table.plain "account" key with
        attributes := [⟨"accountid", some "Number", .string, [], none⟩] }
    let run (number value key : Text) : Run :=
      { options := { Options.standard with connection := ⟨.fabricLink, "", value, value⟩ }
        settings := .standard
        supply := wordsOf number
        selection := { modelName := "Sales", tables := [account key], edges := [], calendar := none } }
    let repeats (runs : List Run) : Prop :=
      (∀ run ∈ runs, ∀ slot, IsTag (run.supply slot)) ∧ (runs.flatMap Run.drawn).Nodup ∧
        ∃ outputs, history none runs = .ok outputs ∧
          ∃ output ∈ outputs, ¬ ((labels output).map (·.2)).Nodup
    let spaced := [run "1" "server" " accountid", run "2" "server" " accountid"]
    let lined := [run "1" "server\n\tlineageTag: server\n" "accountid", run "2" "server" "accountid"]
    (repeats spaced ∧ ∀ run ∈ spaced,
      (∀ parameter ∈ run.options.connection.parameters, Text.IsSingleLine parameter.2) ∧
        ∀ table ∈ run.selection.tables, Text.IsSingleLine table.primaryKey) ∧
      repeats lined ∧ ∀ run ∈ lined, ∀ table ∈ run.selection.tables, table.HasStableNames := by
  intro account run repeats spaced lined
  have repeated (runs : List Run) (tags : ∀ run ∈ runs, ∀ slot, IsTag (run.supply slot))
      (computed : (runs.flatMap Run.drawn).Nodup ∧
        (history none runs).toOption.any (fun outputs => outputs.any fun output =>
          !decide ((labels output).map (·.2)).Nodup) = true) : repeats runs := by
    obtain ⟨outputs, accepted, some⟩ := Option.any_eq_true _ _ |>.mp computed.2
    obtain ⟨output, member, twice⟩ := List.any_eq_true.mp some
    exact ⟨tags, computed.1, outputs, Generation.eq_ok_of_toOption accepted, output, member,
      by simpa using twice⟩
  have tags (value key other otherKey : Text) :
      ∀ found ∈ [run "1" value key, run "2" other otherKey], ∀ slot, IsTag (found.supply slot) := by
    intro found member
    rcases List.mem_pair.mp member with rfl | rfl
    · exact isTag_wordsOf (by decide)
    · exact isTag_wordsOf (by decide)
  -- Both histories write nearly the same texts, so they are evaluated at once.
  have computed : ∀ runs ∈ [spaced, lined], (runs.flatMap Run.drawn).Nodup ∧
      (history none runs).toOption.any (fun outputs => outputs.any fun output =>
        !decide ((labels output).map (·.2)).Nodup) = true := by
    decide +kernel
  exact ⟨⟨repeated spaced (tags _ _ _ _) (computed _ (by simp)), by decide +kernel⟩,
    repeated lined (tags _ _ _ _) (computed _ (by simp)), by decide +kernel⟩

end TabularModel
