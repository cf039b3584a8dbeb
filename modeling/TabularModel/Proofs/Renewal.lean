import TabularModel.Proofs.Generation.Unedited

/-!
# Regeneration after a set that nobody has edited

A model is regenerated beside the set that was written for another model, or for an
earlier state of it, under other options. If nobody has edited that set, the result
differs from a regeneration without an earlier set in tags and in the names of
relationships. Apart from these only the formats and the summaries of columns come
back, for columns that were written under the same source of the same table.
-/

set_option autoImplicit false

namespace TabularModel

open Catalog (Selection)
open Prior (IsTag KeepsMembers KeepsRelationship fileBlocks knownOf mergeFile mergedBlocks
  relationshipText? tableBlocksFor tableKey?)

namespace Prior

/-- What is left of an earlier set beside a fresh one. Both sets have the same files,
and each file holds the same blocks in the same order, but for what may come back. -/
structure LeavesIdentity (earlier fresh merged : DefinitionSet) : Prop where
  files : ∀ path, merged.contains path = fresh.contains path
  tables : ∀ path, Path.isInTablesFolder path = true -> fresh.contains path = true ->
    ∃ key table other, tableKey? table = some key ∧
      fresh.get? path = some (Document.render ⟨[table], true⟩) ∧
      merged.get? path = some (Document.render ⟨[other], true⟩) ∧
      RemainsTable (tableBlocksFor earlier key).getLast? table other
  relationships : ∃ blocks changed,
    fresh.get? Path.relationships = relationshipText? blocks ∧
    merged.get? Path.relationships = relationshipText? changed ∧
    List.Forall₂ KeepsRelationship blocks changed
  parameters : ∃ blocks changed,
    fresh.get? Path.expressions = some (Document.render ⟨blocks, true⟩) ∧
    merged.get? Path.expressions = some (Document.render ⟨changed, true⟩) ∧
    List.Forall₂ KeepsMembers blocks changed
  others : ∀ path, Path.isInTablesFolder path = false -> path ≠ Path.relationships ->
    path ≠ Path.expressions -> merged.get? path = fresh.get? path

/-! ## Relationships -/

theorem forall₂_mapIdx {α β γ : Type} {related : β -> γ -> Prop} (items : List α)
    {left : Nat -> α -> β} {right : Nat -> α -> γ}
    (each : ∀ position item, related (left position item) (right position item)) :
    List.Forall₂ related (items.mapIdx left) (items.mapIdx right) := by
  induction items generalizing left right with
  | nil => exact .nil
  | cons item items ih =>
      rw [List.mapIdx_cons, List.mapIdx_cons]
      exact .cons (each 0 item) (ih fun position other => each (position + 1) other)

theorem keepsRelationship_mergedBlocks {known : List Relationship} {tag : Nat -> Text}
    (tags : ∀ position, IsTag (tag position))
    (generated : ∀ relationship ∈ known, relationship.isGenerated = true)
    (relationships : List Definition.Relationship) :
    List.Forall₂ KeepsRelationship (mergedBlocks [] tag relationships)
      (mergedBlocks known tag relationships) := by
  rw [mergedBlocks_nil, mergedBlocks, keptBlocks_eq_nil generated, List.append_nil]
  unfold namedBlocks
  apply forall₂_mapIdx
  intro position relationship
  have trimmed : Text.IsTrimmed (tag position) :=
    Text.isTrimmed_of_noBlank _ (tags position).visible
  have header : (relationship.block (tag position)).hasHeader "relationship" = true := by
    rw [Block.hasHeader, relationship.header?_block trimmed]
    rfl
  exact ⟨⟨rfl, rfl⟩, Or.inr ⟨header, _, rfl⟩⟩

theorem relationshipText?_isSome_of_forall₂ {related : Block -> Block -> Prop}
    {blocks changed : List Block} (same : List.Forall₂ related blocks changed) :
    (relationshipText? changed).isSome = (relationshipText? blocks).isSome := by
  cases same <;> rfl

/-! ## Parameters -/

theorem mergeExpressions_empty (document : Document) :
    mergeExpressions (.ofDefinitions .empty) document = document := by
  have kept (block : Block) : takeTag ((name? "expression" block).bind
      (Model.ofDefinitions .empty).expressionTags.get?) block = block := by
    cases name? "expression" block <;> rfl
  unfold mergeExpressions Document.changeWith
  simp only [kept, ite_self, List.map_id']

end Prior

namespace Generation

variable {options : Options} {supply : Supply} {selection : Selection}
variable {relationships : List Definition.Relationship} {fresh : Output}

/-! ## Files beside such a set -/

/-- A merge with nothing writes the blocks that were generated. -/
theorem fileBlocks_merge_empty (generated : generate options supply selection = .ok fresh)
    (names : ∀ plan ∈ plans options selection, plan.HasSingleLines)
    (tags : ∀ slot, IsTag (supply slot)) (path : Text) :
    fileBlocks (merge fresh.definitions (.ofDefinitions .empty)) path =
      fileBlocks fresh.definitions path := by
  obtain ⟨relationships, isGenerated⟩ := exists_isGenerated generated
  by_cases isRelationships : path = Path.relationships
  · rw [isRelationships, fileBlocks, fileBlocks, isGenerated.get?_relationships_merge names tags,
      isGenerated.get?_relationships_fresh]
    rfl
  by_cases isExpressions : path = Path.expressions
  · obtain ⟨nonempty, nested, written⟩ := Prior.get?_expressions_merge isGenerated
    rw [isExpressions, fileBlocks, written, Prior.mergeExpressions_empty, Option.elim_some,
      Document.ofText_render_of_level nonempty nested]
  by_cases isTable : Path.isInTablesFolder path = true
  · cases isFresh : fresh.definitions.get? path with
    | none =>
        rw [fileBlocks, fileBlocks, get?_merge_of_ne _ _ (Ne.symm isRelationships), isFresh]
        rfl
    | some text =>
        obtain ⟨outline, tag, written, merged⟩ :=
          exists_mergedBlock generated names tags isTable isFresh
        have alone := Definition.TableOutline.ofText_mergedBlock_none written.readable written.tags
        have unknown : (Prior.Model.ofDefinitions .empty).tables.get?
            (Text.trim outline.logicalName) = none := rfl
        rw [fileBlocks, fileBlocks, merged, isFresh, unknown, Option.elim_some, Option.elim_some,
          alone, written.ofText]
        rfl
  · rw [fileBlocks, fileBlocks,
      get?_merge_of_other _ (by simpa using isTable) isRelationships isExpressions]

variable {firstOptions : Options} {firstSupply : Supply} {firstSelection : Selection}
variable {firstRelationships : List Definition.Relationship} {first : Output}

theorem IsGenerated.exists_remainsTable
    (unedited : IsGenerated firstOptions firstSupply firstSelection firstRelationships first)
    (firstNames : ∀ plan ∈ plans firstOptions firstSelection, plan.HasSingleLines)
    (firstTags : ∀ slot, IsTag (firstSupply slot))
    (generated : generate options supply selection = .ok fresh)
    (names : ∀ plan ∈ plans options selection, plan.HasSingleLines)
    (tags : ∀ slot, IsTag (supply slot)) {path : Text}
    (isTable : Path.isInTablesFolder path = true)
    (contained : fresh.definitions.contains path = true) :
    ∃ key table other, tableKey? table = some key ∧
      (merge fresh.definitions (.ofDefinitions .empty)).get? path =
        some (Document.render ⟨[table], true⟩) ∧
      (merge fresh.definitions (.ofDefinitions
        (merge first.definitions (.ofDefinitions .empty)))).get? path =
          some (Document.render ⟨[other], true⟩) ∧
      Prior.RemainsTable
        (tableBlocksFor (merge first.definitions (.ofDefinitions .empty)) key).getLast? table other := by
  rw [SortedMap.contains_eq, Option.isSome_iff_exists] at contained
  obtain ⟨text, isFresh⟩ := contained
  obtain ⟨table, member, same⟩ := exists_writtenTable_of_get? generated isTable isFresh
  have written := isTableText_file (isReadable_of_mem_writtenTables names member) tags
  rw [same] at written
  have merged (earlier : Prior.Model) := Definition.TableOutline.mergeFile_eq written earlier isTable
  have read (earlier : Prior.Model) : (merge fresh.definitions earlier).get? path =
      (fresh.definitions.get? path).map (mergeFile earlier path) :=
    get?_merge_of_ne _ _ (relationships_ne_of_isInTablesFolder isTable)
  have key := (table.outline.isReread_freshState fun member => supply (table.slot member)).tableKey?
  have alone := read (.ofDefinitions .empty)
  have beside := read (.ofDefinitions (merge first.definitions (.ofDefinitions .empty)))
  rw [isFresh, Option.map_some, merged] at alone beside
  refine ⟨_, _, _, key, alone, beside, ?_⟩
  refine Definition.TableOutline.remainsTable_mergedBlock written.tags
    (isTrimmed_format_of_mem_writtenTables member) ?_ (Prior.get?_tables _ _) ?_ ?_
  · intro block last
    have known := eq_of_beq (List.mem_filter.mp (List.mem_of_getLast? last)).2
    obtain ⟨earlier, readTable, _⟩ := Prior.exists_readTable? known
    exact ⟨earlier, readTable⟩
  · intro earlier found
    exact (unedited.isUnedited_merge firstNames firstTags Prior.isUnedited_empty).tables _ _ found
  · intro earlier found
    exact Prior.isWritable_of_get?_tables found

theorem IsGenerated.leavesIdentity_merge
    (unedited : IsGenerated firstOptions firstSupply firstSelection firstRelationships first)
    (firstNames : ∀ plan ∈ plans firstOptions firstSelection, plan.HasSingleLines)
    (firstTags : ∀ slot, IsTag (firstSupply slot))
    (generated : generate options supply selection = .ok fresh)
    (names : ∀ plan ∈ plans options selection, plan.HasSingleLines)
    (tags : ∀ slot, IsTag (supply slot)) :
    Prior.LeavesIdentity (merge first.definitions (.ofDefinitions .empty))
      (merge fresh.definitions (.ofDefinitions .empty))
      (merge fresh.definitions (.ofDefinitions
        (merge first.definitions (.ofDefinitions .empty)))) := by
  obtain ⟨relationships, isGenerated⟩ := exists_isGenerated generated
  have alone := isGenerated.get?_relationships_merge names tags .empty
  have beside := isGenerated.get?_relationships_merge names tags
    (merge first.definitions (.ofDefinitions .empty))
  have named := Prior.keepsRelationship_mergedBlocks (fun position => tags (.relationship position))
    (unedited.isUnedited_merge firstNames firstTags Prior.isUnedited_empty).generated relationships
  refine ⟨?_, ?_, ⟨_, _, alone, beside, named⟩, ?_, ?_⟩
  · intro path
    rw [SortedMap.contains_eq, SortedMap.contains_eq]
    by_cases isRelationships : path = Path.relationships
    · rw [isRelationships, alone, beside]
      exact Prior.relationshipText?_isSome_of_forall₂ named
    · rw [get?_merge_of_ne _ _ (Ne.symm isRelationships), get?_merge_of_ne _ _
        (Ne.symm isRelationships), Option.isSome_map, Option.isSome_map]
  · intro path isTable contained
    refine unedited.exists_remainsTable firstNames firstTags generated names tags isTable ?_
    rw [SortedMap.contains_eq, get?_merge_of_ne _ _ (relationships_ne_of_isInTablesFolder isTable),
      Option.isSome_map, ← SortedMap.contains_eq] at contained
    exact contained
  · obtain ⟨-, nested, written⟩ := Prior.get?_expressions_merge isGenerated
    obtain ⟨changed, merged, kept, -⟩ := Prior.exists_blocks_mergeExpressions
      (merge first.definitions (.ofDefinitions .empty)) nested
    refine ⟨_, changed, ?_, ?_, kept⟩
    · rw [written, Prior.mergeExpressions_empty]
    · rw [written, merged]
  · intro path notTable notRelationships notExpressions
    rw [get?_merge_of_other _ notTable notRelationships notExpressions,
      get?_merge_of_other _ notTable notRelationships notExpressions]

end Generation

/-- Beside a set that was regenerated without an earlier one and not edited, a model is
regenerated as it is without that set, but for tags, the names of relationships and what
columns take over that were written under the same source. -/
theorem regenerate_leavesIdentity
    {firstOptions : Generation.Options} {firstSettings : Change.Settings}
    {firstSupply : Generation.Supply} {firstSelection : Selection} {first : Regeneration}
    (accepted : regenerate firstOptions firstSettings firstSupply firstSelection none = .ok first)
    (firstNames : ∀ plan ∈ Generation.plans firstOptions firstSelection, plan.HasSingleLines)
    (firstTags : ∀ slot, IsTag (firstSupply slot))
    {options : Generation.Options} {settings : Change.Settings} {supply : Generation.Supply}
    {selection : Selection} {alone : Regeneration}
    (regenerated : regenerate options settings supply selection none = .ok alone)
    (names : ∀ plan ∈ Generation.plans options selection, plan.HasSingleLines)
    (tags : ∀ slot, IsTag (supply slot)) :
    ∃ fresh beside, Generation.generate options supply selection = .ok fresh ∧
      regenerate options settings supply selection (some first.definitions) = .ok beside ∧
      (∀ path, fileBlocks alone.definitions path = fileBlocks fresh.definitions path) ∧
      Prior.LeavesIdentity first.definitions alone.definitions beside.definitions := by
  obtain ⟨-, output, firstGenerated, firstDefinitions⟩ :=
    Regeneration.exists_of_regenerate accepted
  obtain ⟨_, unedited⟩ := Generation.exists_isGenerated firstGenerated
  obtain ⟨checked, fresh, generated, definitions⟩ := Regeneration.exists_of_regenerate regenerated
  obtain ⟨beside, again, merged⟩ :=
    Regeneration.exists_regenerate checked generated (some first.definitions)
  rw [Regeneration.earlierModel_eq, Option.getD_none] at firstDefinitions definitions
  rw [Regeneration.earlierModel_eq, Option.getD_some, firstDefinitions] at merged
  refine ⟨fresh, beside, generated, again, ?_, ?_⟩
  · rw [definitions]
    exact Generation.fileBlocks_merge_empty generated names tags
  · rw [firstDefinitions, definitions, merged]
    exact unedited.leavesIdentity_merge firstNames firstTags generated names tags

/-- A counted table that has lost its count and got another name, and whose numbers have
become texts. -/
theorem regenerate_leavesIdentity_retyped :
    let selection (name : Option Text) (role : Catalog.Role) (type : Catalog.AttributeType) :
        Selection :=
      { modelName := "Sales"
        tables := [{ Catalog.Table.plain "account" "accountid" with
          displayName := name, role := role, attributes := [⟨"score", none, type, [], none⟩] }]
        edges := []
        calendar := none }
    let numbers := selection none .fact .integer
    let texts := selection (some "Customer") .dimension .string
    let supply : Generation.Supply := fun _ => "first"
    let other : Generation.Supply := fun _ => "second"
    ∃ first alone fresh beside,
      regenerate .standard .standard supply numbers none = .ok first ∧
      regenerate .standard .standard other texts none = .ok alone ∧
      Generation.generate .standard other texts = .ok fresh ∧
      regenerate .standard .standard other texts (some first.definitions) = .ok beside ∧
      (∀ path, fileBlocks alone.definitions path = fileBlocks fresh.definitions path) ∧
      Prior.LeavesIdentity first.definitions alone.definitions beside.definitions := by
  intro selection numbers texts supply other
  have accepted : (regenerate .standard .standard supply numbers none).toOption.isSome = true ∧
      (regenerate .standard .standard other texts none).toOption.isSome = true := by
    decide +kernel
  obtain ⟨first, isFirst⟩ := Option.isSome_iff_exists.mp accepted.1
  obtain ⟨alone, isAlone⟩ := Option.isSome_iff_exists.mp accepted.2
  have regenerated := Generation.eq_ok_of_toOption isFirst
  have again := Generation.eq_ok_of_toOption isAlone
  have tags : IsTag "first" ∧ IsTag "second" := by decide
  obtain ⟨fresh, beside, generated, result, same, leaves⟩ := regenerate_leavesIdentity regenerated
    (by decide +kernel) (fun _ => tags.1) again (by decide +kernel) (fun _ => tags.2)
  exact ⟨first, alone, fresh, beside, regenerated, again, generated, result, same, leaves⟩

/-- The format of a number comes back in a column of texts, which is written without one. -/
theorem regenerate_formats_texts :
    let selection (type : Catalog.AttributeType) : Selection :=
      { modelName := "Sales"
        tables := [{ Catalog.Table.plain "account" "accountid" with
          attributes := [⟨"score", none, type, [], none⟩] }]
        edges := []
        calendar := none }
    let supply : Generation.Supply := fun _ => "fresh"
    let states (definitions : DefinitionSet) : Bool :=
      (definitions.get? (Path.table "account")).any fun text =>
        (Text.lines text).contains "\t\tformatString: 0"
    ∃ first beside fresh,
      regenerate .standard .standard supply (selection .integer) none = .ok first ∧
      regenerate .standard .standard supply (selection .string) (some first.definitions) =
        .ok beside ∧
      Generation.generate .standard supply (selection .string) = .ok fresh ∧
      states beside.definitions = true ∧ states fresh.definitions = false := by
  intro selection supply states
  have computed : ((regenerate .standard .standard supply (selection .integer) none).toOption.bind
      fun first => (regenerate .standard .standard supply (selection .string)
        (some first.definitions)).toOption.bind fun beside =>
          (Generation.generate .standard supply (selection .string)).toOption.map fun fresh =>
            (states beside.definitions, states fresh.definitions)) = some (true, false) := by
    decide +kernel
  obtain ⟨first, isFirst, computed⟩ := Option.bind_eq_some_iff.mp computed
  obtain ⟨beside, isBeside, computed⟩ := Option.bind_eq_some_iff.mp computed
  obtain ⟨fresh, isFresh, computed⟩ := Option.map_eq_some_iff.mp computed
  obtain ⟨stated, unstated⟩ := Prod.mk.inj computed
  exact ⟨first, beside, fresh, Generation.eq_ok_of_toOption isFirst,
    Generation.eq_ok_of_toOption isBeside, Generation.eq_ok_of_toOption isFresh, stated, unstated⟩

end TabularModel
