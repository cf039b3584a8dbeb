import TabularModel.Proofs.Prior.Places

/-!
# Measures that people have added

A measure that a person has added to a table stays with the table, line for line,
in front of its partition. What counts as added is seen from names alone: the
measure bears neither the name of the row count of its table nor that of a measure
which is written anew.
-/

set_option autoImplicit false

namespace TabularModel

open Prior (IsTag IsReadFrom name? readMeasure? tableBlocksFor)

namespace Prior

/-! ## Added measures by their names -/

def measureNames (table : Block) : List Text :=
  (table.childrenWith "measure").filterMap (name? "measure")

/-- The measures of a table apart from its row count and from those with the given
names. -/
def ownMeasures (table : Block) (taken : List Text) : List Block :=
  (table.childrenWith "measure").filter fun measure =>
    !((name? "table" table).map Convention.countMeasure :: taken.map some).contains
      (name? "measure" measure)

/-- The table blocks of a definition set are known by different keys. -/
def HasDistinctTables (definitions : DefinitionSet) : Prop :=
  ((tableBlocks definitions).filterMap tableKey?).Nodup

instance (definitions : DefinitionSet) : Decidable (HasDistinctTables definitions) :=
  inferInstanceAs (Decidable (List.Nodup _))

/-- What is read of a measure is kept or left out as its block is. -/
theorem map_block_kept (table : Text) (taken : List Text) (blocks : List Block)
    (headers : ∀ block ∈ blocks, block.hasHeader "measure" = true) :
    (((blocks.filterMap (readMeasure? table)).filter (!·.isGenerated)).filter
        fun measure => !taken.contains measure.name).map (·.block) =
      blocks.filter fun measure =>
        !(some (Convention.countMeasure table) :: taken.map some).contains
          (name? "measure" measure) := by
  induction blocks with
  | nil => rfl
  | cons block blocks ih =>
      obtain ⟨header, found⟩ := Option.isSome_iff_exists.mp (headers block List.mem_cons_self)
      have named : name? "measure" block = some (Name.split header).1 := by
        rw [name?, nameAndRest?, found]
        rfl
      obtain ⟨measure, read, same, inside, generated⟩ :=
        Definition.TableOutline.exists_readMeasure? table named
      have others := ih fun other member => headers other (List.mem_cons_of_mem block member)
      have sameTest : (!taken.contains (Name.split header).1 &&
            !((Name.split header).1 == Convention.countMeasure table)) =
          !(some (Convention.countMeasure table) :: taken.map some).contains
            (some (Name.split header).1) := by
        by_cases counts : (Name.split header).1 = Convention.countMeasure table <;>
          by_cases given : (Name.split header).1 ∈ taken <;> simp [counts, given]
      rw [List.filterMap_cons_some read, List.filter_filter, List.filter_cons, List.filter_cons,
        ← List.filter_filter, generated, same, named, sameTest]
      split
      · rw [List.map_cons, inside, others]
      · exact others

/-- The measures that are kept of a table are those that people have added. -/
theorem map_block_userMeasures {block : Block} {table : Table} (parts : IsReadFrom block table)
    (taken : List Text) :
    ((table.userMeasures).filter fun measure => !taken.contains measure.name).map (·.block) =
      ownMeasures block taken := by
  rw [Table.userMeasures, parts.measures, ownMeasures, parts.name]
  exact map_block_kept table.name taken _ fun child member => (List.mem_filter.mp member).2

/-- Under different keys there is at most one block for a key. -/
theorem length_tableBlocksFor_le {definitions : DefinitionSet}
    (distinct : HasDistinctTables definitions) (key : Text) :
    (tableBlocksFor definitions key).length ≤ 1 := by
  have keys : (tableBlocksFor definitions key).filterMap tableKey? =
      List.replicate (tableBlocksFor definitions key).length key := by
    have known : ∀ block ∈ tableBlocksFor definitions key,
        tableKey? block = (some ∘ fun _ => key) block :=
      fun block member => eq_of_beq (List.mem_filter.mp member).2
    rw [List.filterMap_congr known, List.filterMap_eq_map, List.map_const']
  have distinctKeys : ((tableBlocksFor definitions key).filterMap tableKey?).Nodup :=
    distinct.sublist (List.filter_sublist.filterMap _)
  rw [keys] at distinctKeys
  exact List.nodup_replicate.mp distinctKeys

/-! ## Measures over a merge -/

/-- A table gets measures in front of its partition. Apart from them it has the
measures that were written with it. -/
structure TakesMeasures (added : List Block) (fresh merged : Block) : Prop where
  line : merged.docs = fresh.docs ∧ merged.line = fresh.line
  place : ∃ front changed partition back,
    fresh.children = front ++ partition :: back ∧
    merged.children = changed ++ added ++ partition :: back ∧
    changed.length = front.length ∧ partition.hasHeader "partition" = true
  measures : ∃ own, merged.childrenWith "measure" = own ++ added ∧
    own.map Block.line = (fresh.childrenWith "measure").map Block.line

end Prior

namespace Definition.TableOutline

open Prior (TakesMeasures measureNames ownMeasures)

variable (outline : TableOutline) (tag : Member -> Text)

/-- Columns are no measures. -/
theorem hasHeader_measure_map_block (states : Column -> ColumnState) :
    ∀ block ∈ outline.columns.map (fun column => column.block (states column)),
      block.hasHeader "measure" = false :=
  fun _ member => (begins_of_mem_columns member).hasHeader (by decide)

theorem length_headNodes (fresh other : Text) :
    (outline.headNodes fresh).length = (outline.headNodes other).length := by
  rw [headNodes, headNodes]
  split <;> rfl

theorem measureNames_freshState :
    measureNames (outline.block (outline.freshState tag)) = outline.countNames :=
  outline.filterMap_name?_measures (outline.hasHeader_measure_map_block _) rfl

/-- A merged state has the measures that are kept of the earlier table. -/
theorem takesMeasures_mergedState {block : Block} {earlier : Prior.Table}
    (parts : IsReadFrom block earlier) (writable : earlier.IsWritable) :
    TakesMeasures (ownMeasures block (measureNames (outline.block (outline.freshState tag))))
      (outline.block (outline.freshState tag)) (outline.block (outline.mergedState earlier tag)) := by
  rw [measureNames_freshState, ← Prior.map_block_userMeasures parts]
  have headers : ∀ block ∈ (outline.mergedState earlier tag).measures,
      block.hasHeader "measure" = true := by
    intro block member
    obtain ⟨measure, inside, rfl⟩ := List.mem_map.mp member
    exact (writable.measures measure (List.mem_of_mem_filter (List.mem_of_mem_filter inside))).2.2
  have fresh : (outline.block (outline.freshState tag)).childrenWith "measure" = _ :=
    childrenWith_measure_block (outline.hasHeader_measure_map_block _) (by simp [freshState])
  have merged : (outline.block (outline.mergedState earlier tag)).childrenWith "measure" = _ :=
    childrenWith_measure_block (outline.hasHeader_measure_map_block _) headers
  refine ⟨⟨rfl, rfl⟩, ⟨_, _, outline.partitionNode, outline.closingNodes, rfl, rfl, ?_,
    outline.hasHeader_partitionNode⟩, ⟨_, merged, ?_⟩⟩
  · have counts := congrArg List.length (outline.map_line_countNodes
      (outline.mergedState earlier tag).countTag (outline.freshState tag).countTag)
    rw [List.length_map, List.length_map] at counts
    simp only [List.length_append, outline.length_headNodes _ (outline.freshState tag).tag, counts]
    simp [freshState, mergedState]
  · rw [fresh, List.map_append, outline.map_line_countNodes _ (outline.freshState tag).countTag]
    simp [freshState]

/-- A table of which nothing is known has the measures that were written with it. -/
theorem takesMeasures_freshState :
    TakesMeasures [] (outline.block (outline.freshState tag))
      (outline.block (outline.freshState tag)) := by
  refine ⟨⟨rfl, rfl⟩, ⟨_, _, outline.partitionNode, outline.closingNodes, rfl, ?_, rfl,
    outline.hasHeader_partitionNode⟩, ⟨_, (List.append_nil _).symm, rfl⟩⟩
  rw [List.append_nil]
  rfl

/-- The merged table gets the measures that people have added to the earlier ones with
its key, of which there is at most one. -/
theorem takesMeasures_mergedBlock {definitions : DefinitionSet} {key : Text}
    (single : (tableBlocksFor definitions key).length ≤ 1) :
    TakesMeasures ((tableBlocksFor definitions key).flatMap fun table =>
        ownMeasures table (measureNames (outline.block (outline.freshState tag))))
      (outline.block (outline.freshState tag))
      (outline.mergedBlock tag ((Prior.Model.ofDefinitions definitions).tables.get? key)) := by
  match blocks : tableBlocksFor definitions key with
  | [] =>
      rw [Prior.get?_tables_eq_none blocks]
      exact outline.takesMeasures_freshState tag
  | [block] =>
      obtain ⟨earlier, found, read⟩ := Prior.exists_get?_tables blocks
      rw [found, List.flatMap_singleton]
      exact outline.takesMeasures_mergedState tag (Prior.isReadFrom_of_readTable? read)
        (Prior.isWritable_of_get?_tables found)
  | _ :: _ :: _ =>
      rw [blocks] at single
      simp at single

end Definition.TableOutline

/-! ## Generated sets -/

end TabularModel
