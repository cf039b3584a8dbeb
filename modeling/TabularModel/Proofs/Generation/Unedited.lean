import TabularModel.Proofs.Prior.Unedited
import TabularModel.Proofs.Regeneration

/-!
# Sets that were only regenerated

A set that nobody has edited is merged with generated definitions into a set that
nobody has edited. All tables of the merged set are settled, and all relationships
that are known from it bear the mark of generated ones, so that a history of
regenerations never leaves such sets.
-/

set_option autoImplicit false

namespace TabularModel

open Catalog (Selection)
open Prior (AreKnown IsTag knownAmong knownOf mergedBlocks)

namespace Prior

/-- Nothing in a set was written by hand. -/
structure IsUnedited (definitions : DefinitionSet) : Prop where
  tables : ∀ key table, (Model.ofDefinitions definitions).tables.get? key = some table ->
    table.IsUnedited
  known : AreKnown (knownOf definitions)
  generated : ∀ relationship ∈ knownOf definitions, relationship.isGenerated = true

theorem isUnedited_empty : IsUnedited .empty := by
  refine ⟨?_, areKnown_nil, ?_⟩
  · intro _ _ found
    cases found
  · intro _ member
    cases member

/-- Where every relationship was generated, none is kept. -/
theorem keptBlocks_eq_nil {known : List Relationship}
    (generated : ∀ relationship ∈ known, relationship.isGenerated = true)
    (keys : List RelationshipKey) : keptBlocks known keys = [] := by
  unfold keptBlocks
  rw [List.map_eq_nil_iff, List.filter_eq_nil_iff]
  intro relationship member
  simp [isKept, generated relationship member]

end Prior

namespace Generation

variable {options : Options} {supply : Supply} {selection : Selection}
variable {relationships : List Definition.Relationship} {fresh : Output} {earlier : DefinitionSet}

/-- What an earlier set knows of a written table. -/
def WrittenTable.known (table : WrittenTable) (earlier : DefinitionSet) : Option Prior.Table :=
  (Prior.Model.ofDefinitions earlier).tables.get? (Text.trim table.outline.logicalName)

/-- The columns and the whole of a table beside an earlier set. -/
def WrittenTable.renewedColumn (table : WrittenTable) (supply : Supply) (earlier : DefinitionSet) :
    Definition.Column -> Definition.ColumnState :=
  Definition.TableOutline.renewedColumn (table.known earlier) fun member =>
    supply (table.slot member)

def WrittenTable.renewed (table : WrittenTable) (supply : Supply) (earlier : DefinitionSet) :
    Definition.TableState :=
  table.outline.renewedState (table.known earlier) fun member => supply (table.slot member)

/-- Every table is settled beside a set that nobody has edited. -/
theorem isSettledIn_renewed (names : ∀ plan ∈ plans options selection, plan.HasSingleLines)
    (tags : ∀ slot, IsTag (supply slot)) (unedited : Prior.IsUnedited earlier)
    {table : WrittenTable} (member : table ∈ writtenTables options selection) :
    IsSettledIn supply earlier table (table.renewedColumn supply earlier)
      (table.renewed supply earlier) := by
  have written := isTableText_file (isReadable_of_mem_writtenTables names member) tags
  refine ⟨Definition.TableOutline.isSettled_renewedState written.readable
    (isTrimmed_format_of_mem_writtenTables member) written.tags
    fun _ found => Prior.isWritable_of_get?_tables found, ?_⟩
  rw [Definition.TableOutline.mergeFile_eq written _ (isInTablesFolder_of_mem_writtenTables member),
    Definition.TableOutline.mergedBlock_of_isUnedited fun _ found => unedited.tables _ _ found]
  rfl

/-- The blocks of the tables are those of the written ones. -/
theorem IsGenerated.exists_renewed_of_mem_tableBlocks
    (generated : IsGenerated options supply selection relationships fresh)
    (names : ∀ plan ∈ plans options selection, plan.HasSingleLines)
    (tags : ∀ slot, IsTag (supply slot)) (unedited : Prior.IsUnedited earlier) {block : Block}
    (member : block ∈ Prior.tableBlocks (merge fresh.definitions (.ofDefinitions earlier))) :
    ∃ table ∈ writtenTables options selection,
      block = table.outline.block (table.renewed supply earlier) := by
  obtain ⟨table, tableMember, isBlock⟩ := generated.exists_of_mem_tableBlocks member
  obtain ⟨settled, merged⟩ := isSettledIn_renewed names tags unedited tableMember
  rw [merged, Definition.TableOutline.ofText_render_of_isSettled
    (isReadable_of_mem_writtenTables names tableMember) settled] at isBlock
  exact ⟨table, tableMember, List.mem_singleton.mp (List.mem_of_mem_filter isBlock)⟩

theorem IsGenerated.knownOf_merge_of_isUnedited
    (generated : IsGenerated options supply selection relationships fresh)
    (names : ∀ plan ∈ plans options selection, plan.HasSingleLines)
    (tags : ∀ slot, IsTag (supply slot)) (unedited : Prior.IsUnedited earlier) :
    knownOf (merge fresh.definitions (.ofDefinitions earlier)) =
      knownAmong (mergedBlocks (knownOf earlier)
        (fun position => supply (.relationship position)) relationships) :=
  Prior.knownOf_of_get? unedited.known (generated.hasEnds names) (fun _ => tags _)
    (generated.get?_relationships_merge names tags earlier)

/-- The blocks of relationships are the fresh ones under their earlier names. -/
theorem mergedBlocks_of_isUnedited (unedited : Prior.IsUnedited earlier) (tag : Nat -> Text)
    (relationships : List Definition.Relationship) :
    mergedBlocks (knownOf earlier) tag relationships =
      Prior.namedBlocks (knownOf earlier) tag relationships := by
  rw [mergedBlocks, Prior.keptBlocks_eq_nil unedited.generated, List.append_nil]

/-- A merge with a set that nobody has edited gives such a set. -/
theorem IsGenerated.isUnedited_merge
    (generated : IsGenerated options supply selection relationships fresh)
    (names : ∀ plan ∈ plans options selection, plan.HasSingleLines)
    (tags : ∀ slot, IsTag (supply slot)) (unedited : Prior.IsUnedited earlier) :
    Prior.IsUnedited (merge fresh.definitions (.ofDefinitions earlier)) := by
  refine ⟨?_, ?_, ?_⟩
  · intro key table found
    obtain ⟨block, member, read⟩ := Prior.exists_mem_of_get?_tables found
    obtain ⟨written, _, rfl⟩ := generated.exists_renewed_of_mem_tableBlocks names tags unedited
      (List.mem_of_mem_filter member)
    exact Definition.TableOutline.isUnedited_of_readTable? rfl (fun _ => rfl) rfl read
  · rw [generated.knownOf_merge_of_isUnedited names tags unedited]
    exact Prior.areKnown_knownAmong (Prior.isNested_of_mem_mergedBlocks unedited.known
      (generated.hasEnds names) fun _ => tags _)
  · intro relationship member
    rw [generated.knownOf_merge_of_isUnedited names tags unedited,
      mergedBlocks_of_isUnedited unedited] at member
    rcases Prior.mem_of_mem_foldl_addKnown member with none | read
    · cases none
    · obtain ⟨block, inside, known⟩ := List.mem_filterMap.mp read
      obtain ⟨position, bound, rfl⟩ := List.mem_mapIdx.mp inside
      rw [(Prior.block_of_known? known).2.2.2]
      exact Definition.Relationship.isSome_mark? _ _

end Generation

end TabularModel
