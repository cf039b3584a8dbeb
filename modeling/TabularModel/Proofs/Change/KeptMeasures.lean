import TabularModel.Proofs.Change.Relationships
import TabularModel.Proofs.Prior.UserBlocks

/-!
# Measures that are reported as kept

The comparison reports every measure that people have added to a table which is there again.
A merge puts these measures into the fresh table, but for those whose names are taken by
measures of the fresh table. So as long as a name is not taken, what is reported is what the
merged table holds.
-/

set_option autoImplicit false

namespace TabularModel

open Prior (HasDistinctTables IsReadFrom childrenWith_takeTag keptMeasures keyedTable?
  measureNames mergeColumn mergeMeasure mergeTable mergeTables name? ownMeasures readTable?
  tableBlocks tableBlocksFor tableKey? takeTag)

namespace Prior

/-! ## Tables with measures added to them -/

/-- The measures that people have added to the earlier tables with the key of a fresh one,
apart from those with the names of its measures. -/
def addedMeasures (earlier : DefinitionSet) (fresh : Block) : List Block :=
  (tableKey? fresh).toList.flatMap fun key =>
    (tableBlocksFor earlier key).flatMap fun table => ownMeasures table (measureNames fresh)

/-- A table is given further measures, as they are. The measures that were written with it
stay where they are. -/
structure Receives (added : List Block) (fresh merged : Block) : Prop where
  line : merged.docs = fresh.docs ∧ merged.line = fresh.line
  inserted : ∃ front back, merged.children = front ++ added ++ back ∧
    ((front ++ back).filter (Block.hasHeader "measure")).map Block.line =
      (fresh.childrenWith "measure").map Block.line

theorem Receives.refl (fresh : Block) : Receives [] fresh fresh :=
  ⟨⟨rfl, rfl⟩, fresh.children, [], by simp, by rw [List.append_nil]; rfl⟩

theorem own_takeTag (tag : Option Text) (block : Block) :
    (takeTag tag block).docs = block.docs ∧ (takeTag tag block).line = block.line := by
  cases tag <;> exact ⟨rfl, rfl⟩

theorem line_mergeColumn (earlier : Table) (block : Block) :
    (mergeColumn earlier block).line = block.line := by
  have annotated (annotations : List Annotation) (block : Block) :
      (annotations.foldl takeAnnotation block).line = block.line := by
    induction annotations generalizing block with
    | nil => rfl
    | cons annotation annotations ih =>
        rw [List.foldl_cons, ih, takeAnnotation]
        split <;> rfl
  have formatted (column : Column) (block : Block) :
      (takeFormatting column block).line = block.line := by
    rw [takeFormatting, annotated]
    cases column.summarizeBy <;> cases column.formatString <;>
      simp only [takeSummary, takeFormat] <;> first | rfl | (split <;> rfl)
  rw [mergeColumn]
  split
  · rfl
  · split
    · rw [formatted, (own_takeTag _ _).2]
    · exact (own_takeTag _ _).2

theorem line_mergeMeasure (earlier : Table) (block : Block) :
    (mergeMeasure earlier block).line = block.line := by
  rw [mergeMeasure]
  split
  · exact (own_takeTag _ _).2
  · rfl

/-- Whether a block has a keyword is seen from its line. -/
theorem map_line_filter_hasHeader (keyword : Text) (blocks : List Block) :
    (blocks.filter (Block.hasHeader keyword)).map Block.line =
      (blocks.map Block.line).filter fun line => Block.hasHeader keyword (.ofLine line) := by
  rw [List.filter_map]
  rfl

theorem map_line_changeWith {change : Block -> Block}
    (same : ∀ block, (change block).line = block.line) (block : Block) (keyword : Text) :
    (block.changeWith keyword change).children.map Block.line = block.children.map Block.line := by
  rw [Block.changeWith, List.map_map]
  refine List.map_congr_left fun child _ => ?_
  rw [Function.comp_apply]
  split
  · exact same child
  · rfl

theorem receives_mergeTable (earlier : Table) (fresh : Block) :
    Receives (keptMeasures earlier fresh) fresh (mergeTable earlier fresh) := by
  have lines : (((((takeTag earlier.tag fresh).changeWith "column" (mergeColumn earlier)).changeWith
      "measure" (mergeMeasure earlier)).children).filter (Block.hasHeader "measure")).map
        Block.line = (fresh.childrenWith "measure").map Block.line := by
    rw [map_line_filter_hasHeader, map_line_changeWith (line_mergeMeasure earlier),
      map_line_changeWith (line_mergeColumn earlier), ← map_line_filter_hasHeader,
      ← childrenWith_takeTag earlier.tag fresh (by decide)]
    rfl
  rw [mergeTable]
  cases keptMeasures earlier fresh with
  | nil =>
      refine ⟨own_takeTag _ _, _, [], by simp only [List.append_nil]; rfl, ?_⟩
      rw [List.append_nil]
      exact lines
  | cons first others =>
      refine ⟨own_takeTag _ _, _, _, rfl, ?_⟩
      rw [List.take_append_drop]
      exact lines

theorem lines_isInfix_of_mem {block : Block} {blocks : List Block} (member : block ∈ blocks) :
    block.lines <:+: Block.linesOfEach blocks := by
  obtain ⟨front, back, rfl⟩ := List.append_of_mem member
  rw [Block.linesOfEach_append, Block.linesOfEach, ← List.append_assoc]
  exact ⟨_, _, rfl⟩

/-- The added measures are found in the table with all their lines. -/
theorem Receives.lines_isInfix {added : List Block} {block merged measure : Block}
    (receives : Receives added block merged) (member : measure ∈ added) :
    measure.lines <:+: merged.lines := by
  obtain ⟨front, back, children, -⟩ := receives.inserted
  have inside : measure ∈ merged.children := by
    rw [children]
    exact List.mem_append_left _ (List.mem_append_right _ member)
  obtain ⟨docs, line, children⟩ := merged
  rw [Block.lines]
  exact (lines_isInfix_of_mem inside).trans ⟨docs ++ [line], [], by simp⟩

theorem exists_of_mem_addedMeasures {earlier : DefinitionSet} {block measure : Block}
    (member : measure ∈ addedMeasures earlier block) :
    ∃ old ∈ tableBlocks earlier, measure ∈ ownMeasures old (measureNames block) := by
  obtain ⟨key, -, inside⟩ := List.mem_flatMap.mp member
  obtain ⟨old, known, own⟩ := List.mem_flatMap.mp inside
  exact ⟨old, List.mem_of_mem_filter known, own⟩

/-- Under different keys a table gets the measures that people have added to the earlier
one with its key. -/
theorem receives_merged {earlier : DefinitionSet} (distinct : HasDistinctTables earlier)
    (fresh : Block) :
    Receives (addedMeasures earlier fresh) fresh
      (match (tableKey? fresh).bind (Model.ofDefinitions earlier).tables.get? with
        | some table => mergeTable table fresh
        | none => fresh) := by
  rw [addedMeasures]
  cases tableKey? fresh with
  | none => exact .refl fresh
  | some key =>
      rw [Option.bind_some, Option.toList_some, List.flatMap_singleton]
      have single := length_tableBlocksFor_le distinct key
      match blocks : tableBlocksFor earlier key with
      | [] =>
          rw [get?_tables_eq_none blocks]
          exact .refl fresh
      | [block] =>
          obtain ⟨table, found, read⟩ := exists_get?_tables blocks
          rw [found, List.flatMap_singleton,
            ← map_block_userMeasures (isReadFrom_of_readTable? read) (measureNames fresh)]
          exact receives_mergeTable table fresh
      | _ :: _ :: _ =>
          rw [blocks] at single
          simp at single

end Prior

namespace Change

open Prior (Receives addedMeasures exists_of_mem_addedMeasures lines_isInfix_of_mem
  receives_merged)

/-! ## What is reported -/

/-- A measure that is reported as kept, with its table. -/
def keptMeasure? : Change -> Option (Text × Text)
  | .measure table name .userKept => some (table, name)
  | _ => none

def reportedMeasures (changes : List Change) : List (Text × Text) :=
  changes.filterMap keptMeasure?

@[simp] theorem reportedMeasures_append (front back : List Change) :
    reportedMeasures (front ++ back) = reportedMeasures front ++ reportedMeasures back :=
  List.filterMap_append

theorem reportedMeasures_flatMap {α : Type} (items : List α) (changesOf : α -> List Change) :
    reportedMeasures (items.flatMap changesOf) =
      items.flatMap fun item => reportedMeasures (changesOf item) :=
  List.filterMap_flatMap

theorem reportedMeasures_eq_nil {changes : List Change}
    (others : ∀ change ∈ changes, change.subject ≠ .measure) : reportedMeasures changes = [] := by
  refine List.filterMap_eq_nil_iff.mpr fun change member => ?_
  cases change with
  | measure table name change => exact absurd rfl (others _ member)
  | _ => rfl

theorem reportedMeasures_map {α : Type} (items : List α) {changeOf : α -> Change}
    (silent : ∀ item, keptMeasure? (changeOf item) = none) :
    reportedMeasures (items.map changeOf) = [] := by
  rw [reportedMeasures, List.filterMap_map]
  exact List.filterMap_eq_nil_iff.mpr fun item _ => silent item

theorem reportedMeasures_tableChanges (settings : Settings) (earlier fresh : Prior.Table) :
    reportedMeasures (tableChanges settings earlier fresh) =
      earlier.userMeasures.map fun measure => (fresh.name, measure.name) := by
  have columns : reportedMeasures (columnChanges settings earlier fresh) = [] :=
    reportedMeasures_eq_nil fun change member => by
      rw [subject_of_mem_columnChanges member]
      exact Subject.noConfusion
  have queries : reportedMeasures (queryChanges earlier fresh) = [] :=
    reportedMeasures_eq_nil fun change member => by
      rw [subject_of_mem_queryChanges member]
      exact Subject.noConfusion
  rw [tableChanges, reportedMeasures_append, reportedMeasures_append, columns, queries,
    measureChanges]
  simp [reportedMeasures, keptMeasure?, Function.comp_def]

/-- What is reported of a fresh table: the measures of the earlier one with its key. -/
theorem reportedMeasures_freshTable (settings : Settings) (earlier : Prior.Model) (key : Text)
    (fresh : Prior.Table) :
    reportedMeasures (freshTable settings earlier key fresh) =
      (earlier.tables.get? key).toList.flatMap fun old =>
        old.userMeasures.map fun measure => (fresh.name, measure.name) := by
  have keys : reportedMeasures (keyChanges fresh) = [] := by
    rw [keyChanges]
    split <;> rfl
  rw [freshTable, reportedMeasures_append, keys, List.append_nil]
  cases earlier.tables.get? key with
  | none => exact reportedMeasures_map _ fun _ => rfl
  | some old => simp [reportedMeasures_tableChanges]

theorem reportedMeasures_removedTable (fresh : Prior.Model) (key : Text) (earlier : Prior.Table) :
    reportedMeasures (removedTable fresh key earlier) = [] := by
  rw [removedTable]
  split
  · rfl
  · exact reportedMeasures_map _ fun _ => rfl

theorem reportedMeasures_compare (settings : Settings) (earlier : Prior.Model)
    (definitions : DefinitionSet) :
    reportedMeasures (compare settings earlier definitions) =
      (Prior.Model.ofDefinitions definitions).tables.entries.flatMap fun entry =>
        (earlier.tables.get? entry.1).toList.flatMap fun old =>
          old.userMeasures.map fun measure => (entry.2.name, measure.name) := by
  have removed : reportedMeasures (earlier.tables.entries.flatMap fun entry =>
      removedTable (.ofDefinitions definitions) entry.1 entry.2) = [] := by
    simp [reportedMeasures_flatMap, reportedMeasures_removedTable]
  have modes : reportedMeasures (earlier.tables.values.flatMap (modeChanges settings)) = [] :=
    reportedMeasures_eq_nil fun change member => by
      obtain ⟨table, -, inside⟩ := List.mem_flatMap.mp member
      rw [subject_of_mem_modeChanges inside]
      exact Subject.noConfusion
  have relationships :
      reportedMeasures (relationshipChanges settings earlier (.ofDefinitions definitions)) = [] :=
    reportedMeasures_eq_nil fun change member => by
      rw [subject_of_mem_relationshipChanges member]
      exact Subject.noConfusion
  have paths :
      reportedMeasures (reachabilityChanges settings earlier (.ofDefinitions definitions)) = [] :=
    reportedMeasures_eq_nil fun change member => by
      rw [subject_of_mem_reachabilityChanges member]
      exact Subject.noConfusion
  rw [compare, reportedMeasures_append, reportedMeasures_append, reportedMeasures_append,
    reportedMeasures_append, removed, modes, relationships, paths]
  simp only [List.append_nil, reportedMeasures_flatMap, reportedMeasures_freshTable]

/-! ## Reports and blocks -/

/-- Whether a block has a keyword and a name. -/
def isNamed (keyword name : Text) (block : Block) : Bool :=
  name? keyword block == some name

theorem name?_of_readMeasure? {table : Text} {block : Block} {measure : Prior.Measure}
    (read : Prior.readMeasure? table block = some measure) :
    name? "measure" measure.block = some measure.name := by
  obtain ⟨found, header, rfl⟩ := Option.map_eq_some_iff.mp read
  rw [name?, header]
  rfl

/-- Measures under a name that is not taken, counted among what was read and in the blocks. -/
theorem countP_userMeasures {block : Block} {table : Prior.Table} (parts : IsReadFrom block table)
    {taken : List Text} {name : Text} (free : name ∉ taken) :
    table.userMeasures.countP (·.name == name) =
      (ownMeasures block taken).countP (isNamed "measure" name) := by
  rw [← Prior.map_block_userMeasures parts taken, List.countP_map, List.countP_filter]
  refine List.countP_congr fun measure member => ?_
  have inside := List.mem_of_mem_filter member
  rw [parts.measures] at inside
  obtain ⟨block, -, read⟩ := List.mem_filterMap.mp inside
  rw [Function.comp_apply, isNamed, name?_of_readMeasure? read]
  by_cases same : measure.name = name
  · simp [same, free]
  · simp [same]

theorem nodup_tableKeys_knownTables (definitions : DefinitionSet) :
    ((knownTables definitions).filterMap tableKey?).Nodup := by
  have same {key other : Text}
      (found : other ∈ (tableBlocksFor definitions key).getLast?.bind tableKey?) : key = other := by
    obtain ⟨table, last, known⟩ := Option.bind_eq_some_iff.mp found
    exact Option.some.inj
      (((getLast?_tableBlocksFor_iff key table).mp last).2.symm.trans known)
  rw [knownTables, List.filterMap_filterMap]
  exact (List.nodup_dedup _).filterMap fun key other found one two =>
    (same one).trans (same two).symm

/-- The tables that are read are the known ones. -/
theorem perm_entries (definitions : DefinitionSet) :
    (Prior.Model.ofDefinitions definitions).tables.entries.Perm
      ((knownTables definitions).filterMap keyedTable?) := by
  have distinct : ((knownTables definitions).filterMap keyedTable?).Nodup := by
    refine List.Nodup.of_map (·.1) ?_
    have keys (block : Block) : (keyedTable? block).map (·.1) = tableKey? block := by
      rw [keyedTable?, Option.map_map, ← Prior.map_key_readTable?]
      rfl
    rw [List.map_filterMap, List.filterMap_congr fun block _ => keys block]
    exact nodup_tableKeys_knownTables definitions
  refine (List.perm_ext_iff_of_nodup (.of_map _ (SortedMap.keys_nodup _)) distinct).mpr ?_
  rintro ⟨key, table⟩
  have found : (key, table) ∈ (Prior.Model.ofDefinitions definitions).tables.entries ↔
      (Prior.Model.ofDefinitions definitions).tables.get? key = some table :=
    ⟨SortedMap.get?_of_mem, SortedMap.mem_of_get?⟩
  rw [found, get?_tables_iff, List.mem_filterMap]
  refine exists_congr fun block => and_congr_right fun _ => ?_
  constructor
  · rintro ⟨known, read⟩
    have same := (Prior.isReadFrom_of_readTable? read).key.symm.trans known
    rw [keyedTable?, read, Option.map_some, Option.some.inj same]
  · intro entered
    obtain ⟨found, read, same⟩ := Option.map_eq_some_iff.mp entered
    cases same
    exact ⟨(Prior.isReadFrom_of_readTable? read).key, read⟩

section Counts

variable {earlier fresh : DefinitionSet} {table name : Text}

theorem count_reported_of_known (distinct : HasDistinctTables earlier) {block : Block}
    {known : Prior.Table} (read : readTable? block = some known)
    (free : name? "table" block = some table -> name ∉ measureNames block) :
    (((Prior.Model.ofDefinitions earlier).tables.get? known.key).toList.flatMap fun old =>
        old.userMeasures.map fun measure => (known.name, measure.name)).count (table, name) =
      if isNamed "table" table block then
        (addedMeasures earlier block).countP (isNamed "measure" name) else 0 := by
  have parts := Prior.isReadFrom_of_readTable? read
  rw [isNamed, parts.name, addedMeasures, parts.key, Option.toList_some, List.flatMap_singleton]
  by_cases same : known.name = table
  · have single := Prior.length_tableBlocksFor_le distinct known.key
    rw [if_pos (by rw [same, beq_self_eq_true])]
    match blocks : tableBlocksFor earlier known.key with
    | [] =>
        rw [Prior.get?_tables_eq_none blocks]
        rfl
    | [block] =>
        obtain ⟨old, found, oldRead⟩ := Prior.exists_get?_tables blocks
        rw [found, Option.toList_some, List.flatMap_singleton, List.flatMap_singleton,
          ← countP_userMeasures (Prior.isReadFrom_of_readTable? oldRead)
            (free (parts.name.trans (congrArg some same))), List.count, List.countP_map, same]
        refine List.countP_congr fun measure _ => ?_
        simp
    | _ :: _ :: _ =>
        rw [blocks] at single
        simp at single
  · rw [if_neg (by simpa using same), List.count_eq_zero, List.mem_flatMap]
    rintro ⟨old, -, inside⟩
    obtain ⟨measure, -, pair⟩ := List.mem_map.mp inside
    exact same (congrArg Prod.fst pair)

/-- As often as a measure is reported as kept, a merge puts one with its name into a known
table with the name. -/
theorem count_reportedMeasures (settings : Settings) (distinct : HasDistinctTables earlier)
    (free : ∀ block ∈ knownTables fresh, name? "table" block = some table ->
      name ∉ measureNames block) :
    (reportedMeasures (compare settings (.ofDefinitions earlier) fresh)).count (table, name) =
      (((knownTables fresh).filter (isNamed "table" table)).flatMap
        (addedMeasures earlier)).countP (isNamed "measure" name) := by
  have readable : ∀ block ∈ knownTables fresh, ∃ known, readTable? block = some known := by
    intro block member
    obtain ⟨key, known⟩ := exists_tableKey? (mem_tableBlocks_of_mem_knownTables member)
    exact (Prior.exists_readTable? known).imp fun _ => And.left
  rw [reportedMeasures_compare, ((perm_entries fresh).flatMap_right _).count_eq]
  revert free readable
  induction knownTables fresh with
  | nil => exact fun _ _ => rfl
  | cons block blocks ih =>
      intro free readable
      obtain ⟨known, read⟩ := readable block List.mem_cons_self
      have others := ih (fun other member => free other (List.mem_cons_of_mem _ member))
        fun other member => readable other (List.mem_cons_of_mem _ member)
      have entered : keyedTable? block = some (known.key, known) := by
        rw [keyedTable?, read, Option.map_some]
      rw [List.filterMap_cons_some entered, List.flatMap_cons, List.count_append, others,
        count_reported_of_known distinct read (free block List.mem_cons_self), List.filter_cons]
      split
      · rw [List.flatMap_cons, List.countP_append]
      · exact Nat.zero_add _

/-! ## Reports and merged files -/

theorem get?_merge_of_isInTablesFolder (earlier : Prior.Model) {path text : Text}
    (isTable : Path.isInTablesFolder path = true) (isFresh : fresh.get? path = some text) :
    (merge fresh earlier).get? path = some (mergeTables earlier (.ofText text)).render := by
  rw [get?_merge_of_ne _ _ (relationships_ne_of_isInTablesFolder isTable), isFresh,
    Option.map_some, Prior.mergeFile, if_pos isTable]

/-- A file is merged block by block. -/
theorem forall₂_mergeTables (distinct : HasDistinctTables earlier) (document : Document) :
    List.Forall₂ (fun block other => if block.hasHeader "table" then
        Receives (addedMeasures earlier block) block other else other = block)
      document.blocks (mergeTables (.ofDefinitions earlier) document).blocks := by
  refine List.forall₂_map_right_iff.mpr (List.forall₂_same.mpr fun block _ => ?_)
  split
  · exact receives_merged distinct block
  · rfl

theorem exists_receives_of_mem (distinct : HasDistinctTables earlier) {document : Document}
    {block : Block} (member : block ∈ document.blocksWith "table") :
    ∃ other ∈ (mergeTables (.ofDefinitions earlier) document).blocks,
      Receives (addedMeasures earlier block) block other := by
  obtain ⟨inside, header⟩ := List.mem_filter.mp member
  refine ⟨_, List.mem_map_of_mem inside, ?_⟩
  rw [if_pos header]
  exact receives_merged distinct block

/-- What stands behind the reports on kept measures, as long as the names of the measures are
not taken. A measure is reported as often as one with its name is put into a table with the
name, and stands in a merged file with all its lines. In the file of a table the added measures
stand between the fresh members; those with a taken name are not among them. Of tables with
one key, the last is meant. -/
structure KeepsReported (earlier fresh : DefinitionSet) (changes : List Change) : Prop where
  counted : ∀ table name,
    (∀ block ∈ knownTables fresh, name? "table" block = some table -> name ∉ measureNames block) ->
    (reportedMeasures changes).count (table, name) =
      (((knownTables fresh).filter (isNamed "table" table)).flatMap
        (addedMeasures earlier)).countP (isNamed "measure" name)
  written : ∀ table name,
    (∀ block ∈ knownTables fresh, name? "table" block = some table -> name ∉ measureNames block) ->
    (table, name) ∈ reportedMeasures changes ->
    ∃ old ∈ tableBlocks earlier, ∃ measure ∈ old.childrenWith "measure",
      name? "measure" measure = some name ∧
      ∃ path, ∃ merged : Document,
        (merge fresh (.ofDefinitions earlier)).get? path = some merged.render ∧
        measure.lines <:+: merged.lines
  received : ∀ path text, Path.isInTablesFolder path = true -> fresh.get? path = some text ->
    ∃ merged : Document,
      (merge fresh (.ofDefinitions earlier)).get? path = some merged.render ∧
      List.Forall₂ (fun block other => if block.hasHeader "table" then
          Receives (addedMeasures earlier block) block other else other = block)
        (Document.ofText text).blocks merged.blocks
  taken : ∀ block, ∀ name ∈ measureNames block, ∀ measure ∈ addedMeasures earlier block,
    name? "measure" measure ≠ some name
  known : HasDistinctTables fresh -> ∀ table, table ∈ knownTables fresh ↔ table ∈ tableBlocks fresh

/-- Measures that are reported as kept are kept. For any earlier set with different tables and
any fresh set, what a comparison reports and what a merge writes agree, wherever no measure of
the fresh table bears the name. -/
theorem keepsReported_compare (settings : Settings) (distinct : HasDistinctTables earlier)
    (fresh : DefinitionSet) :
    KeepsReported earlier fresh (compare settings (.ofDefinitions earlier) fresh) := by
  refine ⟨fun _ _ free => count_reportedMeasures settings distinct free, ?_, ?_, ?_,
    mem_knownTables_iff_of_distinct⟩
  · intro table name free reported
    have positive := List.count_pos_iff.mpr reported
    rw [count_reportedMeasures settings distinct free, List.countP_pos_iff] at positive
    obtain ⟨measure, member, named⟩ := positive
    obtain ⟨block, known, added⟩ := List.mem_flatMap.mp member
    obtain ⟨old, earlierTable, own⟩ := exists_of_mem_addedMeasures added
    obtain ⟨file, inFile, isBlock⟩ :=
      List.mem_flatMap.mp (mem_tableBlocks_of_mem_knownTables (List.mem_of_mem_filter known))
    obtain ⟨inEntries, isTable⟩ := List.mem_filter.mp inFile
    obtain ⟨other, isMerged, receives⟩ := exists_receives_of_mem distinct isBlock
    exact ⟨old, earlierTable, measure, List.mem_of_mem_filter own, beq_iff_eq.mp named, _, _,
      get?_merge_of_isInTablesFolder _ isTable (SortedMap.get?_of_mem inEntries),
      (receives.lines_isInfix added).trans (lines_isInfix_of_mem isMerged)⟩
  · exact fun path text isTable isFresh =>
      ⟨_, get?_merge_of_isInTablesFolder _ isTable isFresh, forall₂_mergeTables distinct _⟩
  · intro block name inside measure member named
    obtain ⟨old, -, own⟩ := exists_of_mem_addedMeasures member
    have free := (List.mem_filter.mp own).2
    rw [named] at free
    simp [inside] at free

end Counts

/-- Accounts under another name, as a fact table. -/
def customers : Catalog.Selection :=
  { modelName := "Sales"
    tables := [{ Catalog.Table.plain "account" "accountid" with
      displayName := some "Customer"
      role := .fact }]
    edges := []
    calendar := none }

/-- The earlier accounts with a measure that a person has added. -/
def accountsWith (measure : List Text) : DefinitionSet :=
  let front : List Text := ["table Account", "\tlineageTag: old", "",
    "\tmeasure 'Account Count' = COUNTROWS('Account')", ""]
  let back : List Text := ["\tannotation SemforgeLogicalName = account", ""]
  .ofList [("definition/tables/Account.tmdl", Block.textOfLines (front ++ measure ++ back))]

/-- A measure of a table that is shown under another name than before. -/
theorem keepsReported_compare_renamed :
    let supply : Generation.Supply := fun _ => "fresh"
    let earlier := accountsWith ["\tmeasure 'Open Amount' = SUM(Account[amount])", ""]
    ∃ output, Generation.generate .standard supply customers = .ok output ∧
      HasDistinctTables earlier ∧
      reportedMeasures (compare .standard (.ofDefinitions earlier) output.definitions) =
        [(("Customer" : Text), ("Open Amount" : Text))] ∧
      KeepsReported earlier output.definitions
        (compare .standard (.ofDefinitions earlier) output.definitions) := by
  intro supply earlier
  have distinct : HasDistinctTables earlier := by decide +kernel
  have written : (Generation.generate .standard supply customers).toOption.map (fun output =>
      reportedMeasures (compare .standard (.ofDefinitions earlier) output.definitions)) =
      some [(("Customer" : Text), ("Open Amount" : Text))] := by
    decide +kernel
  obtain ⟨output, found, reported⟩ := Option.map_eq_some_iff.mp written
  exact ⟨output, Generation.eq_ok_of_toOption found, distinct, reported,
    keepsReported_compare .standard distinct output.definitions⟩

/-- Under the new name of its table an added measure may bear the name of the row count. It is
reported as kept, but the merged table has the row count in its place. -/
theorem reports_lost_measure :
    let supply : Generation.Supply := fun _ => "fresh"
    let earlier := accountsWith ["\tmeasure 'Customer Count' = 42", ""]
    ∃ output, Generation.generate .standard supply customers = .ok output ∧
      HasDistinctTables earlier ∧
      reportedMeasures (compare .standard (.ofDefinitions earlier) output.definitions) =
        [(("Customer" : Text), ("Customer Count" : Text))] ∧
      (tableBlocks (merge output.definitions (.ofDefinitions earlier))).flatMap
          (fun table => (table.childrenWith "measure").map Block.line) =
        ["\tmeasure 'Customer Count' = COUNTROWS('Customer')"] := by
  intro supply earlier
  have written : (Generation.generate .standard supply customers).toOption.map (fun output =>
      (reportedMeasures (compare .standard (.ofDefinitions earlier) output.definitions),
        (tableBlocks (merge output.definitions (.ofDefinitions earlier))).flatMap
          (fun table => (table.childrenWith "measure").map Block.line))) =
      some ([(("Customer" : Text), ("Customer Count" : Text))],
        [("\tmeasure 'Customer Count' = COUNTROWS('Customer')" : Text)]) := by
    decide +kernel
  obtain ⟨output, found, parts⟩ := Option.map_eq_some_iff.mp written
  obtain ⟨reported, measures⟩ := Prod.mk.inj parts
  exact ⟨output, Generation.eq_ok_of_toOption found, by decide +kernel, reported, measures⟩

end Change

end TabularModel
