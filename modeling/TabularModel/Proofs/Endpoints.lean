import TabularModel.Proofs.Change.NothingLost
import TabularModel.Proofs.Definition.Growth
import TabularModel.Proofs.Regeneration

/-!
# The endpoints of relationships

A fresh relationship joins columns that are planned, and these are written. One that a
person has added is kept as it is, wherever it leads: its endpoints are there unless
they were columns of a generated table that has lost them.
-/

set_option autoImplicit false

namespace TabularModel

open Catalog (Selection)
open Generation (Options Supply WrittenTable)
open Prior (IsTag isAdded isMarked keptBlocks known? knownAmong knownOf logicalName? mergeFile
  mergeRelationship mergedBlocks name? relationshipBlocks relationshipKey? relationshipText?
  tableBlocks withoutDescriptions)

/-! ## Columns by their references -/

namespace Prior

/-- A reference can be read, and one of the tables has the column. -/
def NamesColumn (tables : List Block) (reference : Text) : Prop :=
  ∃ ends ∈ Name.splitColumnReference? reference, ∃ table ∈ tables,
    name? "table" table = some ends.1 ∧
      ∃ column ∈ table.childrenWith "column", name? "column" column = some ends.2

instance (tables : List Block) (reference : Text) : Decidable (NamesColumn tables reference) :=
  inferInstanceAs (Decidable (∃ ends ∈ Name.splitColumnReference? reference, _))

/-- A relationship has two endpoints, both of which are columns of the tables. -/
def HasEndsIn (tables : List Block) (relationship : Block) : Prop :=
  ∃ key ∈ relationshipKey? relationship, NamesColumn tables key.source ∧ NamesColumn tables key.target

instance (tables : List Block) (relationship : Block) : Decidable (HasEndsIn tables relationship) :=
  inferInstanceAs (Decidable (∃ key ∈ relationshipKey? relationship, _))

/-- A table that was generated bears its logical name. -/
def isAnnotated (table : Block) : Bool :=
  (logicalName? table).isSome

/-- The tables of a regenerated set, and those of the earlier one that people have
added. -/
def standingTables (earlier regenerated : DefinitionSet) : List Block :=
  tableBlocks regenerated ++ (tableBlocks earlier).filter fun table => !isAnnotated table

theorem NamesColumn.of_subset {tables more : List Block} {reference : Text}
    (named : NamesColumn tables reference) (subset : ∀ table ∈ tables, table ∈ more) :
    NamesColumn more reference := by
  obtain ⟨ends, read, table, member, rest⟩ := named
  exact ⟨ends, read, table, subset table member, rest⟩

/-- A column of some table is one of a table that passes a test, or of another one. -/
theorem NamesColumn.filter {tables : List Block} {reference : Text}
    (named : NamesColumn tables reference) (test : Block -> Bool) :
    NamesColumn (tables.filter test) reference ∨
      NamesColumn (tables.filter fun table => !test table) reference := by
  obtain ⟨ends, read, table, member, rest⟩ := named
  cases passed : test table with
  | true => exact Or.inl ⟨ends, read, table, List.mem_filter.mpr ⟨member, passed⟩, rest⟩
  | false =>
      exact Or.inr ⟨ends, read, table, List.mem_filter.mpr ⟨member, by rw [passed]; rfl⟩, rest⟩

/-! ## Relationships in the order of their file -/

theorem sublist_foldl_addKnown (more known : List Relationship) :
    (more.foldl addKnown known).Sublist (known ++ more) := by
  induction more generalizing known with
  | nil => rw [List.append_nil]; exact List.Sublist.refl known
  | cons first more ih =>
      refine (ih (addKnown known first)).trans ?_
      rw [addKnown, List.append_assoc]
      exact List.filter_sublist.append_right _

theorem map_block_filterMap_known?_sublist (blocks : List Block) :
    ((blocks.filterMap known?).map (·.block)).Sublist blocks := by
  induction blocks with
  | nil => exact List.Sublist.slnil
  | cons block blocks ih =>
      cases read : known? block with
      | none =>
          rw [List.filterMap_cons_none read]
          exact ih.cons block
      | some relationship =>
          rw [List.filterMap_cons_some read, List.map_cons, (block_of_known? read).1]
          exact ih.cons_cons block

variable (definitions : DefinitionSet)

/-- What is known comes from blocks in their order. -/
theorem map_block_knownOf_sublist :
    ((knownOf definitions).map (·.block)).Sublist (relationshipBlocks definitions) := by
  rw [knownOf_eq, knownAmong]
  exact ((sublist_foldl_addKnown _ []).map _).trans (map_block_filterMap_known?_sublist _)

/-- No relationship of a file stands deeper than one in front of it. -/
theorem descending_relationshipBlocks :
    (relationshipBlocks definitions).Pairwise fun first second => second.depth ≤ first.depth := by
  rw [relationshipBlocks]
  cases definitions.get? Path.relationships with
  | none => exact List.Pairwise.nil
  | some text =>
      obtain ⟨lines, read, single⟩ := Document.exists_lines_of_ofText text
      obtain ⟨blanks, valid, docs⟩ := Document.group_valid lines [] single (by simp)
      have noBlank : ((Document.group [] lines).blanks.map Block.ofLine).filter
          (Block.hasHeader "relationship") = [] := by
        refine List.filter_eq_nil_iff.mpr fun block member header => ?_
        obtain ⟨line, inside, rfl⟩ := List.mem_map.mp member
        have visible := Block.allBlank_of_hasHeader (by decide) header
        rw [Block.ofLine, (blanks line inside).blank] at visible
        cases visible
      have noDoc : ((Document.group [] lines).docs.map Block.ofLine).filter
          (Block.hasHeader "relationship") = [] := by
        refine List.filter_eq_nil_iff.mpr fun block member header => ?_
        obtain ⟨line, inside, rfl⟩ := List.mem_map.mp member
        have notDoc := Block.not_isDoc_of_hasHeader ⟨by decide, by decide⟩ header
        rw [Block.ofLine, (docs line inside).doc] at notDoc
        cases notDoc
      rw [Option.elim_some, Document.blocksWith, read, Document.blocksOfLines, List.filter_append,
        List.filter_append, noBlank, noDoc, List.nil_append, List.append_nil]
      exact (Document.nest_isNested _ valid).2.filter _

variable {definitions}

theorem exists_of_mem_keptBlocks {keys : List RelationshipKey} {block : Block}
    (member : block ∈ keptBlocks (knownOf definitions) keys) :
    ∃ prior ∈ relationshipBlocks definitions,
      block = withoutDescriptions prior ∧ isAdded keys prior = true := by
  obtain ⟨relationship, inside, rfl⟩ := List.mem_map.mp member
  obtain ⟨known, kept⟩ := List.mem_filter.mp inside
  obtain ⟨prior, priorMember, read⟩ := exists_block_of_mem_knownOf known
  exact ⟨prior, priorMember, by rw [(block_of_known? read).1], isKept_of_known? read keys ▸ kept⟩

theorem descending_keptBlocks (keys : List RelationshipKey) :
    (keptBlocks (knownOf definitions) keys).Pairwise fun first second =>
      second.depth ≤ first.depth := by
  have inOrder : (((knownOf definitions).filter (isKept keys)).map (·.block)).Sublist
      (relationshipBlocks definitions) :=
    (List.filter_sublist.map _).trans (map_block_knownOf_sublist definitions)
  have order := (descending_relationshipBlocks definitions).sublist inOrder
  rw [List.pairwise_map] at order
  rw [keptBlocks, List.pairwise_map]
  exact order

/-- A relationship among merged blocks is a fresh one or one that a person has added. -/
theorem exists_of_mem_mergedBlocks {relationships : List Definition.Relationship}
    (ends : ∀ relationship ∈ relationships, relationship.HasEnds) (tag : Nat -> Text) {block : Block}
    (member : block ∈ mergedBlocks (knownOf definitions) tag relationships) :
    (∃ relationship ∈ relationships, relationshipKey? block = some relationship.key) ∨
      ∃ prior ∈ relationshipBlocks definitions, relationshipKey? block = relationshipKey? prior ∧
        isAdded (relationships.map Definition.Relationship.key) prior = true := by
  rcases List.mem_append.mp member with named | kept
  · obtain ⟨position, inside, rfl⟩ := List.mem_mapIdx.mp named
    have relationshipMember := List.getElem_mem inside
    exact Or.inl ⟨_, relationshipMember,
      relationships[position].relationshipKey?_block (ends _ relationshipMember) _⟩
  · obtain ⟨prior, priorMember, rfl, added⟩ := exists_of_mem_keptBlocks kept
    exact Or.inr ⟨prior, priorMember, relationshipKey?_withoutDescriptions prior, added⟩

/-- Merged blocks are read as blocks that have grown from them, whatever the depth at
which the earlier relationships stood. -/
theorem exists_grows_of_mem_mergedBlocks {relationships : List Definition.Relationship}
    (ends : ∀ relationship ∈ relationships, relationship.HasEnds) {tag : Nat -> Text}
    (tags : ∀ position, IsTag (tag position)) {block : Block}
    (member : block ∈ (Document.ofText (Document.render
      ⟨mergedBlocks (knownOf definitions) tag relationships, true⟩)).blocks) :
    ∃ own ∈ mergedBlocks (knownOf definitions) tag relationships, own.Grows block := by
  have fresh : ∀ block ∈ namedBlocks (knownOf definitions) tag relationships,
      block.IsNested ∧ block.depth = 0 := by
    intro block inside
    obtain ⟨position, bound, rfl⟩ := List.mem_mapIdx.mp inside
    have hasEnds := ends _ (List.getElem_mem bound)
    have merged := mergeRelationship_block (.ofDefinitions definitions) hasEnds (tag position)
    rw [knownOf, ← merged]
    exact isNested_mergeRelationship (Definition.Relationship.isNested_block hasEnds
      (tags position).isSingleLine)
  refine Document.exists_grows_of_mem_ofText ?_ ?_ (descending_keptBlocks _) member
  · intro block inside
    rcases List.mem_append.mp inside with named | kept
    · exact (fresh block named).1
    · obtain ⟨prior, priorMember, rfl, -⟩ := exists_of_mem_keptBlocks kept
      exact isNested_withoutDescriptions (isNested_of_mem_relationshipBlocks priorMember).1
  · refine List.pairwise_of_forall_mem_list fun first firstMember second secondMember => ?_
    rw [(fresh first firstMember).2, (fresh second secondMember).2]

/-- A block that has grown has the endpoints that it had. -/
theorem relationshipKey?_of_grows {block grown : Block} (grows : block.Grows grown)
    {key : RelationshipKey} (known : relationshipKey? block = some key) :
    relationshipKey? grown = some key := by
  obtain ⟨source, isSource, rest⟩ := Option.bind_eq_some_iff.mp known
  obtain ⟨target, isTarget, same⟩ := Option.bind_eq_some_iff.mp rest
  rw [relationshipKey?, grows.property? isSource, grows.property? isTarget]
  exact same

end Prior

/-! ## Merged relationships -/

namespace Generation

open Definition (TableOutline)

variable {options : Options} {supply : Supply} {selection : Selection}
variable {relationships : List Definition.Relationship} {fresh : Output} {earlier : DefinitionSet}

/-- A relationship of a merged set is a fresh one or one that a person has added. -/
theorem IsGenerated.exists_of_mem_relationshipBlocks
    (generated : IsGenerated options supply selection relationships fresh)
    (names : ∀ plan ∈ plans options selection, plan.HasSingleLines)
    (tags : ∀ slot, IsTag (supply slot)) {block : Block}
    (member : block ∈ relationshipBlocks (merge fresh.definitions (.ofDefinitions earlier))) :
    ∃ key, relationshipKey? block = some key ∧
      ((∃ relationship ∈ relationships, relationship.key = key) ∨
        ∃ prior ∈ relationshipBlocks earlier, relationshipKey? prior = some key ∧
          isAdded (relationships.map Definition.Relationship.key) prior = true) := by
  have ends := generated.hasEnds names
  rw [relationshipBlocks, generated.get?_relationships_merge names tags, relationshipText?] at member
  split at member
  · cases member
  · obtain ⟨own, ownMember, grows⟩ := Prior.exists_grows_of_mem_mergedBlocks ends
      (fun position => tags (.relationship position)) (List.mem_of_mem_filter member)
    rcases Prior.exists_of_mem_mergedBlocks ends _ ownMember with
      ⟨relationship, inside, known⟩ | ⟨prior, inside, same, added⟩
    · exact ⟨_, Prior.relationshipKey?_of_grows grows known, Or.inl ⟨relationship, inside, rfl⟩⟩
    · cases known : relationshipKey? prior with
      | none =>
          rw [isAdded, known] at added
          cases added
      | some key =>
          exact ⟨key, Prior.relationshipKey?_of_grows grows (same.trans known),
            Or.inr ⟨prior, inside, known, added⟩⟩

/-- The columns of written tables are found under their references, whatever they are
merged with. -/
theorem IsGenerated.namesColumn
    (generated : IsGenerated options supply selection relationships fresh)
    (names : ∀ plan ∈ plans options selection, plan.HasSingleLines)
    (tags : ∀ slot, IsTag (supply slot)) {table : WrittenTable}
    (member : table ∈ writtenTables options selection) {column : Definition.Column}
    (inside : column ∈ table.outline.columns) :
    Prior.NamesColumn (tableBlocks (merge fresh.definitions (.ofDefinitions earlier)))
      (Name.columnReference table.outline.name column.name) := by
  have written := isTableText_file (isReadable_of_mem_writtenTables names member) tags
  have isTable := isInTablesFolder_of_mem_writtenTables member
  have writable : ∀ known, (Prior.Model.ofDefinitions earlier).tables.get?
      (Text.trim table.outline.logicalName) = some known -> known.IsWritable :=
    fun _ found => Prior.isWritable_of_get?_tables found
  obtain ⟨block, tableTag, states, read, reread⟩ :=
    TableOutline.exists_isReread_mergedBlock written.readable written.tags writable
  have isBlock : block ∈ (Document.ofText (mergeFile (.ofDefinitions earlier) table.path
      (table.file supply).2)).blocksWith "table" := by
    rw [TableOutline.mergeFile_eq written _ isTable, read]
    exact List.mem_filter.mpr ⟨List.mem_singleton_self block,
      Prior.hasHeader_of_tableKey? reread.tableKey?⟩
  obtain ⟨position, bound, rfl⟩ := List.mem_iff_getElem.mp inside
  have other := reread.columns.length_eq ▸ bound
  exact ⟨_, Name.splitColumnReference?_columnReference _ _, block,
    generated.mem_tableBlocks member isTable isBlock, table.outline.name?_table reread.line, _,
    List.getElem_mem other, (reread.columns.get bound other).name?⟩

/-- A reference to a column of a written table. -/
def IsWrittenEnd (options : Options) (selection : Selection) (reference : Text) : Prop :=
  ∃ table ∈ writtenTables options selection, ∃ column ∈ table.outline.columns,
    reference = Name.columnReference table.outline.name column.name

theorem isWrittenEnd_of_isEndIn {reference : Text}
    (isEnd : Plan.IsEndIn (plans options selection) reference) :
    IsWrittenEnd options selection reference := by
  obtain ⟨plan, member, column, inside, rfl⟩ := isEnd
  exact ⟨plannedTable options plan, List.mem_append_left _ (List.mem_map_of_mem member),
    column.written, List.mem_map_of_mem inside, rfl⟩

/-- Both ends of a fresh relationship are columns of written tables. -/
theorem IsGenerated.isWrittenEnd
    (generated : IsGenerated options supply selection relationships fresh)
    {relationship : Definition.Relationship} (member : relationship ∈ relationships) :
    IsWrittenEnd options selection relationship.source ∧
      IsWrittenEnd options selection relationship.target := by
  obtain ⟨toCalendar, found, rfl⟩ := generated.calendar
  rcases List.mem_append.mp member with edge | last
  · obtain ⟨source, target⟩ := isEndIn_of_mem_ofEdges edge
    exact ⟨isWrittenEnd_of_isEndIn source, isWrittenEnd_of_isEndIn target⟩
  · rcases cases_of_calendarRelationships found with rfl | ⟨configured, column, isEnd, rfl⟩
    · cases last
    · obtain ⟨calendar, isCalendar⟩ := Option.isSome_iff_exists.mp configured
      rw [List.mem_singleton.mp last]
      refine ⟨isWrittenEnd_of_isEndIn isEnd, calendarTable calendar, ?_, Definition.dayColumn,
        List.mem_cons_self, rfl⟩
      rw [writtenTables, isCalendar]
      exact List.mem_append_right _ (List.mem_singleton_self _)

/-- Both ends of a fresh relationship are found in the merged set. -/
theorem IsGenerated.namesColumn_of_mem
    (generated : IsGenerated options supply selection relationships fresh)
    (names : ∀ plan ∈ plans options selection, plan.HasSingleLines)
    (tags : ∀ slot, IsTag (supply slot)) {relationship : Definition.Relationship}
    (member : relationship ∈ relationships) :
    ∀ reference ∈ [relationship.source, relationship.target],
      Prior.NamesColumn (tableBlocks (merge fresh.definitions (.ofDefinitions earlier))) reference := by
  have found {reference : Text} (written : IsWrittenEnd options selection reference) :
      Prior.NamesColumn (tableBlocks (merge fresh.definitions (.ofDefinitions earlier))) reference := by
    obtain ⟨table, tableMember, column, inside, rfl⟩ := written
    exact generated.namesColumn names tags tableMember inside
  obtain ⟨source, target⟩ := generated.isWrittenEnd member
  intro reference isEnd
  rcases List.mem_pair.mp isEnd with rfl | rfl
  · exact found source
  · exact found target

end Generation

/-! ## Regeneration -/

namespace Prior

/-- An endpoint of a relationship that a person has added, in a generated table of the
earlier set. -/
def IsKeptEnd (definitions : DefinitionSet) (key : RelationshipKey) (reference : Text) : Prop :=
  NamesColumn ((tableBlocks definitions).filter isAnnotated) reference ∧
    ∃ prior ∈ relationshipBlocks definitions, relationshipKey? prior = some key ∧
      isMarked prior = false ∧ key.isCalendar = false

end Prior

/-- Of an earlier set all of whose relationships lead to columns, what is regenerated
leads to columns: of the regenerated tables, or of tables that people have added. Only
a relationship that a person has added may lead to a column of a generated table that
the earlier set had. -/
theorem regenerate_namesColumns {options : Options} {settings : Change.Settings} {supply : Supply}
    {selection : Selection} {earlier : DefinitionSet} {result : Regeneration}
    (regenerated : regenerate options settings supply selection (some earlier) = .ok result)
    (names : ∀ plan ∈ Generation.plans options selection, plan.HasSingleLines)
    (tags : ∀ slot, IsTag (supply slot))
    (resolved : ∀ relationship ∈ relationshipBlocks earlier,
      Prior.HasEndsIn (tableBlocks earlier) relationship) :
    ∀ relationship ∈ relationshipBlocks result.definitions,
      ∃ key, relationshipKey? relationship = some key ∧ ∀ reference ∈ [key.source, key.target],
        Prior.NamesColumn (Prior.standingTables earlier result.definitions) reference ∨
          Prior.IsKeptEnd earlier key reference := by
  obtain ⟨-, fresh, generated, definitions⟩ := Regeneration.exists_of_regenerate regenerated
  obtain ⟨relationships, isGenerated⟩ := Generation.exists_isGenerated generated
  rw [Regeneration.earlierModel_eq, Option.getD_some] at definitions
  rw [definitions]
  intro block member
  obtain ⟨key, known, origin⟩ := isGenerated.exists_of_mem_relationshipBlocks names tags member
  refine ⟨key, known, fun reference isEnd => ?_⟩
  rcases origin with ⟨relationship, inside, rfl⟩ | ⟨prior, inside, priorKey, added⟩
  · exact Or.inl ((isGenerated.namesColumn_of_mem names tags inside reference isEnd).of_subset
      fun _ => List.mem_append_left _)
  · obtain ⟨_, sameKey, source, target⟩ := resolved prior inside
    cases priorKey.symm.trans sameKey
    have named : Prior.NamesColumn (tableBlocks earlier) reference := by
      rcases List.mem_pair.mp isEnd with rfl | rfl
      · exact source
      · exact target
    rcases named.filter Prior.isAnnotated with annotated | user
    · rw [isAdded, priorKey] at added
      simp only [Option.any_some, Bool.and_eq_true, Bool.not_eq_true'] at added
      exact Or.inr ⟨annotated, prior, inside, priorKey, added.2, added.1.2⟩
    · exact Or.inl (user.of_subset fun _ => List.mem_append_right _)

/-- A fresh relationship, and one that a person has drawn to a table of their own. -/
theorem regenerate_namesColumns_drawn :
    let selection : Selection :=
      { modelName := "Sales"
        tables := [{ Catalog.Table.plain "order" "orderid" with
            attributes := [⟨"customerid", none, .lookup, ["account"], none⟩] },
          { Catalog.Table.plain "account" "accountid" with
            attributes := [⟨"manager", none, .string, [], none⟩] }]
        edges := [.plain "order" "customerid" "account"]
        calendar := none }
    let earlier : DefinitionSet := .ofList
      [ ("definition/tables/account.tmdl",
          "table account\n\tcolumn manager\n\tannotation SemforgeLogicalName = account\n"),
        ("definition/tables/Person.tmdl", "table Person\n\tcolumn Id\n"),
        (Path.relationships,
          "relationship mine\n\tfromColumn: account.manager\n\ttoColumn: Person.Id\n") ]
    ∃ result, regenerate { Options.standard with checksQueries := false } .standard
        (fun _ => "fresh") selection (some earlier) = .ok result ∧
      ∀ relationship ∈ relationshipBlocks result.definitions,
        ∃ key, relationshipKey? relationship = some key ∧ ∀ reference ∈ [key.source, key.target],
          Prior.NamesColumn (Prior.standingTables earlier result.definitions) reference ∨
            Prior.IsKeptEnd earlier key reference := by
  intro selection earlier
  have accepted : (regenerate { Options.standard with checksQueries := false } .standard
      (fun _ => "fresh") selection (some earlier)).toOption.isSome = true := by decide +kernel
  obtain ⟨result, found⟩ := Option.isSome_iff_exists.mp accepted
  have regenerated := Generation.eq_ok_of_toOption found
  exact ⟨result, regenerated, regenerate_namesColumns regenerated (by decide +kernel)
    (fun _ => by decide) (show ∀ relationship ∈ relationshipBlocks earlier,
      Prior.HasEndsIn (tableBlocks earlier) relationship by decide +kernel)⟩

/-- A relationship of a person outlives the column that it leads to, and one to a table
whose name has two lines loses an endpoint. -/
theorem regenerate_keepsLooseEnds :
    let account : Catalog.Table := Catalog.Table.plain "account" "accountid"
    let alone : Selection :=
      { modelName := "Sales", tables := [account], edges := [], calendar := none }
    let lined : Selection :=
      { modelName := "Sales"
        tables := [{ Catalog.Table.plain "order" "orderid" with
            displayName := some "Order\nLine"
            attributes := [⟨"customerid", none, .lookup, ["account"], none⟩] }, account]
        edges := [.plain "order" "customerid" "account"]
        calendar := none }
    let drawn : DefinitionSet := .ofList
      [ ("definition/tables/account.tmdl",
          "table account\n\tcolumn manager\n\tannotation SemforgeLogicalName = account\n"),
        ("definition/tables/Person.tmdl", "table Person\n\tcolumn Id\n"),
        (Path.relationships,
          "relationship mine\n\tfromColumn: account.manager\n\ttoColumn: Person.Id\n") ]
    let loosens (selection : Selection) (earlier : DefinitionSet) : Prop :=
      (∀ relationship ∈ relationshipBlocks earlier,
        Prior.HasEndsIn (tableBlocks earlier) relationship) ∧
        ∃ result, regenerate { Options.standard with checksQueries := false } .standard
            (fun _ => "fresh") selection (some earlier) = .ok result ∧
          ∃ relationship ∈ relationshipBlocks result.definitions,
            ¬ Prior.HasEndsIn (Prior.standingTables earlier result.definitions) relationship
    loosens alone drawn ∧ loosens lined .empty := by
  intro account alone lined drawn loosens
  have loosened (selection : Selection) (earlier : DefinitionSet)
      (resolved : ∀ relationship ∈ relationshipBlocks earlier,
        Prior.HasEndsIn (tableBlocks earlier) relationship)
      (found : (regenerate { Options.standard with checksQueries := false } .standard
        (fun _ => "fresh") selection (some earlier)).toOption.any (fun result =>
          (relationshipBlocks result.definitions).any fun relationship =>
            !decide (Prior.HasEndsIn (Prior.standingTables earlier result.definitions)
              relationship)) = true) : loosens selection earlier := by
    obtain ⟨result, accepted, some⟩ := Option.any_eq_true _ _ |>.mp found
    obtain ⟨relationship, member, loose⟩ := List.any_eq_true.mp some
    exact ⟨resolved, result, Generation.eq_ok_of_toOption accepted, relationship, member,
      by simpa using loose⟩
  exact ⟨loosened alone drawn (show ∀ relationship ∈ relationshipBlocks drawn,
      Prior.HasEndsIn (tableBlocks drawn) relationship by decide +kernel) (by decide +kernel),
    loosened lined .empty (by decide +kernel) (by decide +kernel)⟩

end TabularModel
