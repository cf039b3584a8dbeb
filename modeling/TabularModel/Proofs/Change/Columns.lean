import TabularModel.Proofs.Change.NothingLost

/-!
# Columns accounted for

A column whose source is in both versions of a table is compared with itself. Of the
columns whose source is in one version alone, as many as possible are paired by their
names. Each pair and each column that is left has one entry, and there are no others.
-/

set_option autoImplicit false

namespace TabularModel

namespace Change

open Prior (Model)

/-! ## Pairs -/

/-- Columns that are left in both versions have different names. -/
theorem apart_pairByName (earlier fresh : List Prior.Column) :
    ∀ old ∈ (pairByName earlier fresh).removed, ∀ new ∈ (pairByName earlier fresh).added,
      haveSameName old new = false := by
  induction earlier generalizing fresh with
  | nil =>
      intro old member
      cases member
  | cons first earlier ih =>
      rw [pairByName]
      cases found : fresh.find? (haveSameName first) with
      | some new => exact ih (fresh.eraseP (haveSameName first))
      | none =>
          intro old oldMember new newMember
          rcases List.mem_cons.mp oldMember with rfl | oldMember
          · have inside := (isPairing_pairByName earlier fresh).fresh.subset
              (List.mem_append_right _ newMember)
            simpa using List.find?_eq_none.mp found new inside
          · exact ih fresh old oldMember new newMember

/-! ## What becomes of columns -/

/-- The columns of two versions: those with a source in both, and of those with a source
in one version the pairs, the removed and the added ones. -/
structure ColumnFates where
  common : List (Prior.Column × Prior.Column)
  pairs : List (Prior.Column × Prior.Column)
  removed : List Prior.Column
  added : List Prior.Column

/-- Every column of both versions is accounted for once, and no more of them could be
paired by their names. -/
structure ColumnFates.Account (fates : ColumnFates) (earlier fresh : Prior.Table) : Prop where
  common : ∀ old new, (old, new) ∈ fates.common ↔
    ∃ source, earlier.columns.get? source = some old ∧ fresh.columns.get? source = some new
  commonOnce : (fates.common.map (·.2.source)).Nodup
  ofEarlier : ∀ old, old ∈ fates.pairs.map (·.1) ++ fates.removed ↔
    ∃ source, earlier.columns.get? source = some old ∧ fresh.columns.get? source = none
  earlierOnce : ((fates.pairs.map (·.1) ++ fates.removed).map (·.source)).Nodup
  ofFresh : ∀ new, new ∈ fates.pairs.map (·.2) ++ fates.added ↔
    ∃ source, fresh.columns.get? source = some new ∧ earlier.columns.get? source = none
  freshOnce : ((fates.pairs.map (·.2) ++ fates.added).map (·.source)).Nodup
  names : ∀ old new, (old, new) ∈ fates.pairs -> Text.sameIgnoringCase old.name new.name = true
  apart : ∀ old ∈ fates.removed, ∀ new ∈ fates.added,
    Text.sameIgnoringCase old.name new.name = false

/-- An entry of a comparison, with its kind and its impact. -/
abbrev Entry := Change × Weight

def entry (change : Change) : Entry := (change, change.weight)

/-- The entries for a column whose source is in both versions. -/
def commonColumnEntries (settings : Settings) (table : Text) (old new : Prior.Column) :
    List Entry :=
  if old.dataType ≠ new.dataType then
    [(.column table new.name (.typeChanged old.dataType new.dataType), .update, .moderate)]
  else if old.name ≠ new.name then
    [(.column table new.name (.renamed old.name), .preserve, .safe)]
  else if settings.includeUnchanged then
    [(.column table new.name .unchanged, .preserve, .safe)]
  else []

/-- The entries for the columns of a table. -/
def ColumnFates.entries (fates : ColumnFates) (settings : Settings) (table : Text) : List Entry :=
  fates.pairs.map (fun (old, new) =>
      (.column table new.name (.sourceChanged old.source new.source), .update, .moderate)) ++
    fates.common.flatMap (fun (old, new) => commonColumnEntries settings table old new) ++
    fates.added.map (fun new =>
      (.column table new.name (.added new.source), .new, .additive)) ++
    fates.removed.map fun old =>
      (.column table old.name (.removed old.source), .warning, .destructive)

/-- The columns of two versions under sources that both have. -/
def commonColumns (earlier fresh : Prior.Table) : List (Prior.Column × Prior.Column) :=
  fresh.columns.entries.filterMap fun found =>
    (earlier.columns.get? found.1).map fun old => (old, found.2)

/-- What the comparison makes of the columns of two versions. -/
def columnFates (earlier fresh : Prior.Table) : ColumnFates :=
  let pairing := pairByName (withoutPartner earlier fresh) (withoutPartner fresh earlier)
  ⟨commonColumns earlier fresh, pairing.pairs, pairing.removed, pairing.added⟩

section

variable {earlier fresh : Prior.Table}

theorem mem_commonColumns_iff {old new : Prior.Column} :
    (old, new) ∈ commonColumns earlier fresh ↔
      ∃ source, earlier.columns.get? source = some old ∧ fresh.columns.get? source = some new := by
  rw [commonColumns, List.mem_filterMap]
  constructor
  · rintro ⟨⟨source, column⟩, inside, found⟩
    obtain ⟨other, known, same⟩ := Option.map_eq_some_iff.mp found
    cases same
    exact ⟨source, known, SortedMap.get?_of_mem inside⟩
  · rintro ⟨source, known, isFresh⟩
    exact ⟨(source, new), SortedMap.mem_of_get? isFresh, congrArg (Option.map _) known⟩

/-- The fresh columns with a source in both versions are among the entries, in order. -/
theorem sublist_commonColumns (own : HasOwnSources fresh) :
    ((commonColumns earlier fresh).map (·.2.source)).Sublist fresh.columns.keys := by
  have sources : (commonColumns earlier fresh).map (·.2.source) =
      (fresh.columns.entries.filter fun entry =>
        (earlier.columns.get? entry.1).isSome).map (·.1) := by
    rw [commonColumns, List.map_filterMap, ← List.filterMap_eq_map, List.filterMap_filter]
    refine List.filterMap_congr fun found member => ?_
    cases earlier.columns.get? found.1 with
    | none => rfl
    | some old => exact congrArg some (own found member)
  rw [sources]
  exact List.filter_sublist.map _

theorem exists_source_iff (own : HasOwnSources earlier) {column : Prior.Column} :
    column ∈ withoutPartner earlier fresh ↔
      ∃ source, earlier.columns.get? source = some column ∧ fresh.columns.get? source = none := by
  rw [mem_withoutPartner_iff own]
  constructor
  · exact fun found => ⟨column.source, found⟩
  · rintro ⟨source, found, absent⟩
    rw [source_of_get? own found]
    exact ⟨found, absent⟩

/-- The comparison accounts for the columns of tables whose columns are entered under
their sources. -/
theorem account_columnFates (ownEarlier : HasOwnSources earlier) (ownFresh : HasOwnSources fresh) :
    (columnFates earlier fresh).Account earlier fresh := by
  have pairing := isPairing_pairByName (withoutPartner earlier fresh) (withoutPartner fresh earlier)
  refine ⟨fun _ _ => mem_commonColumns_iff, ?_, ?_, ?_, ?_, ?_, ?_, apart_pairByName _ _⟩
  · exact List.Nodup.sublist (sublist_commonColumns ownFresh) (SortedMap.keys_nodup _)
  · exact fun old => pairing.earlier.mem_iff.trans (exists_source_iff ownEarlier)
  · exact (pairing.earlier.map _).nodup_iff.mpr (nodup_withoutPartner ownEarlier)
  · exact fun new => pairing.fresh.mem_iff.trans (exists_source_iff ownFresh)
  · exact (pairing.fresh.map _).nodup_iff.mpr (nodup_withoutPartner ownFresh)
  · exact fun old new member => pairing.names (old, new) member

/-! ## Entries -/

theorem map_entry_commonColumn (settings : Settings) (table : Text) (old new : Prior.Column) :
    (commonColumn settings table old new).map entry =
      commonColumnEntries settings table old new := by
  rw [commonColumn, commonColumnEntries, ifListed]
  split
  · rfl
  · split
    · rfl
    · split <;> rfl

theorem map_entry_columnChanges (settings : Settings) :
    (columnChanges settings earlier fresh).map entry =
      (columnFates earlier fresh).entries settings fresh.name := by
  rw [columnChanges, ColumnFates.entries, List.map_append, List.map_append, List.map_append,
    List.map_map, List.map_map, List.map_map]
  refine congrArg₂ _ (congrArg₂ _ (congrArg₂ _ rfl ?_) rfl) rfl
  rw [columnFates, commonColumns, List.map_flatMap, List.filterMap_eq_flatMap_toList,
    List.flatMap_assoc]
  refine List.flatMap_congr fun found _ => ?_
  obtain ⟨source, new⟩ := found
  simp only
  cases earlier.columns.get? source with
  | none => rfl
  | some old => simpa using map_entry_commonColumn settings fresh.name old new

/-! ## Subjects -/

theorem subject_of_mem_columnChanges {settings : Settings} {change : Change}
    (member : change ∈ columnChanges settings earlier fresh) : change.subject = .column := by
  simp only [columnChanges, List.mem_append, List.mem_map, List.mem_flatMap] at member
  rcases member with ((⟨_, -, rfl⟩ | ⟨found, -, member⟩) | ⟨_, -, rfl⟩) | ⟨_, -, rfl⟩
  · rfl
  · split at member
    · rw [commonColumn, ifListed] at member
      grind [subject]
    · cases member
  · rfl
  · rfl

theorem subject_of_mem_measureChanges {change : Change}
    (member : change ∈ measureChanges earlier fresh) : change.subject = .measure := by
  simp only [measureChanges, List.mem_append, List.mem_map] at member
  rcases member with (⟨_, -, rfl⟩ | ⟨_, -, rfl⟩) | ⟨_, -, rfl⟩ <;> rfl

theorem subject_of_mem_queryChanges {change : Change}
    (member : change ∈ queryChanges earlier fresh) : change.subject = .query := by
  rw [queryChanges] at member
  grind [subject]

theorem filter_subject_of_forall {changes : List Change} {wanted : Subject}
    (all : ∀ change ∈ changes, change.subject = wanted) :
    changes.filter (·.subject == wanted) = changes :=
  List.filter_eq_self.mpr fun change member => beq_iff_eq.mpr (all change member)

theorem filter_subject_of_forall_ne {changes : List Change} {wanted : Subject}
    (others : ∀ change ∈ changes, change.subject ≠ wanted) :
    changes.filter (·.subject == wanted) = [] :=
  List.filter_eq_nil_iff.mpr fun change member same => others change member (beq_iff_eq.mp same)

/-- The entries on columns are the first ones of a table. -/
theorem filter_column_tableChanges (settings : Settings) :
    (tableChanges settings earlier fresh).filter (·.subject == .column) =
      columnChanges settings earlier fresh := by
  rw [tableChanges, List.filter_append, List.filter_append,
    filter_subject_of_forall fun _ => subject_of_mem_columnChanges,
    filter_subject_of_forall_ne, filter_subject_of_forall_ne, List.append_nil, List.append_nil]
  · exact fun _ member => by rw [subject_of_mem_queryChanges member]; exact Subject.noConfusion
  · exact fun _ member => by rw [subject_of_mem_measureChanges member]; exact Subject.noConfusion

end

/-- A table that is in both versions is compared where its fresh version stands. -/
theorem tableChanges_isInfix {settings : Settings} {earlier : Model} {definitions : DefinitionSet}
    {key : Text} {old new : Prior.Table} (found : earlier.tables.get? key = some old)
    (isFresh : (Model.ofDefinitions definitions).tables.get? key = some new) :
    tableChanges settings old new <:+: compare settings earlier definitions := by
  obtain ⟨before, after, split⟩ := List.append_of_mem (SortedMap.mem_of_get? isFresh)
  rw [compare, split, List.flatMap_append, List.flatMap_cons]
  simp only [freshTable, found, List.append_assoc]
  exact ⟨_, _, List.append_assoc _ _ _⟩

/-- The columns of a table that is in two versions are accounted for: what a comparison
says about them is one entry for each that changes or is in one version alone. -/
theorem tableChanges_accountsForColumns {earlier fresh : DefinitionSet} {key : Text}
    {old new : Prior.Table} (found : (Model.ofDefinitions earlier).tables.get? key = some old)
    (isFresh : (Model.ofDefinitions fresh).tables.get? key = some new) (settings : Settings) :
    ∃ fates : ColumnFates, fates.Account old new ∧
      ((tableChanges settings old new).filter (·.subject == .column)).map entry =
        fates.entries settings new.name ∧
      tableChanges settings old new <:+: compare settings (.ofDefinitions earlier) fresh := by
  have ownSources {definitions : DefinitionSet} {table : Prior.Table}
      (known : (Model.ofDefinitions definitions).tables.get? key = some table) :
      HasOwnSources table := by
    obtain ⟨block, -, read⟩ := Prior.exists_mem_of_get?_tables known
    exact hasOwnSources_of_isReadFrom (Prior.isReadFrom_of_readTable? read)
  refine ⟨columnFates old new, account_columnFates (ownSources found) (ownSources isFresh), ?_,
    tableChanges_isInfix found isFresh⟩
  rw [filter_column_tableChanges, map_entry_columnChanges]

/-- A column takes the name of one that goes, and of two whose names differ in letter case
the first takes the place of an earlier column. -/
theorem tableChanges_accountsForColumns_renamed :
    let column (name source : Text) : List Text :=
      ["\tcolumn " ++ name, "\t\tsourceColumn: " ++ source, ""]
    let table (columns : List Text) : DefinitionSet :=
      .ofList [("definition/tables/Deals.tmdl", Block.textOfLines (("table Deals" : Text) ::
        columns ++ [("\tannotation SemforgeLogicalName = deal" : Text), ("" : Text)]))]
    let earlier := table (column "Owner" "ownerid" ++ column "Payer" "payerid" ++
      column "Stage" "stage")
    let fresh := table (column "Payer" "ownerid" ++ column "STAGE" "Stage" ++
      column "stage" "step")
    let texts : List Text :=
      [ "[Update/Moderate] Column Deals.STAGE: source column changed from 'stage' to 'Stage'",
        "[Preserve/Safe] Column Deals.Payer: renamed from 'Owner'; identity kept",
        "[New/Additive] Column Deals.stage: column added (source 'step')",
        "[Warning/Destructive] Column Deals.Payer: column 'Payer' removed (source 'payerid')" ]
    ∃ old new, (Model.ofDefinitions earlier).tables.get? "deal" = some old ∧
      (Model.ofDefinitions fresh).tables.get? "deal" = some new ∧
      ∃ fates : ColumnFates, fates.Account old new ∧
        (fates.entries .standard new.name).map (·.1.render) = texts := by
  intro column table earlier fresh texts
  have written : (do
      let old <- (Model.ofDefinitions earlier).tables.get? "deal"
      let new <- (Model.ofDefinitions fresh).tables.get? "deal"
      return (((tableChanges .standard old new).filter (·.subject == .column)).map entry).map
        (·.1.render)) = some texts := by
    -- Spelled out, the texts need not be decoded when the runs are evaluated.
    simp only [earlier, fresh, table, column, texts]
    repeat rw [String.toList_ofList]
    decide +kernel
  obtain ⟨old, found, written⟩ := Option.bind_eq_some_iff.mp written
  obtain ⟨new, isFresh, written⟩ := Option.bind_eq_some_iff.mp written
  obtain ⟨fates, account, entries, -⟩ := tableChanges_accountsForColumns found isFresh .standard
  rw [entries] at written
  exact ⟨old, new, found, isFresh, fates, account, Option.some.inj written⟩

end Change

end TabularModel
