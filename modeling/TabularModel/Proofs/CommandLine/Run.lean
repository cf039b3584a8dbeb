import TabularModel.CommandLine.Run
import TabularModel.Proofs.CommandLine.Files
import TabularModel.Proofs.Definition.Path
import TabularModel.Proofs.Regeneration

/-!
# What a run leaves in its folder

A run that does not write leaves every file as it is. After a run that writes,
the definition files of the folder are those of the merged set, and the earlier
ones that are not this library's own. An earlier file that stands where a file
of the merged set goes is overwritten, whoever wrote it: whether a file is
foreign is asked before it is removed, but not before it is written.
-/

set_option autoImplicit false

namespace TabularModel

namespace CommandLine

open Workspace (below file? inside isDefinition isInner)
open TabularModel.Path (fileName slash_not_mem_fileName)

/-! ## Paths of written files -/

theorem isInner_table (name : Text) : isInner (Path.table name) = true := by
  have absent : '/' ∉ fileName name ++ (".tmdl" : Text) := by
    simp only [List.mem_append, not_or]
    exact ⟨slash_not_mem_fileName name, by decide⟩
  have fields : Text.fields '/' (Path.table name) =
      [("definition" : Text), ("tables" : Text), fileName name ++ (".tmdl" : Text)] := by
    have folders : Path.tablesFolder =
        ("definition" : Text) ++ '/' :: (("tables" : Text) ++ '/' :: []) := by decide
    have shape : Path.table name =
        ("definition" : Text) ++ '/' :: (("tables" : Text) ++ '/' ::
          (fileName name ++ (".tmdl" : Text))) := by
      rw [Path.table, folders]
      simp only [List.append_assoc, List.cons_append, List.nil_append]
    rw [shape, Text.fields_append_separator _ _ _ (by decide),
      Text.fields_append_separator _ _ _ (by decide), Text.fields_of_absent _ _ absent]
  have ending : (fileName name ++ (".tmdl" : Text)).getLast? = some 'l' := by
    have last : (".tmdl" : Text).getLast? = some 'l' := by decide
    rw [List.getLast?_append, last]
    rfl
  rw [isInner_iff, fields]
  intro field member
  simp only [List.mem_cons, List.not_mem_nil, or_false] at member
  rcases member with rfl | rfl | rfl
  · exact ⟨by decide, by decide, by decide⟩
  · exact ⟨by decide, by decide, by decide⟩
  · refine ⟨?_, ?_, ?_⟩
    all_goals
      intro same
      rw [same] at ending
      cases ending

theorem isDefinition_table (name : Text) : isDefinition (Path.table name) = true := by
  have dropped : Text.dropEnd? ".tmdl" (Path.table name) =
      some (Path.tablesFolder ++ fileName name) := by
    rw [Text.dropEnd?, Path.table, List.reverse_append, Text.dropStart?_append, Option.map_some,
      List.reverse_reverse]
  obtain ⟨last, found⟩ := Option.isSome_iff_exists.mp
    (List.getLast?_isSome.mpr (Path.fileName_ne_nil name))
  have ending : (Path.tablesFolder ++ fileName name).getLast? = some last := by
    rw [List.getLast?_append, found]
    rfl
  have different : last ≠ '/' := by
    rintro rfl
    exact slash_not_mem_fileName name (List.mem_of_getLast? found)
  rw [isDefinition, dropped]
  cases stem : Path.tablesFolder ++ fileName name with
  | nil =>
      rw [stem] at ending
      cases ending
  | cons c rest =>
      rw [stem] at ending
      simpa [ending] using different

theorem fits_of_fixed {path : Text}
    (fixed : path ∈ [Path.relationships, Path.expressions, Path.model, Path.database]) :
    isInner path = true ∧ isDefinition path = true := by
  have all : ∀ path ∈ [Path.relationships, Path.expressions, Path.model, Path.database],
      isInner path = true ∧ isDefinition path = true := by decide
  exact all path fixed

/-- The files of a merged set can be stored. -/
theorem fits_of_mem_merge {options : Generation.Options} {supply : Generation.Supply}
    {selection : Catalog.Selection} {relationships : List Definition.Relationship}
    {fresh : Generation.Output}
    (generated : Generation.IsGenerated options supply selection relationships fresh)
    {earlier : Prior.Model} {file : Text × Text}
    (member : file ∈ (merge fresh.definitions earlier).entries) :
    isInner file.1 = true ∧ isDefinition file.1 = true := by
  by_cases other : Path.relationships = file.1
  · exact fits_of_fixed (other ▸ List.mem_cons_self)
  · have found := SortedMap.get?_of_mem member
    rw [get?_merge_of_ne _ _ other, Option.map_eq_some_iff] at found
    obtain ⟨text, isFresh, _⟩ := found
    have inside := SortedMap.mem_of_get? isFresh
    rw [generated.definitions] at inside
    have written := SortedMap.mem_of_mem_ofList inside
    rw [Generation.files_eq] at written
    rcases List.mem_append.mp written with isTable | isOther
    · obtain ⟨table, tableMember, same⟩ := List.mem_map.mp isTable
      obtain ⟨name, path⟩ := Generation.exists_path_of_mem_writtenTables tableMember
      have samePath : table.path = file.1 := congrArg Prod.fst same
      rw [← samePath, path]
      exact ⟨isInner_table name, isDefinition_table name⟩
    · have fixed := Generation.path_of_mem_others isOther
      exact fits_of_fixed fixed

theorem merge_entries_ne_nil {options : Generation.Options} {supply : Generation.Supply}
    {selection : Catalog.Selection} {relationships : List Definition.Relationship}
    {fresh : Generation.Output}
    (generated : Generation.IsGenerated options supply selection relationships fresh)
    (earlier : Prior.Model) : (merge fresh.definitions earlier).entries ≠ [] := by
  have written : fresh.definitions.get? Path.database =
      some (Definition.databaseText selection.modelName) :=
    generated.get?_of_mem_others (List.mem_append_right _
      (List.mem_cons_of_mem _ (List.mem_cons_of_mem _ List.mem_cons_self)))
  have other : Path.relationships ≠ Path.database := by decide
  intro none
  have found := get?_merge_of_ne fresh.definitions earlier other
  rw [written, SortedMap.get?, none] at found
  cases found

/-! ## Runs -/

section

variable {surroundings : Surroundings} {workspace : Workspace} {arguments : GenerateArguments}
variable {result : Regeneration}

theorem exists_of_bind_eq_ok {ε α β : Type} {first : Except ε α} {next : α -> Except ε β}
    {value : β} (done : first.bind next = .ok value) :
    ∃ middle, first = .ok middle ∧ next middle = .ok value := by
  cases first with
  | error fault => cases done
  | ok middle => exact ⟨middle, rfl, done⟩

theorem eq_ok_of_mapError {ε δ α : Type} {result : Except ε α} {change : ε -> δ} {value : α}
    (done : result.mapError change = .ok value) : result = .ok value := by
  cases result with
  | error fault => cases done
  | ok known =>
      cases done
      rfl

theorem exists_of_regenerated
    (regenerated : regenerated surroundings workspace arguments = .ok result) :
    ∃ options settings selection, regenerate options settings surroundings.supply selection
      (earlierDefinitions workspace arguments.out) = .ok result := by
  obtain ⟨settings, _, regenerated⟩ := exists_of_bind_eq_ok regenerated
  obtain ⟨options, _, regenerated⟩ := exists_of_bind_eq_ok regenerated
  obtain ⟨selection, _, regenerated⟩ := exists_of_bind_eq_ok regenerated
  exact ⟨options, settings.comparison, withCalendar settings selection,
    eq_ok_of_mapError regenerated⟩

theorem earlierDefinitions_getD (workspace : Workspace) (folder : Text) :
    (earlierDefinitions workspace folder).getD .empty = workspace.definitions folder := by
  rw [earlierDefinitions]
  by_cases none : (workspace.definitions folder).isEmpty = true
  · rw [if_pos none]
    exact SortedMap.ext_entries (List.isEmpty_iff.mp none).symm
  · rw [if_neg none]
    rfl

/-- The folder of a command has a path. -/
theorem out_ne_nil {words : List Text}
    (generates : Command.ofArguments? words = some (.generate arguments)) : arguments.out ≠ [] := by
  cases words with
  | nil => cases generates
  | cons name words =>
      rw [Command.ofArguments?] at generates
      split at generates
      · obtain ⟨given, _, read⟩ := Option.bind_eq_some_iff.mp generates
        obtain ⟨_, _, read⟩ := Option.bind_eq_some_iff.mp read
        obtain ⟨input, _, read⟩ := Option.bind_eq_some_iff.mp read
        obtain ⟨out, known, read⟩ := Option.bind_eq_some_iff.mp read
        obtain ⟨config, _, read⟩ := Option.bind_eq_some_iff.mp read
        cases read
        obtain ⟨_, nonempty⟩ := Option.filter_eq_some_iff.mp known
        rintro rfl
        cases nonempty
      · split at generates
        · obtain ⟨given, _, read⟩ := Option.bind_eq_some_iff.mp generates
          rw [Command.filterOf?] at read
          split at read
          · obtain ⟨_, _, read⟩ := Option.bind_eq_some_iff.mp read
            obtain ⟨_, _, read⟩ := Option.bind_eq_some_iff.mp read
            cases read
          · cases read
        · cases generates

/-- A run writes what was regenerated unless it is a dry run or held back. -/
structure Writes (surroundings : Surroundings) (workspace : Workspace)
    (arguments : GenerateArguments) (result : Regeneration) : Prop where
  regenerated : regenerated surroundings workspace arguments = .ok result
  notDry : arguments.dryRun = false
  notHeldBack : isHeldBack arguments result = false

theorem workspace_runGenerate_of_not_writes
    (never : ∀ result, ¬ Writes surroundings workspace arguments result) :
    (runGenerate surroundings workspace arguments).workspace = workspace := by
  rw [runGenerate]
  cases found : regenerated surroundings workspace arguments with
  | error failure => rfl
  | ok result =>
      by_cases dry : arguments.dryRun = true
      · simp only [dry, if_true]
      · by_cases held : isHeldBack arguments result = true
        · simp only [dry, held]
          rfl
        · exact absurd ⟨found, by simpa using dry, by simpa using held⟩ (never result)

theorem workspace_runGenerate_of_writes (writes : Writes surroundings workspace arguments result)
    (done : (stored workspace arguments result).fault = none) :
    (runGenerate surroundings workspace arguments).workspace =
      (workspace.store arguments.out isOwnDefinition (workspace.definitions arguments.out)
        result.definitions).workspace := by
  have same : stored workspace arguments result = workspace.store arguments.out isOwnDefinition
      (workspace.definitions arguments.out) result.definitions := by
    rw [stored, earlierDefinitions_getD]
  rw [runGenerate, writes.regenerated]
  simp only [writes.notDry, writes.notHeldBack, Bool.false_eq_true, if_false]
  rw [← same]
  generalize stored workspace arguments result = attempt at done
  obtain ⟨changed, fault⟩ := attempt
  simp only at done
  subst done
  rfl

/-- What is regenerated can be stored in the folder of a command. -/
theorem Writes.fits (writes : Writes surroundings workspace arguments result) :
    result.definitions.entries ≠ [] ∧ ∀ file ∈ result.definitions.entries,
      isInner file.1 = true ∧ isDefinition file.1 = true := by
  obtain ⟨_, _, _, regenerated⟩ := exists_of_regenerated writes.regenerated
  obtain ⟨_, fresh, isFresh, definitions⟩ := Regeneration.exists_of_regenerate regenerated
  obtain ⟨_, generated⟩ := Generation.exists_isGenerated isFresh
  rw [definitions]
  exact ⟨merge_entries_ne_nil generated _, fun _ => fits_of_mem_merge generated⟩

end

/-- A run that does not write leaves all files as they are. A run that writes
leaves the merged set and the foreign definition files in its folder, as far as
no merged file takes their places, and all other files as they are. -/
theorem run_keeps_foreign {surroundings : Surroundings} {workspace : Workspace}
    {words : List Text} {arguments : GenerateArguments}
    (generates : Command.ofArguments? words = some (.generate arguments))
    (whole : workspace.IsWhole arguments.out) :
    let after := (run surroundings workspace words).workspace
    ((∀ result, ¬ Writes surroundings workspace arguments result) -> after = workspace) ∧
      ∀ result, Writes surroundings workspace arguments result ->
        (stored workspace arguments result).fault = none ->
        (∀ path, (after.definitions arguments.out).get? path =
          (result.definitions.get? path).or
            (((workspace.definitions arguments.out).get? path).filter fun text =>
              !isOwnDefinition path text)) ∧
        ∀ key, (∀ path, isInner path = true -> isDefinition path = true ->
            key ≠ below (Workspace.place arguments.out) ++ path) ->
          after.file? key = workspace.file? key := by
  intro after
  have given := out_ne_nil generates
  have ran : after = (runGenerate surroundings workspace arguments).workspace := by
    simp only [after, run, generates, Command.run]
  refine ⟨fun never => ?_, fun result writes done => ?_⟩
  · rw [ran, workspace_runGenerate_of_not_writes never]
  · obtain ⟨written, fits⟩ := writes.fits
    have stores : (workspace.store arguments.out isOwnDefinition
        (workspace.definitions arguments.out) result.definitions).fault = none := by
      rw [← earlierDefinitions_getD]
      exact done
    rw [ran, workspace_runGenerate_of_writes writes done]
    refine ⟨fun path => ?_, fun key other => ?_⟩
    · exact Workspace.get?_definitions_store given whole written fits stores path
    · exact Workspace.file?_store_of_not_definition given fits stores other

/-- A folder with notes of a user and a table that is not chosen any more. -/
theorem run_keeps_foreign_notes :
    let words : List Text := ["generate", "--input", "m.json", "--out", "out", "--force"]
    let arguments : GenerateArguments := ⟨"m.json", "out", none, false, true⟩
    let notes : Text := "table Notes\n\tlineageTag: mine\n"
    let workspace : Workspace := .ofList
      [ ("m.json", .file
          "\x7b\"model_name\":\"M\",\"tables\":[\x7b\"logical_name\":\"account\",\"primary_key\":\"id\"\x7d]\x7d"),
        ("out", .folder), ("out/definition", .folder), ("out/definition/tables", .folder),
        ("out/definition/tables/Contact.tmdl",
          .file "table Contact\n\tannotation SemforgeLogicalName = contact\n"),
        ("out/definition/tables/Notes.tmdl", .file notes) ]
    let surroundings : Surroundings := ⟨.empty, fun _ => "tag"⟩
    let after := (run surroundings workspace words).workspace
    Command.ofArguments? words = some (.generate arguments) ∧ workspace.IsWhole arguments.out ∧
      ∃ result, Writes surroundings workspace arguments result ∧
        (stored workspace arguments result).fault = none ∧
        (after.definitions "out").get? "definition/tables/Notes.tmdl" = some notes ∧
        (after.definitions "out").get? "definition/tables/Contact.tmdl" = none := by
  intro words arguments notes workspace surroundings after
  have generates : Command.ofArguments? words = some (.generate arguments) := by rfl
  have whole : workspace.IsWhole arguments.out := by decide +kernel
  have written : (regenerated surroundings workspace arguments).toOption.map (fun result =>
      ((stored workspace arguments result).fault,
        result.definitions.get? "definition/tables/Notes.tmdl",
        result.definitions.get? "definition/tables/Contact.tmdl")) =
      some (none, none, none) := by decide +kernel
  have earlier : (workspace.definitions "out").get? "definition/tables/Notes.tmdl" = some notes ∧
      isOwnDefinition "definition/tables/Notes.tmdl" notes = false ∧
      ((workspace.definitions "out").get? "definition/tables/Contact.tmdl").filter (fun text =>
        !isOwnDefinition "definition/tables/Contact.tmdl" text) = none := by decide +kernel
  obtain ⟨result, found, facts⟩ := Option.map_eq_some_iff.mp written
  obtain ⟨done, noNotes, noContact⟩ : (stored workspace arguments result).fault = none ∧
      result.definitions.get? "definition/tables/Notes.tmdl" = none ∧
      result.definitions.get? "definition/tables/Contact.tmdl" = none := by simpa using facts
  have writes : Writes surroundings workspace arguments result :=
    ⟨Generation.eq_ok_of_toOption found, rfl, Bool.and_false _⟩
  obtain ⟨files, _⟩ := (@run_keeps_foreign surroundings workspace words arguments generates
    whole).2 result writes done
  refine ⟨generates, whole, result, writes, done, ?_, ?_⟩
  · rw [files, noNotes, earlier.1, Option.filter_some, earlier.2.1]
    rfl
  · rw [files, noContact, earlier.2.2]
    rfl

/-- A table of a user, in the file of a table that is chosen by now, is lost. -/
theorem run_overwrites_foreign :
    let words : List Text := ["generate", "--input", "m.json", "--out", "out"]
    let mine : Text := "table Account\n\tlineageTag: mine\n\n\tcolumn Note\n\t\tdataType: string\n"
    let path : Text := "definition/tables/Account.tmdl"
    let workspace : Workspace := .ofList
      [ ("m.json", .file
          "\x7b\"model_name\":\"M\",\"tables\":[\x7b\"logical_name\":\"account\",\"display_name\":\"Account\",\"primary_key\":\"id\"\x7d]\x7d"),
        ("out", .folder), ("out/definition", .folder), ("out/definition/tables", .folder),
        ("out/definition/tables/Account.tmdl", .file mine) ]
    let outcome := run ⟨.empty, fun _ => "tag"⟩ workspace words
    workspace.IsWhole "out" ∧ (workspace.definitions "out").get? path = some mine ∧
      isOwnDefinition path mine = false ∧ outcome.exitCode = 0 ∧
      (outcome.workspace.definitions "out").get? path ≠ some mine := by
  decide +kernel

end CommandLine

end TabularModel
