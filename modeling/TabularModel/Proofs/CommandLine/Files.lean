import TabularModel.Proofs.CommandLine.Places
import TabularModel.Proofs.Definition.Lines
import TabularModel.Proofs.SortedMap

/-!
# What changes do to files

Every change of a workspace keeps the folders that are there. Making folders
leaves the files as they are, and writing or removing a file changes that file
alone. So after a definition set is stored in a folder, the definition files of
the folder are those of the set, and of the earlier ones those that stay.
-/

set_option autoImplicit false

namespace TabularModel

namespace CommandLine

def Entry.text? : Entry -> Option Text
  | .folder => none
  | .file text => some text

namespace Workspace

variable {workspace : Workspace}

/-- The text of the file at the path of a place. -/
def file? (workspace : Workspace) (key : Text) : Option Text :=
  (workspace.get? key).bind Entry.text?

/-! ## Folders stay -/

def KeepsFolders (before after : Workspace) : Prop :=
  ∀ place, before.entry? place = some .folder -> after.entry? place = some .folder

theorem KeepsFolders.refl (workspace : Workspace) : KeepsFolders workspace workspace :=
  fun _ folder => folder

theorem KeepsFolders.trans {first second third : Workspace} (one : KeepsFolders first second)
    (two : KeepsFolders second third) : KeepsFolders first third :=
  fun place folder => two place (one place folder)

theorem keepsFolders_of_get? {before after : Workspace}
    (each : ∀ key, before.get? key = some .folder -> after.get? key = some .folder) :
    KeepsFolders before after := by
  intro place folder
  unfold entry? at folder ⊢
  split
  · rfl
  · next within =>
      rw [if_neg within] at folder
      exact each _ folder

/-- A path that could be followed can still be followed. -/
theorem KeepsFolders.follow {before after : Workspace} (keeps : KeepsFolders before after)
    {place found : Place} {names : List Text} (followed : before.follow place names = .ok found) :
    after.follow place names = .ok found := by
  induction names generalizing place with
  | nil => exact followed
  | cons name names ih =>
      have folder := keeps place (entry?_of_follow followed)
      rw [Workspace.follow, entry?_of_follow followed] at followed
      rw [Workspace.follow, folder]
      simp only at followed ⊢
      split at followed
      · cases followed
      · next short =>
          rw [if_neg short]
          exact ih followed

theorem KeepsFolders.locate {before after : Workspace} (keeps : KeepsFolders before after)
    {path : Text} {found : Place} (located : before.locate path = .ok found) :
    after.locate path = .ok found := by
  unfold Workspace.locate at located ⊢
  split at located
  · cases located
  · next short =>
      rw [if_neg short]
      exact keeps.follow located

/-! ## Single changes -/

/-- A change that succeeds changes what is at the place of its path. -/
theorem changeAt_of_done {path : Text} {change : Place -> Option Entry -> Except FileFault Workspace}
    (done : (workspace.changeAt path change).fault = none) :
    workspace.locate path = .ok (Workspace.place path) ∧
      change (Workspace.place path) (workspace.entry? (Workspace.place path)) =
        .ok (workspace.changeAt path change).workspace := by
  unfold changeAt at done ⊢
  cases located : workspace.locate path with
  | error fault =>
      rw [located] at done
      cases done
  | ok place =>
      obtain rfl := eq_of_locate located
      rw [located] at done
      simp only at done
      refine ⟨rfl, ?_⟩
      cases changed : change (Workspace.place path) (workspace.entry? (Workspace.place path)) with
      | error fault =>
          rw [changed] at done
          cases done
      | ok after => simp only [changed, Attempt.done]

theorem get?_eq_of_ne_folder {place : Place} {entry : Option Entry}
    (found : workspace.entry? place = entry) (other : entry ≠ some .folder) :
    workspace.get? place.path = entry := by
  unfold entry? at found
  split at found
  · exact absurd found.symm other
  · exact found

theorem removeFile_of_done {path : Text} (done : (workspace.removeFile path).fault = none) :
    KeepsFolders workspace (workspace.removeFile path).workspace ∧
      ∀ key, (workspace.removeFile path).workspace.file? key =
        if (Workspace.place path).path = key then none else workspace.file? key := by
  obtain ⟨_, changed⟩ := changeAt_of_done done
  split at changed
  · cases changed
  · cases changed
  · next text found =>
      have known := get?_eq_of_ne_folder found (by simp)
      have after := Except.ok.inj changed
      unfold removeFile
      rw [← after]
      refine ⟨keepsFolders_of_get? fun key folder => ?_, fun key => ?_⟩
      · rw [SortedMap.get?_erase, if_neg, folder]
        rintro rfl
        rw [known] at folder
        cases folder
      · rw [file?, SortedMap.get?_erase]
        by_cases same : (Workspace.place path).path = key
        · rw [if_pos same, if_pos same]
          rfl
        · rw [if_neg same, if_neg same]
          rfl

theorem writeFile_of_done {path text : Text} (done : (workspace.writeFile path text).fault = none) :
    workspace.locate path = .ok (Workspace.place path) ∧
      KeepsFolders workspace (workspace.writeFile path text).workspace ∧
      ∀ key, (workspace.writeFile path text).workspace.file? key =
        if (Workspace.place path).path = key then some text else workspace.file? key := by
  obtain ⟨located, changed⟩ := changeAt_of_done done
  refine ⟨located, ?_⟩
  split at changed
  · cases changed
  · next noFolder =>
      have known := get?_eq_of_ne_folder rfl noFolder
      have after := Except.ok.inj changed
      unfold writeFile
      rw [← after]
      refine ⟨keepsFolders_of_get? fun key folder => ?_, fun key => ?_⟩
      · rw [SortedMap.get?_insert, if_neg, folder]
        rintro rfl
        exact noFolder (known.symm.trans folder)
      · rw [file?, SortedMap.get?_insert]
        by_cases same : (Workspace.place path).path = key
        · rw [if_pos same, if_pos same]
          rfl
        · rw [if_neg same, if_neg same]
          rfl

/-! ## Making folders -/

/-- A change that adds folders at most. -/
structure AddsFolders (before after : Workspace) : Prop where
  folders : KeepsFolders before after
  files : ∀ key, after.file? key = before.file? key

theorem AddsFolders.refl (workspace : Workspace) : AddsFolders workspace workspace :=
  ⟨.refl workspace, fun _ => rfl⟩

theorem AddsFolders.trans {first second third : Workspace} (one : AddsFolders first second)
    (two : AddsFolders second third) : AddsFolders first third :=
  ⟨one.folders.trans two.folders, fun key => (two.files key).trans (one.files key)⟩

theorem addsFolders_insert {key : Text} (absent : workspace.get? key = none) :
    AddsFolders workspace (workspace.insert key .folder) := by
  refine ⟨keepsFolders_of_get? fun other folder => ?_, fun other => ?_⟩
  · rw [SortedMap.get?_insert]
    split
    · rfl
    · exact folder
  · rw [file?, file?, SortedMap.get?_insert]
    by_cases same : key = other
    · rw [if_pos same, ← same, absent]
      rfl
    · rw [if_neg same]

theorem addsFolders_makeFolder (workspace : Workspace) (path : Text) :
    AddsFolders workspace (workspace.makeFolder path).workspace := by
  unfold makeFolder changeAt
  split
  · exact .refl workspace
  · next place _ =>
      cases present : workspace.entry? place with
      | some entry => exact .refl workspace
      | none => exact addsFolders_insert (get?_eq_of_ne_folder present (by simp))

theorem addsFolders_ensureFolder (workspace : Workspace) (path : Text) :
    AddsFolders workspace (workspace.ensureFolder path).workspace := by
  unfold ensureFolder
  simp only
  split
  · exact .refl workspace
  · exact addsFolders_makeFolder workspace path

theorem addsFolders_makeFolders (absolute : Bool) (names : List Text) (workspace : Workspace) :
    AddsFolders workspace (makeFolders absolute names workspace).workspace := by
  induction names generalizing workspace with
  | nil => exact .refl workspace
  | cons name outer ih =>
      unfold makeFolders
      simp only
      split
      · unfold Attempt.andThen
        split
        · exact (ih workspace).trans (addsFolders_ensureFolder _ _)
        · exact ih workspace
      · exact addsFolders_ensureFolder workspace _

/-! ## Several changes -/

theorem andThen_of_done {attempt : Attempt} {next : Workspace -> Attempt}
    (done : (attempt.andThen next).fault = none) :
    attempt.fault = none ∧ attempt.andThen next = next attempt.workspace := by
  unfold Attempt.andThen at done ⊢
  cases fault : attempt.fault with
  | none => exact ⟨rfl, rfl⟩
  | some fault =>
      rw [fault] at done
      exact absurd done (by simp [fault])

/-- A file is written behind the folders that are made for it. -/
theorem put_of_done {path text : Text} (done : (workspace.put path text).fault = none) :
    (∃ before, KeepsFolders before (workspace.put path text).workspace ∧
        before.locate path = .ok (Workspace.place path)) ∧
      KeepsFolders workspace (workspace.put path text).workspace ∧
      ∀ key, (workspace.put path text).workspace.file? key =
        if (Workspace.place path).path = key then some text else workspace.file? key := by
  obtain ⟨_, whole⟩ := andThen_of_done done
  have added := addsFolders_makeFolders (isAbsolute path)
    ((names path).filter (· != ['.'])).reverse.tail workspace
  unfold put at done ⊢
  rw [whole] at done ⊢
  obtain ⟨located, folders, files⟩ := writeFile_of_done done
  refine ⟨⟨_, folders, located⟩, added.folders.trans folders, fun key => ?_⟩
  rw [files, added.files]

/-- Files that are removed one after the other are gone, and all others stay. -/
theorem removeFiles_of_done {folder : Text} (given : folder ≠ []) {paths : List Text}
    (inner : ∀ path ∈ paths, isInner path = true)
    (done : (Attempt.each (fun known path => known.removeFile (inside folder path)) paths
      workspace).fault = none) :
    ∀ key, (Attempt.each (fun known path => known.removeFile (inside folder path)) paths
        workspace).workspace.file? key =
      if key ∈ paths.map (below (Workspace.place folder) ++ ·) then none
      else workspace.file? key := by
  intro key
  induction paths generalizing workspace with
  | nil => rfl
  | cons path paths ih =>
      rw [Attempt.each] at done ⊢
      obtain ⟨first, whole⟩ := andThen_of_done done
      rw [whole] at done ⊢
      obtain ⟨_, removed⟩ := removeFile_of_done first
      rw [ih (fun other member => inner other (List.mem_cons_of_mem _ member)) done, removed,
        path_place_inside given (inner path List.mem_cons_self), List.map_cons]
      by_cases later : key ∈ paths.map (below (Workspace.place folder) ++ ·)
      · rw [if_pos later, if_pos (List.mem_cons_of_mem _ later)]
      · rw [if_neg later]
        by_cases now : below (Workspace.place folder) ++ path = key
        · rw [if_pos now, if_pos (by simp [now])]
        · rw [if_neg now, if_neg (by simp [later, Ne.symm now])]

/-- Of files that are written one after the other the last one counts, and all
others stay. -/
theorem putFiles_of_done {folder : Text} (given : folder ≠ []) {files : List (Text × Text)}
    (inner : ∀ file ∈ files, isInner file.1 = true)
    (done : (Attempt.each (fun known (file : Text × Text) => known.put (inside folder file.1) file.2)
      files workspace).fault = none) :
    KeepsFolders workspace (Attempt.each
        (fun known (file : Text × Text) => known.put (inside folder file.1) file.2)
        files workspace).workspace ∧
      ∀ key, (Attempt.each
          (fun known (file : Text × Text) => known.put (inside folder file.1) file.2)
          files workspace).workspace.file? key =
        ((files.reverse.find? (below (Workspace.place folder) ++ ·.1 == key)).map (·.2)).or
          (workspace.file? key) := by
  induction files generalizing workspace with
  | nil => exact ⟨.refl workspace, fun key => rfl⟩
  | cons file files ih =>
      rw [Attempt.each] at done ⊢
      obtain ⟨first, whole⟩ := andThen_of_done done
      rw [whole] at done ⊢
      obtain ⟨_, folders, written⟩ := put_of_done first
      obtain ⟨laterFolders, later⟩ :=
        ih (fun other member => inner other (List.mem_cons_of_mem _ member)) done
      refine ⟨folders.trans laterFolders, fun key => ?_⟩
      rw [later, written, path_place_inside given (inner file List.mem_cons_self),
        List.reverse_cons, List.find?_append]
      cases files.reverse.find? (below (Workspace.place folder) ++ ·.1 == key) with
      | some found => rfl
      | none =>
          by_cases now : below (Workspace.place folder) ++ file.1 = key
          · simp [now]
          · simp [now]

/-- Where a file was written the folder is there. -/
theorem hasFolder_of_putFiles {folder : Text} (given : folder ≠ []) {files : List (Text × Text)}
    (some : files ≠ []) (inner : ∀ file ∈ files, isInner file.1 = true)
    (done : (Attempt.each (fun known (file : Text × Text) => known.put (inside folder file.1) file.2)
      files workspace).fault = none) :
    (Attempt.each (fun known (file : Text × Text) => known.put (inside folder file.1) file.2)
      files workspace).workspace.hasFolder folder = true := by
  obtain ⟨file, files, rfl⟩ := List.exists_cons_of_ne_nil some
  rw [Attempt.each] at done ⊢
  obtain ⟨first, whole⟩ := andThen_of_done done
  rw [whole] at done ⊢
  obtain ⟨⟨before, folders, located⟩, _, _⟩ := put_of_done first
  obtain ⟨found, isFolder⟩ := locate_folder given (inner file List.mem_cons_self) located
  have keeps := folders.trans
    (putFiles_of_done given (fun other member => inner other (List.mem_cons_of_mem _ member)) done).1
  rw [hasFolder, find, keeps.locate found]
  simp only [keeps _ isFolder]

/-! ## Definition files of a folder -/

/-- What is below a folder is found through it: below a folder that cannot be
reached there is nothing. -/
def IsWhole (workspace : Workspace) (folder : Text) : Prop :=
  workspace.hasFolder folder = false ->
    ∀ entry ∈ workspace.entries, Text.dropStart? (below (Workspace.place folder)) entry.1 = none

instance (workspace : Workspace) (folder : Text) : Decidable (workspace.IsWhole folder) :=
  inferInstanceAs (Decidable (_ -> _))

theorem locate_of_hasFolder {folder : Text} (isFolder : workspace.hasFolder folder = true) :
    workspace.locate folder = .ok (Workspace.place folder) := by
  rw [hasFolder, find] at isFolder
  cases located : workspace.locate folder with
  | error fault =>
      rw [located] at isFolder
      cases isFolder
  | ok place => rw [eq_of_locate located]

theorem file?_eq_some {key text : Text} :
    workspace.file? key = some text ↔ (key, .file text) ∈ workspace.entries := by
  rw [file?]
  constructor
  · intro found
    obtain ⟨entry, known, isFile⟩ := Option.bind_eq_some_iff.mp found
    cases entry with
    | folder => cases isFile
    | file other =>
        cases isFile
        exact SortedMap.mem_of_get? known
  · intro member
    rw [SortedMap.get?_of_mem member]
    rfl

/-- The definition files below a folder are the files with fitting paths. -/
theorem get?_definitions {folder : Text} (isFolder : workspace.hasFolder folder = true)
    (path : Text) :
    (workspace.definitions folder).get? path =
      if isInner path && isDefinition path then
        workspace.file? (below (Workspace.place folder) ++ path)
      else none := by
  rw [definitions, isFolder, locate_of_hasFolder isFolder]
  simp only
  generalize listed : workspace.entries.filterMap _ = files
  have each (file : Text × Text) : file ∈ files ↔ (isInner file.1 && isDefinition file.1) = true ∧
      workspace.file? (below (Workspace.place folder) ++ file.1) = some file.2 := by
    rw [← listed, List.mem_filterMap, file?_eq_some]
    constructor
    · rintro ⟨⟨key, entry⟩, member, read⟩
      cases entry with
      | folder => cases read
      | file text =>
          obtain ⟨inner, kept, rfl⟩ := Option.map_eq_some_iff.mp read
          obtain ⟨dropped, fits⟩ := Option.filter_eq_some_iff.mp kept
          have key := Text.eq_append_of_dropStart? dropped
          subst key
          exact ⟨fits, member⟩
    · rintro ⟨fits, member⟩
      refine ⟨_, member, ?_⟩
      simp only [Text.dropStart?_append, Option.filter_some, fits, if_true, Option.map_some]
  split
  · next fits =>
      cases known : workspace.file? (below (Workspace.place folder) ++ path) with
      | some text =>
          refine SortedMap.get?_ofList_of_mem ((each (path, text)).mpr ⟨fits, known⟩) ?_
          rintro ⟨other, later⟩ member rfl
          have found := ((each (other, later)).mp member).2
          exact Option.some.inj (found.symm.trans known)
      | none =>
          refine (SortedMap.get?_ofList_eq_none_iff _ _).mpr ?_
          rintro ⟨other, text⟩ member rfl
          have found := ((each (other, text)).mp member).2
          rw [known] at found
          cases found
  · next unfit =>
      refine (SortedMap.get?_ofList_eq_none_iff _ _).mpr ?_
      rintro ⟨other, text⟩ member rfl
      exact unfit ((each (other, text)).mp member).1

theorem get?_definitions_of_isWhole {folder : Text} (whole : workspace.IsWhole folder)
    (path : Text) :
    (workspace.definitions folder).get? path =
      if isInner path && isDefinition path then
        workspace.file? (below (Workspace.place folder) ++ path)
      else none := by
  by_cases isFolder : workspace.hasFolder folder = true
  · exact get?_definitions isFolder path
  · have absent : workspace.hasFolder folder = false := by simpa using isFolder
    have nothing : workspace.file? (below (Workspace.place folder) ++ path) = none := by
      cases found : workspace.file? (below (Workspace.place folder) ++ path) with
      | none => rfl
      | some text =>
          have outside := whole absent _ (file?_eq_some.mp found)
          rw [Text.dropStart?_append] at outside
          cases outside
    rw [definitions, absent, nothing, SortedMap.get?_empty]
    simp

theorem isInner_of_mem_definitions {folder : Text} {file : Text × Text}
    (member : file ∈ (workspace.definitions folder).entries) :
    isInner file.1 = true ∧ isDefinition file.1 = true := by
  have found := SortedMap.get?_of_mem member
  by_cases isFolder : workspace.hasFolder folder = true
  · rw [get?_definitions isFolder] at found
    split at found
    · next fits => simpa using fits
    · cases found
  · have absent : workspace.hasFolder folder = false := by simpa using isFolder
    rw [definitions, absent] at found
    cases found

/-! ## Storing a definition set -/

section Store

variable {folder : Text} {isOwn : Text -> Text -> Bool} {earlier fresh : DefinitionSet}

theorem isInner_of_mem_stale (inner : ∀ file ∈ earlier.entries, isInner file.1 = true) :
    ∀ path ∈ (earlier.filter fun path text => !fresh.contains path && isOwn path text).keys,
      isInner path = true := by
  intro path member
  obtain ⟨file, inside, rfl⟩ := List.mem_map.mp member
  exact inner file (List.mem_filter.mp inside).1

/-- Storing a set removes files first and writes files then. -/
theorem store_of_done (done : (workspace.store folder isOwn earlier fresh).fault = none) :
    ∃ removed : Attempt, removed = Attempt.each
        (fun known path => known.removeFile (inside folder path))
        (earlier.filter fun path text => !fresh.contains path && isOwn path text).keys workspace ∧
      removed.fault = none ∧
      workspace.store folder isOwn earlier fresh = Attempt.each
        (fun known file => known.put (inside folder file.1) file.2) fresh.entries
        removed.workspace := by
  unfold store at done ⊢
  obtain ⟨first, both⟩ := andThen_of_done done
  exact ⟨_, rfl, first, both⟩

/-- What is stored in a folder takes the place of what was there before, and
files of the earlier set that are neither kept nor foreign are gone. -/
theorem file?_store (given : folder ≠ [])
    (innerEarlier : ∀ file ∈ earlier.entries, isInner file.1 = true)
    (inner : ∀ file ∈ fresh.entries, isInner file.1 = true)
    (done : (workspace.store folder isOwn earlier fresh).fault = none) (path : Text) :
    (workspace.store folder isOwn earlier fresh).workspace.file?
        (below (Workspace.place folder) ++ path) =
      (fresh.get? path).or
        (if ((earlier.get? path).filter (isOwn path)).isSome then none
        else workspace.file? (below (Workspace.place folder) ++ path)) := by
  obtain ⟨removed, rfl, first, whole⟩ := store_of_done done
  rw [whole] at done ⊢
  rw [(putFiles_of_done given inner done).2,
    removeFiles_of_done given (isInner_of_mem_stale innerEarlier) first]
  generalize isStale : (earlier.filter fun path text => !fresh.contains path && isOwn path text)
    = stale
  have written : (fresh.entries.reverse.find?
      (below (Workspace.place folder) ++ ·.1 == below (Workspace.place folder) ++ path)).map (·.2) =
      fresh.get? path := by
    rw [← SortedMap.find?_reverse_entries]
    congr 2
    funext file
    rw [Bool.eq_iff_iff]
    simp
  have gone : below (Workspace.place folder) ++ path ∈
      stale.keys.map (below (Workspace.place folder) ++ ·) ↔ (stale.get? path).isSome = true := by
    rw [← SortedMap.mem_keys]
    simp
  rw [written]
  simp only [gone]
  rw [← isStale, SortedMap.get?_filter, SortedMap.contains_eq]
  cases fresh.get? path with
  | some text => rfl
  | none => rfl

/-- Files outside of the folder stay. -/
theorem file?_store_outside (given : folder ≠ [])
    (innerEarlier : ∀ file ∈ earlier.entries, isInner file.1 = true)
    (inner : ∀ file ∈ fresh.entries, isInner file.1 = true)
    (done : (workspace.store folder isOwn earlier fresh).fault = none) {key : Text}
    (outside : Text.dropStart? (below (Workspace.place folder)) key = none) :
    (workspace.store folder isOwn earlier fresh).workspace.file? key = workspace.file? key := by
  obtain ⟨removed, rfl, first, whole⟩ := store_of_done done
  have other (path : Text) : below (Workspace.place folder) ++ path ≠ key := by
    rintro rfl
    rw [Text.dropStart?_append] at outside
    cases outside
  rw [whole] at done ⊢
  rw [(putFiles_of_done given inner done).2,
    removeFiles_of_done given (isInner_of_mem_stale innerEarlier) first]
  have unwritten : fresh.entries.reverse.find?
      (below (Workspace.place folder) ++ ·.1 == key) = none := by
    rw [List.find?_eq_none]
    intro file _
    simpa using other file.1
  rw [unwritten, if_neg]
  · rfl
  · intro removed
    obtain ⟨path, _, same⟩ := List.mem_map.mp removed
    exact other path same

theorem hasFolder_store (given : folder ≠ []) (written : fresh.entries ≠ [])
    (inner : ∀ file ∈ fresh.entries, isInner file.1 = true)
    (done : (workspace.store folder isOwn earlier fresh).fault = none) :
    (workspace.store folder isOwn earlier fresh).workspace.hasFolder folder = true := by
  obtain ⟨removed, _, _, whole⟩ := store_of_done done
  rw [whole] at done ⊢
  exact hasFolder_of_putFiles given written inner done

/-- The definition files of a folder after a set was stored in it are those of
the set, and the earlier ones that are foreign. -/
theorem get?_definitions_store (given : folder ≠ []) (whole : workspace.IsWhole folder)
    (written : fresh.entries ≠ [])
    (fits : ∀ file ∈ fresh.entries, isInner file.1 = true ∧ isDefinition file.1 = true)
    (done : (workspace.store folder isOwn (workspace.definitions folder) fresh).fault = none)
    (path : Text) :
    ((workspace.store folder isOwn (workspace.definitions folder) fresh).workspace.definitions
        folder).get? path =
      (fresh.get? path).or
        (((workspace.definitions folder).get? path).filter fun text => !isOwn path text) := by
  have inner := fun file member => (fits file member).1
  have innerEarlier : ∀ file ∈ (workspace.definitions folder).entries, isInner file.1 = true :=
    fun _ member => (isInner_of_mem_definitions member).1
  rw [get?_definitions (hasFolder_store given written inner done),
    file?_store given innerEarlier inner done, get?_definitions_of_isWhole whole]
  by_cases isFile : (isInner path && isDefinition path) = true
  · rw [if_pos isFile, if_pos isFile]
    cases workspace.file? (below (Workspace.place folder) ++ path) with
    | none => simp
    | some text =>
        rw [Option.filter_some, Option.filter_some]
        cases isOwn path text with
        | false => rfl
        | true => rfl
  · rw [if_neg isFile, if_neg isFile]
    cases found : fresh.get? path with
    | none => rfl
    | some text =>
        have known := fits _ (SortedMap.mem_of_get? found)
        exact absurd (by simp [known]) isFile

/-- All other files stay, below the folder and elsewhere. -/
theorem file?_store_of_not_definition (given : folder ≠ [])
    (fits : ∀ file ∈ fresh.entries, isInner file.1 = true ∧ isDefinition file.1 = true)
    (done : (workspace.store folder isOwn (workspace.definitions folder) fresh).fault = none)
    {key : Text} (other : ∀ path, isInner path = true -> isDefinition path = true ->
      key ≠ below (Workspace.place folder) ++ path) :
    (workspace.store folder isOwn (workspace.definitions folder) fresh).workspace.file? key =
      workspace.file? key := by
  have inner := fun file member => (fits file member).1
  have innerEarlier : ∀ file ∈ (workspace.definitions folder).entries, isInner file.1 = true :=
    fun _ member => (isInner_of_mem_definitions member).1
  cases below? : Text.dropStart? (below (Workspace.place folder)) key with
  | none => exact file?_store_outside given innerEarlier inner done below?
  | some path =>
      have same := Text.eq_append_of_dropStart? below?
      subst same
      have absent (files : DefinitionSet) (all : ∀ file ∈ files.entries,
          isInner file.1 = true ∧ isDefinition file.1 = true) : files.get? path = none := by
        cases found : files.get? path with
        | none => rfl
        | some text =>
            obtain ⟨leads, isFile⟩ := all _ (SortedMap.mem_of_get? found)
            exact absurd rfl (other path leads isFile)
      rw [file?_store given innerEarlier inner done, absent fresh fits,
        absent _ fun _ => isInner_of_mem_definitions]
      rfl

end Store

end Workspace

end CommandLine

end TabularModel
