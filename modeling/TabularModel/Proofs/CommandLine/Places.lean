import TabularModel.CommandLine.Workspace
import TabularModel.Proofs.Text.Trimming

/-!
# Where paths lead

A path that can be followed leads to the place that its names give, whatever else
is in the workspace. A path that leads on from a folder, never back, is followed
through that folder, so that the folder is there.
-/

set_option autoImplicit false

namespace TabularModel

namespace Text

/-- The pieces of a text, joined again. -/
theorem joined_fields (separator : Char) (text : Text) :
    joined [separator] (fields separator text) = text := by
  induction text with
  | nil => rfl
  | cons c text ih =>
      rw [fields]
      cases found : fields separator text with
      | nil => exact absurd found (fields_ne_nil separator text)
      | cons piece pieces =>
          rw [found] at ih
          by_cases same : c = separator
          · rw [if_pos same, joined, List.intercalate_cons_cons, ← joined, ih, same]
            rfl
          · rw [if_neg same, ← ih]
            cases pieces with
            | nil => simp [joined]
            | cons next pieces =>
                rw [joined, joined, List.intercalate_cons_cons, List.intercalate_cons_cons]
                rfl

theorem byteLength_append (left right : Text) :
    byteLength (left ++ right) = byteLength left + byteLength right := by
  induction left with
  | nil => simp [byteLength]
  | cons c left ih => simp [byteLength, ih, Nat.add_assoc]

end Text

namespace CommandLine

open Workspace (below follow inside isInner names start)

/-! ## Names that lead on -/

/-- A name that leads from a folder to something inside it. -/
def LeadsOn (name : Text) : Prop :=
  name ≠ [] ∧ name ≠ ("." : Text) ∧ name ≠ (".." : Text)

theorem isInner_iff {path : Text} :
    isInner path = true ↔ ∀ name ∈ Text.fields '/' path, LeadsOn name := by
  simp [isInner, LeadsOn, and_assoc]

theorem foldl_enter_of_leadsOn {names : List Text} (each : ∀ name ∈ names, LeadsOn name)
    (place : Place) : names.foldl Place.enter place = place ++ names := by
  induction names generalizing place with
  | nil => simp
  | cons name names ih =>
      obtain ⟨_, notPoint, notTwo⟩ := each name List.mem_cons_self
      have entered : place.enter name = place ++ [name] := by
        unfold Place.enter
        rw [if_neg notPoint, if_pos notTwo]
      rw [List.foldl_cons, entered, ih fun other member => each other (List.mem_cons_of_mem _ member)]
      simp

/-- The path of what is below a place begins with the path of the place. -/
theorem path_append (front : Place) {back : Place} (nonempty : back ≠ []) :
    Place.path (front ++ back) = below front ++ back.path := by
  induction front with
  | nil => rfl
  | cons name front ih =>
      obtain ⟨first, others, shape⟩ := List.exists_cons_of_ne_nil
        (List.append_ne_nil_of_right_ne_nil front nonempty)
      have longer : Place.path (name :: (front ++ back)) =
          name ++ '/' :: Place.path (front ++ back) := by
        rw [Place.path, Place.path, Text.joined, Text.joined, shape, List.intercalate_cons_cons]
        simp
      rw [List.cons_append, longer, ih]
      simp [below]

theorem filter_of_isInner {path : Text} (inner : isInner path = true) :
    (Text.fields '/' path).filter (!·.isEmpty) = Text.fields '/' path := by
  rw [List.filter_eq_self]
  intro name member
  simp [(isInner_iff.mp inner name member).1]

/-- A path that leads on does not end with a slash. -/
theorem exists_getLast?_of_isInner {path : Text} (inner : isInner path = true) :
    ∃ last, path.getLast? = some last ∧ last ≠ '/' := by
  have named := isInner_iff.mp inner
  have nonempty : path ≠ [] := by
    rintro rfl
    exact (named [] (by simp [Text.fields])).1 rfl
  obtain ⟨last, found⟩ := Option.isSome_iff_exists.mp (List.getLast?_isSome.mpr nonempty)
  refine ⟨last, found, ?_⟩
  rintro rfl
  obtain ⟨front, rfl⟩ := List.getLast?_eq_some_iff.mp found
  refine (named [] ?_).1 rfl
  rw [Text.fields_append]
  simp [Text.fields]

/-- The names in a path inside a folder are those of the folder and those that
lead on from it. A point at the end of a path leads nowhere else. -/
theorem exists_names_inside (folder : Text) {path : Text} (inner : isInner path = true) :
    ∃ base, names (inside folder path) = base ++ Text.fields '/' path ∧
      (names folder = base ∨ names folder = base ++ [['.']]) := by
  have whole := filter_of_isInner inner
  obtain ⟨last, found, different⟩ := exists_getLast?_of_isInner inner
  have ending (front : Text) : (front ++ '/' :: path).getLast? ≠ some '/' := by
    simpa [List.getLast?_append, List.getLast?_cons, found] using different
  by_cases closed : folder.getLast? = some '/'
  · obtain ⟨front, rfl⟩ := List.getLast?_eq_some_iff.mp closed
    refine ⟨(Text.fields '/' front).filter (!·.isEmpty), ?_, Or.inr ?_⟩
    · rw [inside, if_pos closed, List.append_assoc, List.singleton_append, names,
        if_neg (ending front), Text.fields_append, List.filter_append, whole, List.append_nil]
    · rw [names, if_pos closed, Text.fields_append, List.filter_append]
      simp [Text.fields]
  · refine ⟨(Text.fields '/' folder).filter (!·.isEmpty), ?_, Or.inl ?_⟩
    · rw [inside, if_neg closed, names, if_neg (ending folder), Text.fields_append,
        List.filter_append, whole, List.append_nil]
    · rw [names, if_neg closed, List.append_nil]

theorem start_inside {folder : Text} (given : folder ≠ []) (path : Text) :
    start (inside folder path) = start folder := by
  obtain ⟨c, rest, rfl⟩ := List.exists_cons_of_ne_nil given
  rw [inside]
  split <;> rfl

/-- A path inside a folder leads on from the place of the folder. -/
theorem place_inside {folder path : Text} (given : folder ≠ []) (inner : isInner path = true) :
    Workspace.place (inside folder path) = Workspace.place folder ++ Text.fields '/' path := by
  obtain ⟨base, whole, outer⟩ := exists_names_inside folder inner
  have same : (names folder).foldl Place.enter (start folder) =
      base.foldl Place.enter (start folder) := by
    rcases outer with names | names
    · rw [names]
    · rw [names, List.foldl_append]
      rfl
  rw [Workspace.place, Workspace.place, whole, start_inside given, List.foldl_append, same,
    foldl_enter_of_leadsOn (isInner_iff.mp inner)]

theorem path_place_inside {folder path : Text} (given : folder ≠ []) (inner : isInner path = true) :
    (Workspace.place (inside folder path)).path = below (Workspace.place folder) ++ path := by
  have back : Place.path (Text.fields '/' path) = path := Text.joined_fields '/' path
  rw [place_inside given inner, path_append _ (Text.fields_ne_nil '/' path), back]

/-! ## Following a path -/

namespace Workspace

variable {workspace : Workspace}

theorem eq_of_follow {place found : Place} {names : List Text}
    (followed : workspace.follow place names = .ok found) :
    found = names.foldl Place.enter place := by
  induction names generalizing place with
  | nil => exact (Except.ok.inj followed).symm
  | cons name names ih =>
      rw [follow] at followed
      split at followed
      · cases followed
      · cases followed
      · split at followed
        · cases followed
        · exact ih followed

theorem eq_of_locate {path : Text} {found : Place} (located : workspace.locate path = .ok found) :
    found = Workspace.place path := by
  rw [locate] at located
  split at located
  · cases located
  · exact eq_of_follow located

/-- Names are only followed from a folder. -/
theorem entry?_of_follow {place found : Place} {name : Text} {names : List Text}
    (followed : workspace.follow place (name :: names) = .ok found) :
    workspace.entry? place = some .folder := by
  rw [follow] at followed
  split at followed
  · cases followed
  · cases followed
  · next folder => exact folder

theorem exists_follow_of_append {place found : Place} {front back : List Text}
    (followed : workspace.follow place (front ++ back) = .ok found) :
    ∃ middle, workspace.follow place front = .ok middle ∧
      workspace.follow middle back = .ok found := by
  induction front generalizing place with
  | nil => exact ⟨place, rfl, followed⟩
  | cons name front ih =>
      rw [List.cons_append, follow] at followed
      rw [follow]
      split at followed
      · cases followed
      · cases followed
      · split at followed
        · cases followed
        · next folder short =>
            rw [if_neg short]
            exact ih followed

theorem follow_append {place middle found : Place} {front back : List Text}
    (first : workspace.follow place front = .ok middle)
    (second : workspace.follow middle back = .ok found) :
    workspace.follow place (front ++ back) = .ok found := by
  induction front generalizing place with
  | nil =>
      cases Except.ok.inj first
      exact second
  | cons name front ih =>
      rw [follow] at first
      rw [List.cons_append, follow]
      split at first
      · cases first
      · cases first
      · split at first
        · cases first
        · next folder short =>
            rw [if_neg short]
            exact ih first

/-- The folder through which a path leads is there. -/
theorem locate_folder {folder path : Text} (given : folder ≠ []) (inner : isInner path = true)
    {found : Place} (located : workspace.locate (inside folder path) = .ok found) :
    workspace.locate folder = .ok (Workspace.place folder) ∧
      workspace.entry? (Workspace.place folder) = some .folder := by
  obtain ⟨base, whole, outer⟩ := exists_names_inside folder inner
  rw [locate] at located
  split at located
  · cases located
  · next short =>
      have shorter : ¬ longestPath < Text.byteLength folder := by
        rw [inside] at short
        split at short
        · rw [Text.byteLength_append] at short
          omega
        · rw [Text.byteLength_append] at short
          omega
      rw [start_inside given, whole] at located
      obtain ⟨middle, first, second⟩ := exists_follow_of_append located
      obtain ⟨name, others, shape⟩ := List.exists_cons_of_ne_nil (Text.fields_ne_nil '/' path)
      rw [shape] at second
      have isFolder := entry?_of_follow second
      have here : workspace.follow (start folder) (names folder) = .ok middle := by
        rcases outer with same | same
        · rw [same]
          exact first
        · have stays : workspace.follow middle [['.']] = .ok middle := by
            have byte : ¬ longestName < Text.byteLength ['.'] := by decide
            rw [follow, isFolder]
            simp only [if_neg byte]
            rfl
          rw [same]
          exact follow_append first stays
      have known : workspace.locate folder = .ok middle := by
        rw [locate, if_neg shorter]
        exact here
      rw [eq_of_locate known] at isFolder known
      exact ⟨known, isFolder⟩

end Workspace

end CommandLine

end TabularModel
