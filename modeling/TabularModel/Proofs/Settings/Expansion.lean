import TabularModel.Proofs.Text.Trimming
import TabularModel.Settings.Expansion

/-!
# Expanded texts

Every text is a sequence of literals, references to variables and lone dollar
signs. What each part is read as depends on itself and on the character behind
it. The expanded text is the concatenation of what the parts stand for, and the
first reference to a variable that is not set decides the error.
-/

set_option autoImplicit false

namespace TabularModel

namespace Expansion

/-- A part of a text as it is written. A reference in an open brace has no
closing one. -/
inductive Part where
  | literal (content : Text)
  | braced (name : Text)
  | bare (name : Text)
  | dollar
  | unclosed (name : Text)
deriving DecidableEq, Repr

namespace Part

def written : Part -> Text
  | .literal content => content
  | .braced name => '$' :: '{' :: (name ++ ['}'])
  | .bare name => '$' :: name
  | .dollar => ['$']
  | .unclosed name => '$' :: '{' :: name

/-- The part ends where `rest` begins: no character of it could end the part
earlier, and what follows does not continue it. -/
def EndsBefore (rest : Text) : Part -> Prop
  | .literal content => '$' ∉ content
  | .braced name => '}' ∉ name
  | .bare name =>
      name ≠ [] ∧ (∀ c ∈ name, continuesName c = true) ∧
        ∀ c ∈ rest.head?, continuesName c = false
  | .dollar => ∀ c ∈ rest.head?, c ≠ '{' ∧ continuesName c = false
  | .unclosed name => '}' ∉ name ∧ rest = []

-- The instances for what every member satisfies are given by name: searching for one
-- may find the instance that tries every character there is.
instance (rest : Text) : (part : Part) -> Decidable (part.EndsBefore rest)
  | .literal content => inferInstanceAs (Decidable ('$' ∉ content))
  | .braced name => inferInstanceAs (Decidable ('}' ∉ name))
  | .bare name =>
      have letters := List.decidableBAll (continuesName · = true) name
      have ends := @Option.decidableForallMem _ (continuesName · = false) _ rest.head?
      @instDecidableAnd (name ≠ []) _ _ (@instDecidableAnd _ _ letters ends)
  | .dollar =>
      @Option.decidableForallMem _ (fun c => c ≠ '{' ∧ continuesName c = false) _ rest.head?
  | .unclosed name => inferInstanceAs (Decidable ('}' ∉ name ∧ rest = []))

/-- The variable that a part refers to. -/
def referred? : Part -> Option Text
  | .literal _ => none
  | .braced name => some name
  | .bare name => some name
  | .dollar => none
  | .unclosed name => some name

/-- What a part stands for, if its variable is set. -/
def value? (environment : Environment) (part : Part) : Option Text :=
  match part.referred? with
  | some name => environment.value? name
  | none => some part.written

def segments : Part -> List Segment
  | .literal content => content.map .character
  | .braced name => [.variable name]
  | .bare name => [.variable name]
  | .dollar => [.character '$']
  | .unclosed name => [.variable name]

end Part

def writtenEach (parts : List Part) : Text :=
  parts.flatMap Part.written

/-- Each part ends before what is written for the parts behind it. -/
def AreParts : List Part -> Prop
  | [] => True
  | part :: parts => part.EndsBefore (writtenEach parts) ∧ AreParts parts

instance decidableAreParts : (parts : List Part) -> Decidable (AreParts parts)
  | [] => isTrue trivial
  | _ :: parts => @instDecidableAnd _ _ _ (decidableAreParts parts)

/-! ## Reading the parts -/

theorem segments_literal {content : Text} (plain : '$' ∉ content) (rest : Text) :
    segments (content ++ rest) = content.map .character ++ segments rest := by
  induction content with
  | nil => rfl
  | cons c content ih =>
      rw [List.mem_cons, not_or] at plain
      rw [List.cons_append, segments, if_neg (Ne.symm plain.1), ih plain.2]
      rfl

theorem reference_braced {name : Text} (inside : '}' ∉ name) (rest : Text) :
    reference ('{' :: (name ++ '}' :: rest)) = (.variable name, rest) := by
  have letters : ∀ c ∈ name, (!endsBraced c) = true := by
    intro c member
    have different : c ≠ '}' := fun same => inside (same ▸ member)
    simp [endsBraced, different]
  obtain ⟨taken, left⟩ := Text.takeWhile_dropWhile_append (!endsBraced ·) name ('}' :: rest)
    letters (by simp [endsBraced])
  simp only [reference, taken, left, List.drop_succ_cons, List.drop_zero]

theorem reference_unclosed {name : Text} (inside : '}' ∉ name) :
    reference ('{' :: name) = (.variable name, []) := by
  have letters : ∀ c ∈ name, (!endsBraced c) = true := by
    intro c member
    have different : c ≠ '}' := fun same => inside (same ▸ member)
    simp [endsBraced, different]
  obtain ⟨taken, left⟩ := Text.takeWhile_dropWhile_append (!endsBraced ·) name [] letters (by simp)
  rw [List.append_nil] at taken left
  simp only [reference, taken, left, List.drop_nil]

/-- A dollar sign in front of anything but a brace refers to the longest name. -/
theorem reference_of_not_brace {text : Text} (noBrace : text.head? ≠ some '{') :
    reference text =
      match text.takeWhile continuesName with
      | [] => (.character '$', text)
      | name => (.variable name, text.dropWhile continuesName) := by
  unfold reference
  split
  · exact absurd rfl noBrace
  · rfl

theorem not_continuesName_brace : continuesName '{' = false := by decide +kernel

theorem reference_bare {name rest : Text} (nonempty : name ≠ [])
    (letters : ∀ c ∈ name, continuesName c = true)
    (ends : ∀ c ∈ rest.head?, continuesName c = false) :
    reference (name ++ rest) = (.variable name, rest) := by
  obtain ⟨first, others, rfl⟩ := List.exists_cons_of_ne_nil nonempty
  have noBrace : ((first :: others) ++ rest).head? ≠ some '{' := by
    intro brace
    have isBrace : first = '{' := Option.some.inj brace
    have continued := letters first List.mem_cons_self
    rw [isBrace, not_continuesName_brace] at continued
    cases continued
  obtain ⟨taken, left⟩ := Text.takeWhile_dropWhile_append continuesName (first :: others) rest
    letters ends
  rw [reference_of_not_brace noBrace, taken, left]

theorem reference_dollar {rest : Text}
    (ends : ∀ c ∈ rest.head?, c ≠ '{' ∧ continuesName c = false) :
    reference rest = (.character '$', rest) := by
  have noBrace : rest.head? ≠ some '{' := fun brace => (ends '{' brace).1 rfl
  have noName : rest.takeWhile continuesName = [] := by
    cases rest with
    | nil => rfl
    | cons c rest => rw [List.takeWhile_cons_of_neg (by simp [(ends c rfl).2])]
  rw [reference_of_not_brace noBrace, noName]

theorem segments_reference (text : Text) :
    segments ('$' :: text) = (reference text).1 :: segments (reference text).2 := by
  rw [segments, if_pos rfl]

theorem segments_part {part : Part} {rest : Text} (ends : part.EndsBefore rest) :
    segments (part.written ++ rest) = part.segments ++ segments rest := by
  cases part with
  | literal content => exact segments_literal ends rest
  | braced name =>
      have shape : Part.written (.braced name) ++ rest = '$' :: '{' :: (name ++ '}' :: rest) := by
        simp [Part.written]
      rw [shape, segments_reference, reference_braced ends]
      rfl
  | bare name =>
      have shape : Part.written (.bare name) ++ rest = '$' :: (name ++ rest) := rfl
      rw [shape, segments_reference, reference_bare ends.1 ends.2.1 ends.2.2]
      rfl
  | dollar =>
      have shape : Part.written .dollar ++ rest = '$' :: rest := rfl
      rw [shape, segments_reference, reference_dollar ends]
      rfl
  | unclosed name =>
      obtain ⟨inside, rfl⟩ := ends
      rw [List.append_nil, Part.written, segments_reference, reference_unclosed inside]
      rfl

theorem segments_writtenEach {parts : List Part} (areParts : AreParts parts) :
    segments (writtenEach parts) = parts.flatMap Part.segments := by
  induction parts with
  | nil => rw [writtenEach, List.flatMap_nil, segments, List.flatMap_nil]
  | cons part parts ih =>
      obtain ⟨ends, others⟩ := areParts
      have shape : writtenEach (part :: parts) = part.written ++ writtenEach parts := rfl
      rw [shape, segments_part ends, ih others, List.flatMap_cons]

/-! ## Every text has parts -/

/-- What a dollar sign begins is one of the four parts that begin so. -/
theorem exists_part (text : Text) : ∃ (part : Part) (rest : Text),
    '$' :: text = part.written ++ rest ∧ part.EndsBefore rest ∧ rest.length ≤ text.length := by
  by_cases brace : text.head? = some '{'
  · obtain ⟨inner, rfl⟩ : ∃ inner, text = '{' :: inner := by
      cases text with
      | nil => cases brace
      | cons c inner => exact ⟨inner, by rw [Option.some.inj brace]⟩
    by_cases closed : '}' ∈ inner
    · obtain ⟨name, rest, rfl, inside⟩ := List.eq_append_cons_of_mem closed
      exact ⟨.braced name, rest, by simp [Part.written], inside, by simp; omega⟩
    · exact ⟨.unclosed inner, [], by simp [Part.written], ⟨closed, rfl⟩, by simp⟩
  · have rejoined := List.takeWhile_append_dropWhile (p := continuesName) (l := text)
    have shorter := (List.dropWhile_suffix continuesName (l := text)).length_le
    have ends : ∀ c ∈ (text.dropWhile continuesName).head?, continuesName c = false := by
      intro c member
      have stopped := List.head?_dropWhile_not continuesName text
      rwa [Option.mem_def.mp member] at stopped
    by_cases named : text.takeWhile continuesName = []
    · rw [named, List.nil_append] at rejoined
      rw [rejoined] at ends
      refine ⟨.dollar, text, rfl, fun c member => ⟨?_, ends c member⟩, Nat.le_refl _⟩
      rintro rfl
      exact brace member
    · refine ⟨.bare (text.takeWhile continuesName), text.dropWhile continuesName, ?_, ?_, shorter⟩
      · rw [Part.written, List.cons_append, rejoined]
      · exact ⟨named, fun c member => List.mem_takeWhile_imp member, ends⟩

theorem exists_parts (text : Text) : ∃ parts, AreParts parts ∧ writtenEach parts = text := by
  induction bound : text.length using Nat.strong_induction_on generalizing text with
  | _ size ih =>
      cases text with
      | nil => exact ⟨[], trivial, rfl⟩
      | cons c rest =>
          by_cases isDollar : c = '$'
          · obtain ⟨part, behind, shape, ends, shorter⟩ := exists_part rest
            have smaller : behind.length < size := by
              rw [← bound, List.length_cons]
              omega
            obtain ⟨parts, areParts, rfl⟩ := ih _ smaller behind rfl
            exact ⟨part :: parts, ⟨ends, areParts⟩, by rw [isDollar, shape]; rfl⟩
          · have smaller : rest.length < size := by rw [← bound, List.length_cons]; omega
            obtain ⟨parts, areParts, rfl⟩ := ih _ smaller rest rfl
            refine ⟨.literal [c] :: parts, ⟨?_, areParts⟩, rfl⟩
            rw [Part.EndsBefore, List.mem_singleton]
            exact Ne.symm isDollar

/-! ## What the parts stand for -/

/-- What is read of a part alone. -/
def Part.resolve (environment : Environment) (part : Part) : Except Text Text :=
  (part.segments.mapM (Segment.resolve environment)).map List.flatten

theorem expand_cons (environment : Environment) {part : Part} {parts : List Part}
    (areParts : AreParts (part :: parts)) :
    expand environment (writtenEach (part :: parts)) =
      (part.resolve environment).bind fun value =>
        (expand environment (writtenEach parts)).map (value ++ ·) := by
  rw [expand, expand, segments_writtenEach areParts, segments_writtenEach areParts.2,
    List.flatMap_cons, List.mapM_append, Part.resolve]
  cases part.segments.mapM (Segment.resolve environment) with
  | error name => rfl
  | ok first =>
      cases (parts.flatMap Part.segments).mapM (Segment.resolve environment) with
      | error name => rfl
      | ok others => exact congrArg Except.ok List.flatten_append

theorem mapM_resolve_characters (environment : Environment) (content : Text) :
    (content.map Segment.character).mapM (Segment.resolve environment) =
      .ok (content.map fun c => [c]) := by
  induction content with
  | nil => rfl
  | cons c content ih =>
      rw [List.map_cons, List.mapM_cons, ih]
      rfl

theorem resolve_literal (environment : Environment) (content : Text) :
    (Part.literal content).resolve environment = .ok content := by
  have joined : (content.map fun c => [c]).flatten = content := by
    rw [← List.flatMap_def, List.flatMap_singleton']
  rw [Part.resolve, Part.segments, mapM_resolve_characters, Except.map, joined]

theorem resolve_of_segments {part : Part} {name : Text} (environment : Environment)
    (segments : part.segments = [.variable name]) :
    part.resolve environment =
      match environment.value? name with
      | some value => .ok value
      | none => .error name := by
  rw [Part.resolve, segments, List.mapM_cons, Segment.resolve]
  cases environment.value? name with
  | none => rfl
  | some value => exact congrArg Except.ok (List.append_nil value)

theorem segments_of_referred? {part : Part} {name : Text} (refers : part.referred? = some name) :
    part.segments = [.variable name] := by
  cases part <;> cases refers <;> rfl

theorem resolve_of_value? {environment : Environment} {part : Part} {value : Text}
    (set : part.value? environment = some value) : part.resolve environment = .ok value := by
  cases referred : part.referred? with
  | none =>
      rw [Part.value?, referred] at set
      cases set
      cases part with
      | literal content => exact resolve_literal environment content
      | dollar => rfl
      | braced name | bare name | unclosed name => cases referred
  | some name =>
      rw [Part.value?, referred] at set
      have found : environment.value? name = some value := set
      rw [resolve_of_segments environment (segments_of_referred? referred), found]

theorem resolve_of_unset {environment : Environment} {part : Part} {name : Text}
    (refers : part.referred? = some name) (unset : environment.value? name = none) :
    part.resolve environment = .error name := by
  rw [resolve_of_segments environment (segments_of_referred? refers), unset]

theorem expand_of_set {environment : Environment} {parts : List Part} (areParts : AreParts parts)
    {values : List Text} (set : parts.mapM (Part.value? environment) = some values) :
    expand environment (writtenEach parts) = .ok values.flatten := by
  induction parts generalizing values with
  | nil =>
      cases set
      rw [expand, segments_writtenEach areParts]
      rfl
  | cons part parts ih =>
      rw [List.mapM_cons] at set
      obtain ⟨value, first, set⟩ := Option.bind_eq_some_iff.mp set
      obtain ⟨others, later, same⟩ := Option.bind_eq_some_iff.mp set
      cases same
      rw [expand_cons environment areParts, resolve_of_value? first, ih areParts.2 later]
      rfl

theorem expand_of_unset {environment : Environment} {front back : List Part} {part : Part}
    {name : Text} (areParts : AreParts (front ++ part :: back))
    (set : ∀ earlier ∈ front, (earlier.value? environment).isSome)
    (refers : part.referred? = some name) (unset : environment.value? name = none) :
    expand environment (writtenEach (front ++ part :: back)) = .error name := by
  induction front with
  | nil =>
      rw [List.nil_append] at areParts ⊢
      rw [expand_cons environment areParts, resolve_of_unset refers unset]
      rfl
  | cons first front ih =>
      obtain ⟨value, found⟩ := Option.isSome_iff_exists.mp (set first List.mem_cons_self)
      have others := ih areParts.2 fun earlier member => set earlier (List.mem_cons_of_mem _ member)
      rw [List.cons_append] at areParts ⊢
      rw [expand_cons environment areParts, resolve_of_value? found, others]
      rfl

/-- Every text consists of parts. Where all variables are set, the expanded text is
the concatenation of the literals, of the values as they are and of the lone dollar
signs. Otherwise the first reference to a variable that is not set is the error. An
open brace without a closing one takes the rest of the text as its name. -/
theorem expand_parts (environment : Environment) :
    (∀ text, ∃ parts, AreParts parts ∧ writtenEach parts = text) ∧
    ∀ parts, AreParts parts ->
      (∀ values, parts.mapM (Part.value? environment) = some values ->
        expand environment (writtenEach parts) = .ok values.flatten) ∧
      ∀ front part back name, parts = front ++ part :: back ->
        (∀ earlier ∈ front, (earlier.value? environment).isSome) ->
        part.referred? = some name -> environment.value? name = none ->
        expand environment (writtenEach parts) = .error name := by
  refine ⟨exists_parts, fun parts areParts => ⟨fun values set => expand_of_set areParts set, ?_⟩⟩
  rintro front part back name rfl set refers unset
  exact expand_of_unset areParts set refers unset

/-- Adjacent references, a value that looks like a reference and a lone dollar sign
in front of a reference in an open brace, whose variable is not set. -/
theorem expand_parts_adjacent :
    let environment : Environment := .ofList [("HOST", "$HOST\x7d"), ("PORT", "80")]
    let front : List Part :=
      [.literal "//", .braced "HOST", .bare "PORT", .literal "!", .dollar]
    let parts : List Part := front ++ [.unclosed "REST $PORT"]
    writtenEach parts = "//$\x7bHOST\x7d$PORT!$$\x7bREST $PORT" ∧
      expand environment (writtenEach front) = .ok "//$HOST\x7d80!$" ∧
      expand environment (writtenEach parts) = .error "REST $PORT" := by
  intro environment front parts
  have ofFront := ((expand_parts environment).2 front (by decide +kernel)).1
    ["//", "$HOST\x7d", "80", "!", "$"] (by decide +kernel)
  have ofParts := ((expand_parts environment).2 parts (by decide +kernel)).2 front
    (.unclosed "REST $PORT") [] "REST $PORT" rfl (by decide +kernel) rfl (by decide +kernel)
  exact ⟨by decide +kernel, ofFront, ofParts⟩

end Expansion

end TabularModel
