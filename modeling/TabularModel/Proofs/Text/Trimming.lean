import Mathlib.Data.List.DropRight
import TabularModel.Text.Blank

/-!
# Trimming and single lines

How trimming acts on a text of which one end is known, and what cutting a text
into fields does to texts that do not hold the separator. A text is trimmed if
trimming leaves it as it is, and a single line if it holds no line feed.
-/

set_option autoImplicit false

namespace TabularModel

namespace Text

/-- No blank stands at either end. -/
def IsTrimmed (text : Text) : Prop := trim text = text

instance (text : Text) : Decidable (IsTrimmed text) :=
  inferInstanceAs (Decidable (trim text = text))

/-- No line feed stands in the text. -/
def IsSingleLine (text : Text) : Prop := '\n' ∉ text

instance (text : Text) : Decidable (IsSingleLine text) :=
  inferInstanceAs (Decidable ('\n' ∉ text))

/-! ## Taking up to a boundary -/

/-- What is taken ends where the first other element stands. -/
theorem takeWhile_dropWhile_append {α : Type} (p : α -> Bool) (body rest : List α)
    (inside : ∀ c ∈ body, p c = true) (boundary : ∀ c ∈ rest.head?, p c = false) :
    (body ++ rest).takeWhile p = body ∧ (body ++ rest).dropWhile p = rest := by
  rw [List.takeWhile_append_of_pos inside, List.dropWhile_append_of_pos inside]
  cases rest with
  | nil => simp
  | cons c rest =>
      have other : p c = false := boundary c rfl
      rw [List.takeWhile_cons_of_neg (by simp [other]), List.dropWhile_cons_of_neg (by simp [other])]
      exact ⟨List.append_nil body, rfl⟩

/-! ## Dropping at the right end -/

/-- Dropping at the right end, in the terms of the list library. -/
theorem dropRightWhile_eq (p : Char -> Bool) (text : Text) :
    dropRightWhile p text = text.rdropWhile p := rfl

/-- What stands in front of a character that is kept is kept as well. -/
theorem dropRightWhile_append_cons (p : Char -> Bool) (front back : Text) (c : Char)
    (kept : p c = false) :
    dropRightWhile p (front ++ c :: back) = front ++ c :: dropRightWhile p back := by
  simp only [dropRightWhile, List.reverse_append, List.reverse_cons, List.append_assoc]
  rw [List.dropWhile_append]
  by_cases all : (back.reverse.dropWhile p).isEmpty = true
  · rw [if_pos all, List.isEmpty_iff.mp all]
    simp [kept]
  · rw [if_neg all]
    simp

theorem dropRightWhile_cons (p : Char -> Bool) (back : Text) (c : Char) (kept : p c = false) :
    dropRightWhile p (c :: back) = c :: dropRightWhile p back :=
  dropRightWhile_append_cons p [] back c kept

theorem dropRightWhile_append_of_all (p : Char -> Bool) (front back : Text)
    (all : back.all p = true) : dropRightWhile p (front ++ back) = dropRightWhile p front := by
  simp only [dropRightWhile, List.reverse_append]
  rw [List.dropWhile_append_of_pos]
  intro c member
  exact List.all_eq_true.mp all c (List.mem_reverse.mp member)

/-! ## Trimming -/

theorem trimLeft_cons_of_blank (text : Text) (c : Char) (blank : isBlank c = true) :
    trimLeft (c :: text) = trimLeft text := by
  simp [trimLeft, blank]

theorem trimLeft_cons_of_not_blank (text : Text) (c : Char) (visible : isBlank c = false) :
    trimLeft (c :: text) = c :: text := by
  simp [trimLeft, visible]

theorem trimLeft_append_of_allBlank (blanks text : Text) (blank : allBlank blanks = true) :
    trimLeft (blanks ++ text) = trimLeft text := by
  rw [trimLeft, List.dropWhile_append_of_pos, trimLeft]
  exact fun c member => List.all_eq_true.mp blank c member

/-- Trimming at the left ends in front of a visible character or at the end. -/
theorem trimLeft_eq_nil_or_cons (text : Text) :
    (trimLeft text = [] ∧ allBlank text = true) ∨
      ∃ c rest, trimLeft text = c :: rest ∧ isBlank c = false := by
  induction text with
  | nil => exact Or.inl ⟨rfl, rfl⟩
  | cons first text ih =>
      cases blank : isBlank first with
      | false => exact Or.inr ⟨first, text, trimLeft_cons_of_not_blank text first blank, blank⟩
      | true =>
          rw [trimLeft_cons_of_blank text first blank]
          rcases ih with ⟨empty, all⟩ | found
          · refine Or.inl ⟨empty, ?_⟩
            rw [allBlank, List.all_cons, blank, Bool.true_and]
            exact all
          · exact Or.inr found

theorem trim_of_allBlank (text : Text) (blank : allBlank text = true) : trim text = [] := by
  have empty : trimLeft text = [] := by
    simpa [trimLeft] using trimLeft_append_of_allBlank text [] blank
  rw [trim, empty]
  rfl

/-- Blanks in front of a text do not matter for trimming. -/
theorem trim_append_of_allBlank (blanks text : Text) (blank : allBlank blanks = true) :
    trim (blanks ++ text) = trim text := by
  rw [trim, trimLeft_append_of_allBlank blanks text blank, trim]

theorem trim_cons_of_blank (text : Text) (c : Char) (blank : isBlank c = true) :
    trim (c :: text) = trim text := by
  rw [trim, trimLeft_cons_of_blank text c blank, trim]

theorem trim_cons_of_not_blank (text : Text) (c : Char) (visible : isBlank c = false) :
    trim (c :: text) = c :: trimRight text := by
  rw [trim, trimLeft_cons_of_not_blank text c visible, trimRight,
    dropRightWhile_cons isBlank text c visible, trimRight]

theorem trim_eq_nil_or_cons (text : Text) :
    trim text = [] ∨ ∃ c rest, trim text = c :: rest ∧ isBlank c = false := by
  rcases trimLeft_eq_nil_or_cons text with ⟨_, all⟩ | ⟨c, rest, found, visible⟩
  · exact Or.inl (trim_of_allBlank text all)
  · refine Or.inr ⟨c, trimRight rest, ?_, visible⟩
    rw [trim, found, trimRight, dropRightWhile_cons isBlank rest c visible, trimRight]

theorem trimRight_trimRight (text : Text) : trimRight (trimRight text) = trimRight text :=
  List.rdropWhile_idempotent isBlank text

theorem trimLeft_trim (text : Text) : trimLeft (trim text) = trim text := by
  rcases trim_eq_nil_or_cons text with empty | ⟨c, rest, found, visible⟩
  · rw [empty]
    rfl
  · rw [found, trimLeft_cons_of_not_blank rest c visible]

theorem isTrimmed_trim (text : Text) : IsTrimmed (trim text) := by
  rw [IsTrimmed, trim, trimLeft_trim, trim, trimRight_trimRight]

/-- Blanks behind a text do not matter for trimming. -/
theorem trim_trimRight (text : Text) : trim (trimRight text) = trim text := by
  have whole : trimRight text ++ text.rtakeWhile isBlank = text :=
    List.rdropWhile_append_rtakeWhile
  have blank : (text.rtakeWhile isBlank).all isBlank = true :=
    List.all_eq_true.mpr fun _ member => List.mem_rtakeWhile_imp member
  conv => rhs; rw [← whole]
  rcases trimLeft_eq_nil_or_cons (trimRight text) with ⟨_, all⟩ | ⟨c, rest, found, visible⟩
  · rw [trim_of_allBlank _ all, trim_of_allBlank]
    rw [allBlank, List.all_append, Bool.and_eq_true]
    exact ⟨all, blank⟩
  · have split : trimLeft (trimRight text ++ text.rtakeWhile isBlank) =
        c :: (rest ++ text.rtakeWhile isBlank) := by
      rw [trimLeft, List.dropWhile_append, ← trimLeft, found]
      simp
    rw [trim, found, trim, split, trimRight, trimRight, ← List.cons_append,
      dropRightWhile_append_of_all isBlank (c :: rest) _ blank]

/-- A text with visible characters at both ends is trimmed. -/
theorem isTrimmed_of_ends (first last : Char) (middle : Text) (visibleFirst : isBlank first = false)
    (visibleLast : isBlank last = false) : IsTrimmed (first :: (middle ++ [last])) := by
  rw [IsTrimmed, trim_cons_of_not_blank _ first visibleFirst, trimRight, dropRightWhile_eq,
    List.rdropWhile_concat_neg isBlank middle last (by simp [visibleLast])]

theorem isTrimmed_of_noBlank (text : Text) (visible : text.any isBlank = false) :
    IsTrimmed text := by
  cases text with
  | nil => rfl
  | cons first rest =>
      simp only [List.any_cons, Bool.or_eq_false_iff] at visible
      rw [IsTrimmed, trim_cons_of_not_blank rest first visible.1, trimRight, dropRightWhile_eq,
        List.rdropWhile_eq_self_iff.mpr]
      intro nonempty blankLast
      have none := List.any_eq_false.mp visible.2 _ (List.getLast_mem nonempty)
      exact none blankLast

/-! ## Single lines -/

theorem mem_of_mem_trim {text : Text} {c : Char} (member : c ∈ trim text) : c ∈ text :=
  (List.dropWhile_sublist _).mem ((List.rdropWhile_prefix _ _).subset member)

theorem IsSingleLine.trim {text : Text} (single : IsSingleLine text) :
    IsSingleLine (Text.trim text) := fun member => single (mem_of_mem_trim member)

theorem isSingleLine_append {left right : Text} :
    IsSingleLine (left ++ right) ↔ IsSingleLine left ∧ IsSingleLine right := by
  simp [IsSingleLine, not_or]

/-! ## Fields -/

theorem fields_of_absent (separator : Char) (field : Text) (absent : separator ∉ field) :
    fields separator field = [field] := by
  induction field with
  | nil => rfl
  | cons c field ih =>
      have different : ¬ c = separator := fun same => absent (same ▸ List.mem_cons_self)
      have later : separator ∉ field := fun member => absent (List.mem_cons_of_mem c member)
      rw [fields, if_neg different, ih later]

theorem fields_ne_nil (separator : Char) (text : Text) : fields separator text ≠ [] := by
  cases text with
  | nil => simp [fields]
  | cons c text =>
      rw [fields]
      split
      · simp
      · split <;> simp

theorem fields_append (separator : Char) (left right : Text) :
    fields separator (left ++ separator :: right) =
      fields separator left ++ fields separator right := by
  induction left with
  | nil => simp [fields]
  | cons c left ih =>
      rw [List.cons_append, fields, fields]
      by_cases same : c = separator
      · rw [if_pos same, if_pos same, ih, List.cons_append]
      · rw [if_neg same, if_neg same, ih]
        cases found : fields separator left with
        | nil => exact absurd found (fields_ne_nil separator left)
        | cons piece pieces => rfl

theorem fields_append_separator (separator : Char) (field rest : Text)
    (absent : separator ∉ field) :
    fields separator (field ++ separator :: rest) = field :: fields separator rest := by
  rw [fields_append, fields_of_absent separator field absent, List.singleton_append]

theorem fields_append_last (separator : Char) (front last : Text) (absent : separator ∉ last) :
    fields separator (front ++ separator :: last) = fields separator front ++ [last] := by
  rw [fields_append, fields_of_absent separator last absent]

/-- A text without the separator goes to the first field of what stands behind it. -/
theorem fields_append_of_absent (separator : Char) (front rest : Text) (absent : separator ∉ front) :
    ∃ field later, fields separator (front ++ rest) = (front ++ field) :: later := by
  induction front with
  | nil =>
      obtain ⟨field, later, found⟩ := List.exists_cons_of_ne_nil (fields_ne_nil separator rest)
      exact ⟨field, later, found⟩
  | cons c front ih =>
      have different : c ≠ separator := fun same => absent (same ▸ List.mem_cons_self)
      obtain ⟨field, later, found⟩ := ih fun member => absent (List.mem_cons_of_mem c member)
      exact ⟨field, later, by rw [List.cons_append, fields, if_neg different, found]; rfl⟩

theorem absent_of_mem_fields (separator : Char) (text : Text) :
    ∀ field ∈ fields separator text, separator ∉ field := by
  induction text with
  | nil => simp [fields]
  | cons c text ih =>
      intro field member
      rw [fields] at member
      split at member
      · rcases List.mem_cons.mp member with rfl | later
        · simp
        · exact ih field later
      · next different =>
          cases found : fields separator text with
          | nil =>
              rw [found] at member
              simp only [List.mem_singleton] at member
              subst field
              simpa using Ne.symm different
          | cons piece pieces =>
              rw [found] at member ih
              rcases List.mem_cons.mp member with rfl | later
              · have absent := ih piece List.mem_cons_self
                simp only [List.mem_cons, not_or]
                exact ⟨Ne.symm different, absent⟩
              · exact ih field (List.mem_cons_of_mem _ later)

end Text

end TabularModel
