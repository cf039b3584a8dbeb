import TabularModel.Proofs.Sql.Logic

/-!
# Balanced phrases

A point joins the names around it to one term, so texts that neither begin nor end with
one are divided into terms each for itself. Terms whose parentheses are closed among
them take nothing from what is around them: a connective behind them stands as deep as
they do, and a parenthesis behind them closes nothing in them.
-/

set_option autoImplicit false

namespace TabularModel

namespace Sql

/-! ## Terms of joined lexemes -/

theorem column?_of_ne {first second third : Lexeme} (different : second ≠ .mark ".") :
    column? first second third = none := by
  rw [column?, if_neg different]

/-- A lexeme without a point behind it is a term of its own. -/
theorem terms_cons (lexeme : Lexeme) {rest : List Lexeme}
    (apart : rest.head? ≠ some (.mark ".")) :
    terms (lexeme :: rest) = .lexeme lexeme :: terms rest := by
  match rest with
  | [] => rfl
  | [_] => rfl
  | second :: third :: rest =>
      rw [terms, column?_of_ne fun same => apart (congrArg some same)]

theorem terms_append {front back : List Lexeme} (ends : front.getLast? ≠ some (.mark "."))
    (begins : back.head? ≠ some (.mark ".")) :
    terms (front ++ back) = terms front ++ terms back := by
  fun_induction terms front with
  | case1 first second third rest column found ih =>
      have later : rest.getLast? ≠ some (.mark ".") := by
        cases rest with
        | nil => simp
        | cons next rest => simpa [List.getLast?_cons_cons] using ends
      rw [List.cons_append, List.cons_append, List.cons_append, terms, found, ih later]
      rfl
  | case2 first second third rest none ih =>
      rw [List.cons_append, List.cons_append, List.cons_append, terms, none,
        ← List.cons_append, ← List.cons_append, ih (by simpa [List.getLast?_cons_cons] using ends)]
      rfl
  | case3 short atMost =>
      match short with
      | [] => rfl
      | [first] => exact terms_cons first begins
      | [first, second] =>
          have different : second ≠ .mark "." := fun same => ends (by simp [same])
          rw [List.cons_append, List.cons_append, List.nil_append,
            terms_cons first (by simpa using different), terms_cons second begins]
          rfl
      | first :: second :: third :: rest => exact absurd rfl (atMost first second third rest)

/-! ## Phrases -/

def Piece.isPoint (piece : Piece) : Bool :=
  piece == .mark "."

theorem Piece.lexeme_ne_point {piece : Piece} (different : piece.isPoint = false) :
    piece.lexeme ≠ .mark "." := by
  cases piece with
  | fixed found =>
      rintro rfl
      exact absurd different (by decide)
  | identifier name =>
      intro same
      have kind := Lexeme.kind_ofName name
      rw [lexeme] at same
      rw [same] at kind
      cases kind
  | literal value =>
      cases value <;> exact fun same => nomatch same

/-- Pieces that no point joins to what is around them. -/
structure IsPhrase (pieces : List Piece) : Prop where
  begins : pieces.head?.any Piece.isPoint = false
  ends : pieces.getLast?.any Piece.isPoint = false

def termsOf (pieces : List Piece) : List Term :=
  terms (pieces.map Piece.lexeme)

section

variable {front back : List Piece}

theorem IsPhrase.append (first : IsPhrase front) (second : IsPhrase back) :
    IsPhrase (front ++ back) := by
  constructor
  · rw [List.head?_append]
    cases found : front.head? with
    | none => exact second.begins
    | some piece =>
        have begins := first.begins
        rwa [found] at begins
  · rw [List.getLast?_append]
    cases found : back.getLast? with
    | none => exact first.ends
    | some piece =>
        have ends := second.ends
        rwa [found] at ends

theorem termsOf_append (first : IsPhrase front) (second : IsPhrase back) :
    termsOf (front ++ back) = termsOf front ++ termsOf back := by
  have noPoint {found : Option Piece} (different : found.any Piece.isPoint = false) :
      found.map Piece.lexeme ≠ some (.mark ".") := by
    cases found with
    | none => simp
    | some piece => exact fun same => Piece.lexeme_ne_point different (Option.some.inj same)
  rw [termsOf, List.map_append]
  refine terms_append ?_ ?_
  · rw [List.getLast?_map]
    exact noPoint first.ends
  · rw [List.head?_map]
    exact noPoint second.begins

end

/-! ## Balanced terms -/

/-- Terms that stand in one part of a condition. -/
def IsNeutral (connective : Connective) (place : Place) (terms : List Term) : Prop :=
  ∀ rest, split connective place (terms ++ rest) =
    (split connective place rest).modifyHead (terms ++ ·)

theorem IsNeutral.append {connective : Connective} {place : Place} {front back : List Term}
    (first : IsNeutral connective place front) (second : IsNeutral connective place back) :
    IsNeutral connective place (front ++ back) := by
  intro rest
  rw [List.append_assoc, first, second, List.modifyHead_modifyHead]
  congr 1
  funext terms
  exact (List.append_assoc front back terms).symm

theorem isNeutral_nil (connective : Connective) (place : Place) :
    IsNeutral connective place [] := by
  intro rest
  rw [List.nil_append]
  cases split connective place rest <;> rfl

theorem isNeutral_single {connective : Connective} {place : Place} {term : Term}
    (same : place.after term = place)
    (whole : ¬ (place = .outer ∧ term.isKeyword (Connective.keyword connective) = true)) :
    IsNeutral connective place [term] := by
  intro rest
  rw [List.singleton_append, split, same, if_neg whole]
  rfl

/-- Terms whose parentheses are closed among them. -/
structure IsBalanced (terms : List Term) : Prop where
  neutral : ∀ connective depth isBetween, IsNeutral connective ⟨depth + 1, isBetween⟩ terms
  closed : ∀ depth rest, closed? depth (terms ++ rest) =
    (closed? depth rest).map fun (inside, back) => (terms ++ inside, back)

/-- Balanced terms without connectives outside of parentheses. -/
structure IsClosed (terms : List Term) : Prop extends IsBalanced terms where
  outer : ∀ connective, IsNeutral connective .outer terms

def Term.isParenthesis (term : Term) : Bool :=
  term == .opening || term == .closing

/-- Words that join or delimit tests. -/
def Term.isPlain (term : Term) : Bool :=
  !term.isParenthesis && !term.isKeyword "AND" && !term.isKeyword "OR" && !term.isKeyword "BETWEEN"

section

variable {terms front back : List Term} {term : Term}

theorem IsBalanced.append (first : IsBalanced front) (second : IsBalanced back) :
    IsBalanced (front ++ back) := by
  refine ⟨fun connective depth isBetween =>
    (first.neutral connective depth isBetween).append (second.neutral connective depth isBetween),
    fun depth rest => ?_⟩
  rw [List.append_assoc, first.closed, second.closed, Option.map_map]
  simp [Function.comp_def]

theorem isBalanced_nil : IsBalanced [] :=
  ⟨fun connective depth isBetween => isNeutral_nil connective _, fun depth rest => by simp⟩

theorem depthAfter_of_not_isParenthesis (depth : Nat) (plain : term.isParenthesis = false) :
    depthAfter depth term = depth := by
  rw [Term.isParenthesis, Bool.or_eq_false_iff] at plain
  rw [depthAfter, if_neg (ne_of_beq_false plain.1), if_neg (ne_of_beq_false plain.2)]

theorem isBalanced_single (plain : term.isParenthesis = false) : IsBalanced [term] := by
  refine ⟨fun connective depth isBetween => isNeutral_single ?_ ?_, fun depth rest => ?_⟩
  · rw [Place.after, depthAfter_of_not_isParenthesis _ plain, if_neg (Nat.succ_ne_zero depth)]
  · rintro ⟨same, -⟩
    cases same
  · have notClosing : ¬ (depth = 0 ∧ term = .closing) := by
      rintro ⟨-, rfl⟩
      cases plain
    rw [List.singleton_append, closed?, if_neg notClosing, depthAfter_of_not_isParenthesis _ plain]
    rfl

theorem isBalanced_of_forall (plain : ∀ term ∈ terms, term.isParenthesis = false) :
    IsBalanced terms := by
  induction terms with
  | nil => exact isBalanced_nil
  | cons term terms ih =>
      exact (isBalanced_single (plain term List.mem_cons_self)).append
        (ih fun other member => plain other (List.mem_cons_of_mem term member))

theorem IsClosed.append (first : IsClosed front) (second : IsClosed back) :
    IsClosed (front ++ back) :=
  ⟨first.toIsBalanced.append second.toIsBalanced,
    fun connective => (first.outer connective).append (second.outer connective)⟩

theorem isClosed_single (plain : term.isPlain = true) : IsClosed [term] := by
  simp only [Term.isPlain, Bool.and_eq_true, Bool.not_eq_true'] at plain
  obtain ⟨⟨⟨noParenthesis, noAnd⟩, noOr⟩, noBetween⟩ := plain
  refine ⟨isBalanced_single noParenthesis, fun connective => isNeutral_single ?_ ?_⟩
  · rw [Place.after, depthAfter_of_not_isParenthesis _ noParenthesis, noBetween]
    rfl
  · rintro ⟨-, isKeyword⟩
    cases connective with
    | and => exact Bool.noConfusion (noAnd.symm.trans isKeyword)
    | or => exact Bool.noConfusion (noOr.symm.trans isKeyword)

theorem enclosed_append (terms rest : List Term) :
    Term.opening :: terms ++ [Term.closing] ++ rest =
      Term.opening :: (terms ++ Term.closing :: rest) := by
  simp

/-- Parentheses around balanced terms. -/
theorem isNeutral_enclosed {connective : Connective} {depth : Nat} {isBetween : Bool}
    (inner : IsBalanced terms) :
    IsNeutral connective ⟨depth, isBetween⟩ (Term.opening :: terms ++ [Term.closing]) := by
  intro rest
  have opened : Place.after ⟨depth, isBetween⟩ .opening = ⟨depth + 1, isBetween⟩ := by
    cases depth <;> simp [Place.after, depthAfter, Term.isKeyword, Term.opening]
  have again : Place.after ⟨depth + 1, isBetween⟩ .closing = ⟨depth, isBetween⟩ := by
    simp [Place.after, depthAfter, Term.opening, Term.closing]
  have noKeyword (term : Term) (parenthesis : term.isParenthesis = true) (place : Place) :
      ¬ (place = .outer ∧ term.isKeyword (Connective.keyword connective) = true) := by
    rintro ⟨-, isKeyword⟩
    rw [Term.isParenthesis, Bool.or_eq_true] at parenthesis
    rcases parenthesis with same | same <;> rw [eq_of_beq same] at isKeyword <;> cases isKeyword
  rw [enclosed_append, split, if_neg (noKeyword _ rfl _), opened, inner.neutral, split,
    if_neg (noKeyword _ rfl _), again, List.modifyHead_modifyHead, List.modifyHead_modifyHead]
  congr 1
  funext part
  simp

theorem closed?_enclosed (inner : IsBalanced terms) (rest : List Term) :
    closed? 0 (terms ++ .closing :: rest) = some (terms, rest) := by
  rw [inner.closed, closed?, if_pos ⟨rfl, rfl⟩]
  simp

theorem enclosed?_enclosed (inner : IsBalanced terms) :
    enclosed? (Term.opening :: terms ++ [Term.closing]) = some terms := by
  rw [List.cons_append, enclosed?, if_pos rfl, closed?_enclosed inner]

theorem isClosed_enclosed (inner : IsBalanced terms) :
    IsClosed (Term.opening :: terms ++ [Term.closing]) := by
  refine ⟨⟨fun connective depth isBetween => isNeutral_enclosed inner, fun depth rest => ?_⟩,
    fun connective => isNeutral_enclosed inner⟩
  have opened : depthAfter depth .opening = depth + 1 := by simp [depthAfter]
  have back : depthAfter (depth + 1) .closing = depth := by
    simp [depthAfter, Term.opening, Term.closing]
  have notClosing : ¬ (depth = 0 ∧ Term.opening = .closing) := by simp [Term.opening, Term.closing]
  rw [enclosed_append, closed?, if_neg notClosing, opened, inner.closed, closed?,
    if_neg (by simp), back, Option.map_map, Option.map_map]
  simp [Function.comp_def]

end

/-! ## Phrases that are balanced -/

structure IsBalancedPhrase (pieces : List Piece) : Prop where
  phrase : IsPhrase pieces
  balanced : IsBalanced (termsOf pieces)

structure IsClosedPhrase (pieces : List Piece) : Prop where
  phrase : IsPhrase pieces
  closed : IsClosed (termsOf pieces)

/-- A term that can only begin a test. -/
def Term.beginsTest (term : Term) : Bool :=
  term != .opening && !term.isKeyword "NOT" && !term.isKeyword "EXISTS"

structure IsTestPhrase (pieces : List Piece) : Prop extends IsClosedPhrase pieces where
  begins : (termsOf pieces).head?.any Term.beginsTest = true

section

variable {pieces front back : List Piece}

theorem IsClosedPhrase.toBalanced (closed : IsClosedPhrase pieces) : IsBalancedPhrase pieces :=
  ⟨closed.phrase, closed.closed.toIsBalanced⟩

theorem IsBalancedPhrase.append (first : IsBalancedPhrase front) (second : IsBalancedPhrase back) :
    IsBalancedPhrase (front ++ back) := by
  refine ⟨first.phrase.append second.phrase, ?_⟩
  rw [termsOf_append first.phrase second.phrase]
  exact first.balanced.append second.balanced

theorem IsClosedPhrase.append (first : IsClosedPhrase front) (second : IsClosedPhrase back) :
    IsClosedPhrase (front ++ back) := by
  refine ⟨first.phrase.append second.phrase, ?_⟩
  rw [termsOf_append first.phrase second.phrase]
  exact first.closed.append second.closed

theorem IsTestPhrase.append (first : IsTestPhrase front) (second : IsClosedPhrase back) :
    IsTestPhrase (front ++ back) := by
  refine ⟨first.toIsClosedPhrase.append second, ?_⟩
  have begins := first.begins
  rw [termsOf_append first.phrase second.phrase, List.head?_append]
  cases found : (termsOf front).head? with
  | none =>
      rw [found] at begins
      cases begins
  | some term => rwa [found] at begins

theorem isBalancedPhrase_single {piece : Piece} (apart : piece.isPoint = false)
    (plain : (Term.lexeme piece.lexeme).isParenthesis = false) : IsBalancedPhrase [piece] :=
  ⟨⟨apart, apart⟩, isBalanced_single plain⟩

theorem isClosedPhrase_single {piece : Piece} (apart : piece.isPoint = false)
    (plain : (Term.lexeme piece.lexeme).isPlain = true) : IsClosedPhrase [piece] :=
  ⟨⟨apart, apart⟩, isClosed_single plain⟩

theorem isBalancedPhrase_nil : IsBalancedPhrase [] :=
  ⟨⟨rfl, rfl⟩, isBalanced_nil⟩

theorem isClosedPhrase_nil : IsClosedPhrase [] :=
  ⟨⟨rfl, rfl⟩, isBalanced_nil, fun connective => isNeutral_nil connective _⟩

theorem isClosedPhrase_literal (value : Literal) : IsClosedPhrase [.literal value] := by
  refine isClosedPhrase_single ?_ ?_ <;> cases value <;> rfl

theorem isBalancedPhrase_identifier (name : Text) : IsBalancedPhrase [.identifier name] := by
  refine isBalancedPhrase_single rfl ?_
  rw [Piece.lexeme, Lexeme.ofName]
  split <;> rfl

theorem isClosedPhrase_number (n : Int) : IsClosedPhrase [.number n] :=
  isClosedPhrase_single rfl rfl

theorem termsOf_enclosed (phrase : IsPhrase pieces) :
    termsOf ([Piece.mark "("] ++ pieces ++ [Piece.mark ")"]) =
      Term.opening :: termsOf pieces ++ [.closing] := by
  rw [termsOf_append (IsPhrase.append ⟨rfl, rfl⟩ phrase) ⟨rfl, rfl⟩,
    termsOf_append ⟨rfl, rfl⟩ phrase]
  rfl

theorem isClosedPhrase_enclosed (inner : IsBalancedPhrase pieces) :
    IsClosedPhrase ([Piece.mark "("] ++ pieces ++ [Piece.mark ")"]) := by
  refine ⟨(IsPhrase.append ⟨rfl, rfl⟩ inner.phrase).append ⟨rfl, rfl⟩, ?_⟩
  rw [termsOf_enclosed inner.phrase]
  exact isClosed_enclosed inner.balanced

/-- What is kept when lists are appended is kept when they are joined. -/
theorem intercalate_of_append {α : Type} {holds : List α -> Prop} (empty : holds [])
    (append : ∀ {left right}, holds left -> holds right -> holds (left ++ right))
    {between : List α} (joint : holds between) {parts : List (List α)}
    (each : ∀ part ∈ parts, holds part) : holds (between.intercalate parts) := by
  induction parts with
  | nil => exact empty
  | cons part parts ih =>
      have first := each part List.mem_cons_self
      have others := ih fun other member => each other (List.mem_cons_of_mem part member)
      cases parts with
      | nil => simpa [List.intercalate] using first
      | cons next parts =>
          rw [List.intercalate_cons_cons]
          exact append (append first joint) others

theorem mapM_map_of_forall {α β γ : Type} {use : β -> Option γ} {part : α -> β} {result : α -> γ}
    {items : List α} (each : ∀ item ∈ items, use (part item) = some (result item)) :
    (items.map part).mapM use = some (items.map result) := by
  induction items with
  | nil => rfl
  | cons item items ih =>
      rw [List.map_cons, List.mapM_cons, each item List.mem_cons_self,
        ih fun other member => each other (List.mem_cons_of_mem item member)]
      rfl

theorem isBalancedPhrase_intercalate {between : List Piece} (balanced : IsBalancedPhrase between)
    {parts : List (List Piece)} (each : ∀ part ∈ parts, IsBalancedPhrase part) :
    IsBalancedPhrase (between.intercalate parts) :=
  intercalate_of_append isBalancedPhrase_nil IsBalancedPhrase.append balanced each

/-- A call of a function, with its arguments in parentheses. -/
theorem isTestPhrase_call (name : Text) (plain : (Term.lexeme (.word name)).isPlain = true)
    (begins : (Term.lexeme (.word name)).beginsTest = true) (inner : IsBalancedPhrase pieces) :
    IsTestPhrase ([Piece.word name, Piece.mark "("] ++ pieces ++ [Piece.mark ")"]) := by
  have front : IsTestPhrase [.word name] :=
    ⟨isClosedPhrase_single rfl plain, by rw [termsOf, List.map_singleton]; exact begins⟩
  exact front.append (isClosedPhrase_enclosed inner)

end

end Sql

end TabularModel
