import TabularModel.Proofs.Sql.Balance

/-!
# Tests among connectives

A test is written without connectives outside of parentheses, apart from the `AND` of a
`BETWEEN`, which belongs to it. It begins like no parenthesis, negation or subquery.
-/

set_option autoImplicit false

namespace TabularModel

namespace Sql

/-! ## Expressions -/

theorem termsOf_columnPieces (tableAlias name : Text) :
    termsOf (columnPieces tableAlias name) = [.column tableAlias name] := by
  have column : column? (.ofName tableAlias) (.mark ".") (.ofName name) =
      some (.column tableAlias name) := by
    rw [column?, if_pos rfl, Lexeme.name?_ofName, Lexeme.name?_ofName]
    rfl
  have shape : (columnPieces tableAlias name).map Piece.lexeme =
      [.ofName tableAlias, .mark ".", .ofName name] := rfl
  rw [termsOf, shape, terms, column]
  rfl

theorem isTestPhrase_column (tableAlias name : Text) :
    IsTestPhrase (columnPieces tableAlias name) := by
  refine ⟨⟨⟨rfl, rfl⟩, ?_⟩, ?_⟩ <;> rw [termsOf_columnPieces]
  · exact isClosed_single rfl
  · rfl

/-- A term that is an operand, or the name of a function in front of its arguments. -/
def Term.isOperand (term : Term) : Bool :=
  term.isPlain && term.beginsTest && term != .lexeme (.mark ",") && !term.isKeyword "AS" &&
    !term.isKeyword "FROM"

/-- What an expression is written as: a column, one lexeme, or a call of a function. -/
inductive IsOperand : List Piece -> Prop where
  | column (tableAlias name : Text) : IsOperand (columnPieces tableAlias name)
  | single {piece : Piece} (apart : piece.isPoint = false)
      (operand : (Term.lexeme piece.lexeme).isOperand = true) : IsOperand [piece]
  | call (name : Text) (operand : (Term.lexeme (.word name)).isOperand = true)
      {inner : List Piece} (balanced : IsBalancedPhrase inner) :
      IsOperand ([Piece.word name, Piece.mark "("] ++ inner ++ [Piece.mark ")"])

theorem Term.isPlain_of_isOperand {term : Term} (operand : term.isOperand = true) :
    term.isPlain = true ∧ term.beginsTest = true := by
  simp only [Term.isOperand, Bool.and_eq_true] at operand
  exact operand.1.1.1

theorem IsOperand.isTestPhrase {pieces : List Piece} (operand : IsOperand pieces) :
    IsTestPhrase pieces := by
  cases operand with
  | column tableAlias name => exact isTestPhrase_column tableAlias name
  | @single piece apart operand =>
      obtain ⟨plain, begins⟩ := Term.isPlain_of_isOperand operand
      exact ⟨isClosedPhrase_single apart plain, by rwa [termsOf, List.map_singleton]⟩
  | call name operand balanced =>
      obtain ⟨plain, begins⟩ := Term.isPlain_of_isOperand operand
      exact isTestPhrase_call name plain begins balanced

theorem Expression.IsSound.isOperand {expression : Expression} (sound : expression.IsSound) :
    IsOperand expression.pieces := by
  have comma : IsBalancedPhrase [.mark ","] := isBalancedPhrase_single rfl rfl
  have part (part : DatePart) : IsBalancedPhrase [.word part.name] :=
    isBalancedPhrase_single rfl rfl
  have number (n : Int) : IsBalancedPhrase [.number n] := (isClosedPhrase_number n).toBalanced
  have inside {pieces : List Piece} (operand : IsOperand pieces) : IsBalancedPhrase pieces :=
    operand.isTestPhrase.toBalanced
  induction sound with
  | column tableAlias name => exact .column tableAlias name
  | @literal value sound => cases value <;> exact .single rfl rfl
  | currentUser => exact .single rfl (by decide)
  | utcNow => exact .call _ (by decide) isBalancedPhrase_nil
  | dateAdd unit count _ ih =>
      have arguments := ((((part unit).append comma).append (number count)).append comma).append
        (inside ih)
      have call := IsOperand.call "DATEADD" (by decide) arguments
      simpa only [Expression.pieces, List.append_assoc] using call
  | startOf unit _ ih =>
      have difference := IsOperand.call "DATEDIFF" (by decide)
        (((((part unit).append comma).append (number 0)).append comma).append (inside ih))
      have arguments := ((((part unit).append comma).append (inside difference)).append
        comma).append (number 0)
      have call := IsOperand.call "DATEADD" (by decide) arguments
      simpa [Expression.pieces] using call
  | partOf unit _ ih =>
      have call := IsOperand.call "DATEPART" (by decide)
        (((part unit).append comma).append (inside ih))
      simpa only [Expression.pieces, List.append_assoc] using call
  | monthOf _ ih => exact .call _ (by decide) (inside ih)
  | yearOf _ ih => exact .call _ (by decide) (inside ih)
  | asDate _ ih =>
      have date : IsBalancedPhrase [.word "AS", .word "DATE"] :=
        (isBalancedPhrase_single rfl rfl).append (isBalancedPhrase_single rfl rfl)
      have call := IsOperand.call "CAST" (by decide) ((inside ih).append date)
      simpa [Expression.pieces] using call

theorem Expression.IsSound.isTestPhrase {expression : Expression} (sound : expression.IsSound) :
    IsTestPhrase expression.pieces :=
  sound.isOperand.isTestPhrase

/-! ## Predicates -/

theorem isClosedPhrase_negation (negated : Bool) : IsClosedPhrase (negationPieces negated) := by
  cases negated with
  | false => exact isClosedPhrase_nil
  | true => exact isClosedPhrase_single rfl (by decide)

/-- The `AND` of a `BETWEEN` belongs to the test. -/
theorem isClosed_range {low high : Term} (lowPlain : low.isPlain = true)
    (highPlain : high.isPlain = true) :
    IsClosed ([.lexeme (.word "BETWEEN"), low, .lexeme (.word "AND")] ++ [high]) := by
  have low' := lowPlain
  simp only [Term.isPlain, Bool.and_eq_true, Bool.not_eq_true'] at low'
  obtain ⟨⟨⟨noParenthesis, noAnd⟩, -⟩, noBetween⟩ := low'
  have balanced : IsBalanced [.lexeme (.word "BETWEEN"), low, .lexeme (.word "AND")] := by
    refine isBalanced_of_forall fun term member => ?_
    simp only [List.mem_cons, List.not_mem_nil, or_false] at member
    rcases member with rfl | rfl | rfl
    · rfl
    · exact noParenthesis
    · rfl
  have front (connective : Connective) :
      IsNeutral connective .outer [.lexeme (.word "BETWEEN"), low, .lexeme (.word "AND")] := by
    intro rest
    have opened : Place.outer.after (.lexeme (.word "BETWEEN")) = ⟨0, true⟩ := by decide
    have kept : Place.after ⟨0, true⟩ low = ⟨0, true⟩ := by
      rw [Place.after, depthAfter_of_not_isParenthesis _ noParenthesis, if_pos rfl, noBetween,
        noAnd]
      rfl
    have finished : Place.after ⟨0, true⟩ (.lexeme (.word "AND")) = .outer := by decide
    have atBetween : ¬ (Place.outer = .outer ∧
        (Term.lexeme (.word "BETWEEN")).isKeyword (Connective.keyword connective) = true) := by
      cases connective <;> decide
    have inside (term : Term) :
        ¬ (Place.mk 0 true = .outer ∧ term.isKeyword (Connective.keyword connective) = true) := by
      rintro ⟨same, -⟩
      cases same
    rw [List.cons_append, List.cons_append, List.singleton_append, split, if_neg atBetween, opened,
      split, if_neg (inside low), kept, split, if_neg (inside _), finished,
      List.modifyHead_modifyHead, List.modifyHead_modifyHead]
    rfl
  exact (IsClosed.mk balanced front).append (isClosed_single highPlain)

theorem isClosedPhrase_range (low high : Literal) :
    IsClosedPhrase [.word "BETWEEN", .literal low, .word "AND", .literal high] := by
  have plain (value : Literal) : (Term.lexeme (Piece.literal value).lexeme).isPlain = true := by
    cases value <;> rfl
  have shape : termsOf [.word "BETWEEN", .literal low, .word "AND", .literal high] =
      [.lexeme (.word "BETWEEN"), .lexeme (Piece.literal low).lexeme, .lexeme (.word "AND"),
        .lexeme (Piece.literal high).lexeme] := by
    cases low <;> rfl
  refine ⟨⟨rfl, ?_⟩, ?_⟩
  · cases high <;> rfl
  · rw [shape]
    exact isClosed_range (plain low) (plain high)

theorem isClosedPhrase_teams : IsClosedPhrase teamPieces := by
  have phrase : IsBalancedPhrase
      [.word "SELECT", .word "tm", .mark ".", .word "teamid", .word "FROM", .word "teammembership",
        .word "AS", .word "tm", .word "WHERE", .word "tm", .mark ".", .word "systemuserid",
        .mark "=", .word "CURRENT_USER"] :=
    ⟨⟨rfl, rfl⟩, isBalanced_of_forall (by decide)⟩
  have keyword : IsClosedPhrase [.word "IN"] := isClosedPhrase_single rfl (by decide)
  exact keyword.append (isClosedPhrase_enclosed phrase)

section

variable {tested : Expression} (sound : tested.IsSound) (negated : Bool)
include sound

theorem isTestPhrase_negated :
    IsTestPhrase (tested.pieces ++ negationPieces negated) :=
  sound.isTestPhrase.append (isClosedPhrase_negation negated)

theorem isTestPhrase_isNull : IsTestPhrase (Predicate.isNull negated tested).pieces := by
  have isWord : IsClosedPhrase [.word "IS"] := isClosedPhrase_single rfl (by decide)
  have null : IsClosedPhrase [.word "NULL"] := isClosedPhrase_single rfl (by decide)
  rw [Predicate.pieces]
  exact ((sound.isTestPhrase.append isWord).append (isClosedPhrase_negation negated)).append null

theorem isTestPhrase_like (pattern : Text) :
    IsTestPhrase (Predicate.like negated tested pattern).pieces := by
  have like : IsClosedPhrase [.word "LIKE"] := isClosedPhrase_single rfl (by decide)
  rw [Predicate.pieces]
  exact ((isTestPhrase_negated sound negated).append like).append (isClosedPhrase_literal _)

theorem isTestPhrase_isIn (values : List Literal) :
    IsTestPhrase (Predicate.isIn negated tested values).pieces := by
  have comma : IsBalancedPhrase [.mark ","] := isBalancedPhrase_single rfl rfl
  have keyword : IsClosedPhrase [.word "IN"] := isClosedPhrase_single rfl (by decide)
  have listed : IsBalancedPhrase
      ([.mark ","].intercalate (values.map fun value => [.literal value])) := by
    refine isBalancedPhrase_intercalate comma fun part member => ?_
    obtain ⟨value, -, rfl⟩ := List.mem_map.mp member
    exact (isClosedPhrase_literal value).toBalanced
  have whole := (isTestPhrase_negated sound negated).append
    (keyword.append (isClosedPhrase_enclosed listed))
  simpa [Predicate.pieces] using whole

theorem isTestPhrase_between (low high : Literal) :
    IsTestPhrase (Predicate.between negated tested low high).pieces := by
  have whole := (isTestPhrase_negated sound negated).append (isClosedPhrase_range low high)
  simpa [Predicate.pieces] using whole

theorem isTestPhrase_inUserTeams :
    IsTestPhrase (Predicate.inUserTeams negated tested).pieces := by
  rw [Predicate.pieces]
  exact (isTestPhrase_negated sound negated).append isClosedPhrase_teams

end

theorem isTestPhrase_compare (comparison : Comparison) {left right : Expression}
    (leftSound : left.IsSound) (rightSound : right.IsSound) :
    IsTestPhrase (Predicate.compare comparison left right).pieces := by
  have symbol : IsClosedPhrase [comparison.piece] := by
    cases comparison <;> exact isClosedPhrase_single rfl (by decide)
  rw [Predicate.pieces]
  exact (leftSound.isTestPhrase.append symbol).append rightSound.isTestPhrase.toIsClosedPhrase

end Sql

end TabularModel
