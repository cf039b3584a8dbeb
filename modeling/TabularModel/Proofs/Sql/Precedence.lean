import TabularModel.Proofs.Sql.Mentions
import TabularModel.Proofs.Sql.Tests

/-!
# Reading predicates back

A predicate is written without any more parentheses than it has, and is read as the
expression that it stands for. Its parentheses are balanced, so that what is in them
joins nothing around it, and only junctions have connectives outside of parentheses.
-/

set_option autoImplicit false

namespace TabularModel

namespace Sql

/-! ## Factors and expressions -/

/-- Pieces that are read as an expression wherever they stand beside a connective. -/
structure IsFactor (pieces : List Piece) (logic : Logic) : Prop where
  phrase : IsClosedPhrase pieces
  read : ∀ depth, (termsOf pieces).length ≤ depth →
    factor? (logicWithin? depth) (termsOf pieces) = some logic

/-- Pieces that are read as an expression on their own or in parentheses. -/
structure IsRead (pieces : List Piece) (logic : Logic) : Prop where
  phrase : IsBalancedPhrase pieces
  read : ∀ depth, (termsOf pieces).length < depth → logicWithin? depth (termsOf pieces) = some logic

theorem isFactor_of_isTestPhrase {pieces : List Piece} (test : IsTestPhrase pieces) :
    IsFactor pieces (.test (termsOf pieces)) := by
  refine ⟨test.toIsClosedPhrase, fun depth _ => ?_⟩
  have begins := test.begins
  cases found : termsOf pieces with
  | nil =>
      rw [found] at begins
      cases begins
  | cons first rest =>
      rw [found, List.head?_cons, Option.any_some, Term.beginsTest, Bool.and_eq_true,
        Bool.and_eq_true, Bool.not_eq_true', Bool.not_eq_true', bne_iff_ne] at begins
      obtain ⟨⟨notOpening, notNegation⟩, notExistence⟩ := begins
      rw [factor?, notNegation, notExistence, enclosed?, if_neg notOpening]
      rfl

section

variable {connective : Connective}

/-- Without connectives there is one part. -/
theorem split_eq_singleton {terms : List Term} (neutral : IsNeutral connective .outer terms) :
    split connective .outer terms = [terms] := by
  have whole := neutral []
  rwa [split, List.append_nil, List.modifyHead_cons, List.append_nil] at whole

def connectiveTerm (connective : Connective) : Term :=
  .lexeme (connectivePiece connective).lexeme

theorem split_intercalate {parts : List (List Term)} (nonempty : parts ≠ [])
    (each : ∀ part ∈ parts, IsNeutral connective .outer part) :
    split connective .outer ([connectiveTerm connective].intercalate parts) = parts := by
  have between : Place.outer = .outer ∧
      (connectiveTerm connective).isKeyword (Connective.keyword connective) = true := by
    cases connective <;> decide
  have after : Place.outer.after (connectiveTerm connective) = .outer := by
    cases connective <;> decide
  induction parts with
  | nil => exact absurd rfl nonempty
  | cons part parts ih =>
      have first := each part List.mem_cons_self
      cases parts with
      | nil => simpa [List.intercalate] using split_eq_singleton first
      | cons next parts =>
          have others := ih (List.cons_ne_nil next parts)
            fun other member => each other (List.mem_cons_of_mem part member)
          rw [List.intercalate_cons_cons, List.append_assoc, first, List.singleton_append, split,
            if_pos between, after, others, List.modifyHead_cons, List.append_nil]

/-- `AND` does not end a part of a disjunction. -/
theorem isNeutral_conjunction {parts : List (List Term)}
    (each : ∀ part ∈ parts, IsNeutral .or .outer part) :
    IsNeutral .or .outer ([connectiveTerm .and].intercalate parts) := by
  have and : IsNeutral .or .outer [connectiveTerm .and] := isNeutral_single (by decide) (by decide)
  exact intercalate_of_append (isNeutral_nil .or .outer) IsNeutral.append and each

theorem termsOf_intercalate (connective : Connective) {parts : List (List Piece)}
    (each : ∀ part ∈ parts, IsPhrase part) :
    IsPhrase ([connectivePiece connective].intercalate parts) ∧
      termsOf ([connectivePiece connective].intercalate parts) =
        [connectiveTerm connective].intercalate (parts.map termsOf) := by
  have between : IsPhrase [connectivePiece connective] := by
    cases connective <;> exact ⟨rfl, rfl⟩
  induction parts with
  | nil => exact ⟨⟨rfl, rfl⟩, rfl⟩
  | cons part parts ih =>
      have first := each part List.mem_cons_self
      have others := ih fun other member => each other (List.mem_cons_of_mem part member)
      obtain ⟨phrase, joined⟩ := others
      cases parts with
      | nil => simpa [List.intercalate] using first
      | cons next parts =>
          rw [List.map_cons, List.map_cons, List.intercalate_cons_cons, List.intercalate_cons_cons,
            ← List.map_cons, ← joined]
          refine ⟨(first.append between).append phrase, ?_⟩
          rw [termsOf_append (first.append between) phrase, termsOf_append first between]
          rfl

end

/-- One factor is a whole expression. -/
theorem conjunction?_of_isFactor {pieces : List Piece} {logic : Logic}
    (factor : IsFactor pieces logic) {depth : Nat} (enough : (termsOf pieces).length ≤ depth) :
    conjunction? (logicWithin? depth) (termsOf pieces) = some logic := by
  rw [conjunction?, split_eq_singleton (factor.phrase.closed.outer .and), List.mapM_cons,
    factor.read depth enough]
  rfl

theorem isRead_of_isFactor {pieces : List Piece} {logic : Logic} (factor : IsFactor pieces logic) :
    IsRead pieces logic := by
  refine ⟨factor.phrase.toBalanced, fun depth enough => ?_⟩
  obtain ⟨depth, rfl⟩ := Nat.exists_eq_add_of_lt enough
  rw [logicWithin?, disjunction?, split_eq_singleton (factor.phrase.closed.outer .or),
    List.mapM_cons, conjunction?_of_isFactor factor (by omega)]
  rfl

theorem length_le_of_mem (between : List Term) {part : List Term} {parts : List (List Term)}
    (member : part ∈ parts) : part.length ≤ (between.intercalate parts).length := by
  induction parts with
  | nil => cases member
  | cons first parts ih =>
      cases parts with
      | nil =>
          rw [List.mem_singleton.mp member]
          simp [List.intercalate]
      | cons next parts =>
          rw [List.intercalate_cons_cons, List.length_append, List.length_append]
          rcases List.mem_cons.mp member with rfl | later
          · omega
          · have inside := ih later
            omega

section Junctions

variable (connective : Connective) {parts : List Predicate}
variable (each : ∀ part ∈ parts, IsFactor part.pieces part.logic)
include each

theorem termsOf_junction : termsOf (Predicate.junction connective parts).pieces =
    [connectiveTerm connective].intercalate (parts.map fun part => termsOf part.pieces) := by
  have phrases : ∀ part ∈ parts.map Predicate.pieces, IsPhrase part := by
    intro part member
    obtain ⟨own, inside, rfl⟩ := List.mem_map.mp member
    exact (each own inside).phrase.phrase
  rw [Predicate.pieces, Predicate.piecesEach_eq_map, (termsOf_intercalate connective phrases).2,
    List.map_map]
  rfl

theorem isNeutral_parts :
    ∀ part ∈ parts.map fun part => termsOf part.pieces, IsNeutral connective .outer part := by
  intro part member
  obtain ⟨own, inside, rfl⟩ := List.mem_map.mp member
  exact (each own inside).phrase.closed.outer connective

theorem isBalancedPhrase_junction :
    IsBalancedPhrase (Predicate.junction connective parts).pieces := by
  have between : IsBalancedPhrase [connectivePiece connective] := by
    cases connective <;> exact isBalancedPhrase_single rfl rfl
  rw [Predicate.pieces, Predicate.piecesEach_eq_map]
  refine isBalancedPhrase_intercalate between fun part member => ?_
  obtain ⟨own, inside, rfl⟩ := List.mem_map.mp member
  exact (each own inside).phrase.toBalanced

/-- Factors with connectives between them. -/
theorem isRead_junction (nonempty : parts ≠ []) :
    IsRead (Predicate.junction connective parts).pieces
      (Predicate.junction connective parts).logic := by
  refine ⟨isBalancedPhrase_junction connective each, fun depth enough => ?_⟩
  rw [termsOf_junction connective each] at enough ⊢
  obtain ⟨depth, rfl⟩ := Nat.exists_eq_add_of_lt enough
  have short (part : Predicate) (member : part ∈ parts) :=
    have inside : termsOf part.pieces ∈ parts.map fun part => termsOf part.pieces :=
      List.mem_map_of_mem member
    (length_le_of_mem [connectiveTerm connective] inside).trans (Nat.le_add_right _ depth)
  have several : (parts.map fun part => termsOf part.pieces) ≠ [] := by simpa using nonempty
  rw [Predicate.logic, Predicate.logicEach_eq_map, logicWithin?, disjunction?]
  cases connective with
  | and =>
      -- The whole conjunction is the only part of a disjunction.
      have factors := mapM_map_of_forall fun part member =>
        (each part member).read _ (short part member)
      rw [split_eq_singleton (isNeutral_conjunction (isNeutral_parts .or each)), List.mapM_cons,
        conjunction?, split_intercalate several (isNeutral_parts .and each), factors]
      rfl
  | or =>
      -- Each part is a conjunction of one factor.
      have conjunctions := mapM_map_of_forall fun part member =>
        conjunction?_of_isFactor (each part member) (short part member)
      rw [split_intercalate several (isNeutral_parts .or each), conjunctions]
      rfl

end Junctions

/-! ## Parentheses and subqueries -/

theorem isFactor_grouped {pieces : List Piece} {logic : Logic} (inner : IsRead pieces logic) :
    IsFactor ([Piece.mark "("] ++ pieces ++ [Piece.mark ")"]) logic := by
  refine ⟨isClosedPhrase_enclosed inner.phrase, fun depth enough => ?_⟩
  rw [termsOf_enclosed inner.phrase.phrase] at enough ⊢
  have enclosed := enclosed?_enclosed inner.phrase.balanced
  have shorter : (termsOf pieces).length < depth := by
    simp only [List.cons_append, List.length_cons, List.length_append, List.length_nil] at enough
    omega
  rw [List.cons_append] at enclosed ⊢
  rw [factor?, enclosed]
  exact inner.read depth shorter

/-- The pieces of a subquery in front of its condition. -/
def Join.sourcePieces (join : Join) : List Piece :=
  [.word "SELECT", .number 1, .word "FROM", .identifier join.table, .word "AS",
    .identifier join.tableAlias, .word "WHERE"]

theorem Join.pieces_eq (join : Join) :
    join.pieces = join.sourcePieces ++ join.condition.pieces := by
  simp [pieces, sourcePieces, condition, Predicate.pieces, Expression.pieces, Comparison.piece,
    Comparison.symbol]

theorem termsOf_of_forall {pieces : List Piece} (apart : ∀ piece ∈ pieces, piece.isPoint = false) :
    termsOf pieces = pieces.map fun piece => .lexeme piece.lexeme := by
  induction pieces with
  | nil => rfl
  | cons piece pieces ih =>
      have others := ih fun other member => apart other (List.mem_cons_of_mem piece member)
      have next : (pieces.map Piece.lexeme).head? ≠ some (.mark ".") := by
        cases pieces with
        | nil => exact fun same => nomatch same
        | cons second pieces =>
            have different := apart second (List.mem_cons_of_mem piece List.mem_cons_self)
            exact fun same => Piece.lexeme_ne_point different (Option.some.inj same)
      rw [termsOf, List.map_cons, List.map_cons, terms_cons _ next, ← others]
      rfl

theorem Join.isBalancedPhrase_sourcePieces (join : Join) : IsBalancedPhrase join.sourcePieces := by
  have word (name : Text) : IsBalancedPhrase [.word name] := isBalancedPhrase_single rfl rfl
  have number : IsBalancedPhrase [.number 1] := isBalancedPhrase_single rfl rfl
  have table := isBalancedPhrase_identifier join.table
  have tableAlias := isBalancedPhrase_identifier join.tableAlias
  exact (word _).append (number.append ((word _).append (table.append ((word _).append
    (tableAlias.append (word _))))))

theorem existence?_source (inner? : List Term -> Option Logic) (join : Join)
    (condition : List Term) :
    existence? inner? (termsOf join.sourcePieces ++ condition) =
      (inner? condition).map (.existence join.table join.tableAlias) := by
  have apart : join.sourcePieces.any Piece.isPoint = false := rfl
  have shape : termsOf join.sourcePieces =
      join.sourcePieces.map fun piece => .lexeme piece.lexeme :=
    termsOf_of_forall fun piece member =>
      Bool.eq_false_iff.mpr (List.any_eq_false.mp apart piece member)
  have keywords : (Term.lexeme (.word "SELECT")).isKeyword "SELECT" = true ∧
      (Term.lexeme (.word "FROM")).isKeyword "FROM" = true ∧
      (Term.lexeme (.word "AS")).isKeyword "AS" = true ∧
      (Term.lexeme (.word "WHERE")).isKeyword "WHERE" = true := by decide
  obtain ⟨select, source, named, filter⟩ := keywords
  rw [shape]
  change existence? inner? (.lexeme (.word "SELECT") :: .lexeme (.integer (Decimal.integer 1)) ::
    .lexeme (.word "FROM") :: .lexeme (.ofName join.table) :: .lexeme (.word "AS") ::
    .lexeme (.ofName join.tableAlias) :: .lexeme (.word "WHERE") :: condition) = _
  rw [existence?, select, source, named, filter, Lexeme.name?_ofName, Lexeme.name?_ofName]
  cases inner? condition <;> rfl

/-- The pieces of a subquery with a condition. -/
def Join.existencePieces (join : Join) (condition : List Piece) : List Piece :=
  Piece.word "EXISTS" ::
    ([Piece.mark "("] ++ (join.sourcePieces ++ condition) ++ [Piece.mark ")"])

/-- A subquery for the rows of a linked table. -/
theorem isFactor_existence {pieces : List Piece} {logic : Logic} (inner : IsRead pieces logic)
    (join : Join) :
    IsFactor (join.existencePieces pieces) (.existence join.table join.tableAlias logic) := by
  have keyword : IsClosedPhrase [.word "EXISTS"] := isClosedPhrase_single rfl (by decide)
  have inside := join.isBalancedPhrase_sourcePieces.append inner.phrase
  have enclosed := isClosedPhrase_enclosed inside
  have whole : termsOf (join.existencePieces pieces) = .lexeme (.word "EXISTS") ::
      (Term.opening :: termsOf (join.sourcePieces ++ pieces) ++ [Term.closing]) := by
    rw [← termsOf_enclosed inside.phrase]
    exact termsOf_append keyword.phrase enclosed.phrase
  refine ⟨keyword.append enclosed, fun depth enough => ?_⟩
  rw [whole] at enough ⊢
  have parts := termsOf_append join.isBalancedPhrase_sourcePieces.phrase inner.phrase.phrase
  have shorter : (termsOf pieces).length < depth := by
    rw [parts] at enough
    simp only [List.length_cons, List.length_append] at enough
    omega
  have notNegation : (Term.lexeme (.word "EXISTS")).isKeyword "NOT" = false := by decide
  have isExistence : (Term.lexeme (.word "EXISTS")).isKeyword "EXISTS" = true := by decide
  rw [factor?, notNegation, isExistence, enclosed?_enclosed inside.balanced,
    if_neg Bool.false_ne_true, if_pos rfl, Option.bind_some, parts, existence?_source,
    inner.read depth shorter]
  rfl

theorem IsFactor.negated {pieces : List Piece} {logic : Logic} (factor : IsFactor pieces logic)
    (negated : Bool) : IsFactor (negationPieces negated ++ pieces) (.negatedIf negated logic) := by
  cases negated with
  | false => exact factor
  | true =>
      have keyword : IsClosedPhrase [.word "NOT"] := isClosedPhrase_single rfl (by decide)
      refine ⟨keyword.append factor.phrase, fun depth enough => ?_⟩
      have whole : termsOf (negationPieces true ++ pieces) =
          .lexeme (.word "NOT") :: termsOf pieces :=
        termsOf_append keyword.phrase factor.phrase.phrase
      have isNegation : (Term.lexeme (.word "NOT")).isKeyword "NOT" = true := by decide
      rw [whole, List.length_cons] at enough
      rw [whole, factor?, isNegation, if_pos rfl, factor.read depth (by omega)]
      rfl

/-! ## Predicates -/

namespace Predicate

theorem IsSound.terms_render {predicate : Predicate} (sound : predicate.IsSound) :
    terms (lexemes predicate.render) = termsOf predicate.pieces := by
  rw [Spells.lexemes_eq sound.writes, termsOf]

/-- A predicate is read as the expression that it stands for, also beside connectives
unless it is a junction itself. -/
structure IsFaithful (predicate : Predicate) : Prop where
  isRead : IsRead predicate.pieces predicate.logic
  isFactor : predicate.isCompound = false → IsFactor predicate.pieces predicate.logic

variable {predicate inner : Predicate}

theorem isFaithful_of_isFactor (factor : IsFactor predicate.pieces predicate.logic) :
    predicate.IsFaithful :=
  ⟨isRead_of_isFactor factor, fun _ => factor⟩

theorem isFaithful_of_isTestPhrase (sound : predicate.IsSound)
    (phrase : IsTestPhrase predicate.pieces) (meaning : predicate.logic = predicate.test) :
    predicate.IsFaithful := by
  refine isFaithful_of_isFactor ?_
  rw [meaning, test, sound.terms_render]
  exact isFactor_of_isTestPhrase phrase

theorem isFactor_join (join : Join) : IsFactor join.condition.pieces join.condition.logic := by
  have inside := Expression.IsSound.column join.tableAlias join.column
  have outside := Expression.IsSound.column join.outerAlias join.outerColumn
  have phrase := isTestPhrase_compare .equal inside outside
  exact (isFaithful_of_isTestPhrase (.compare .equal inside outside) phrase rfl).isFactor rfl

theorem isFaithful_grouped (faithful : inner.IsFaithful) : (grouped inner).IsFaithful := by
  refine isFaithful_of_isFactor ?_
  rw [pieces, logic]
  exact isFactor_grouped faithful.isRead

theorem isFaithful_linked (negated : Bool) (join : Join) : (linked negated join).IsFaithful := by
  have existence := isFactor_existence (isRead_of_isFactor (isFactor_join join)) join
  have shape : (linked negated join).pieces =
      negationPieces negated ++ join.existencePieces join.condition.pieces := by
    simp [pieces, Join.pieces_eq, Join.existencePieces]
  refine isFaithful_of_isFactor ?_
  rw [shape, logic]
  exact existence.negated negated

/-- The condition of a linked table is read as a conjunction with the one of its join. -/
theorem isFaithful_linkedWhere (faithful : inner.IsFaithful) (negated : Bool) (join : Join) :
    (linkedWhere negated join inner).IsFaithful := by
  have factors : ∀ part ∈ [join.condition, .grouped inner], IsFactor part.pieces part.logic := by
    intro part member
    rcases List.mem_pair.mp member with rfl | rfl
    · exact isFactor_join join
    · exact (isFaithful_grouped faithful).isFactor rfl
  have existence := isFactor_existence (isRead_junction .and factors (List.cons_ne_nil _ _)) join
  have shape : (linkedWhere negated join inner).pieces =
      negationPieces negated ++
        join.existencePieces (junction .and [join.condition, .grouped inner]).pieces := by
    simp [pieces, piecesEach, Join.pieces_eq, Join.existencePieces, connectivePiece,
      List.intercalate]
  have meaning : (linkedWhere negated join inner).logic = .negatedIf negated
      (.existence join.table join.tableAlias
        (junction .and [join.condition, .grouped inner]).logic) := by
    rw [logic, logic, logicEach, logicEach, logicEach, logic]
    rfl
  refine isFaithful_of_isFactor ?_
  rw [shape, meaning]
  exact existence.negated negated

theorem IsSound.isFaithful (sound : predicate.IsSound) : predicate.IsFaithful := by
  induction sound with
  | compare comparison left right =>
      exact isFaithful_of_isTestPhrase (.compare comparison left right)
        (isTestPhrase_compare comparison left right) rfl
  | isNull negated tested =>
      exact isFaithful_of_isTestPhrase (.isNull negated tested)
        (isTestPhrase_isNull tested negated) rfl
  | like negated tested pattern =>
      exact isFaithful_of_isTestPhrase (.like negated tested pattern)
        (isTestPhrase_like tested negated pattern) rfl
  | isIn negated tested each =>
      exact isFaithful_of_isTestPhrase (.isIn negated tested each)
        (isTestPhrase_isIn tested negated _) rfl
  | between negated tested low high =>
      exact isFaithful_of_isTestPhrase (.between negated tested low high)
        (isTestPhrase_between tested negated _ _) rfl
  | inUserTeams negated tested =>
      exact isFaithful_of_isTestPhrase (.inUserTeams negated tested)
        (isTestPhrase_inUserTeams tested negated) rfl
  | junction connective several _ simple ih =>
      refine ⟨isRead_junction connective (fun part member => ?_) ?_, nofun⟩
      · exact (ih part member).isFactor (simple part member)
      · rintro rfl
        cases several
  | grouped _ ih => exact isFaithful_grouped ih
  | linked negated join => exact isFaithful_linked negated join
  | linkedWhere negated join _ ih => exact isFaithful_linkedWhere ih negated join

/-- What is written for a sound predicate is read as the expression it stands for. -/
theorem IsSound.logic?_render (sound : predicate.IsSound) :
    logic? predicate.render = some predicate.logic := by
  rw [logic?, sound.terms_render]
  exact sound.isFaithful.isRead.read _ (Nat.lt_succ_self _)

example :
    logic? "t.a BETWEEN 1 AND 2 AND t.b = 3 OR NOT EXISTS (SELECT 1 FROM u AS v WHERE v.c = t.d)" =
      some (.junction .or
        [.junction .and
          [.test [.column "t" "a", .lexeme (.word "BETWEEN"), .lexeme (.integer "1"),
              .lexeme (.word "AND"), .lexeme (.integer "2")],
            .test [.column "t" "b", .lexeme (.mark "="), .lexeme (.integer "3")]],
          .negation (.existence "u" "v"
            (.test [.column "v" "c", .lexeme (.mark "="), .column "t" "d"]))]) := by
  rfl

end Predicate

end Sql

end TabularModel
