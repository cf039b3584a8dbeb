import TabularModel.Proofs.Filter.Visits
import TabularModel.Proofs.Sql.Balance
import TabularModel.Proofs.Sql.Mentions

/-!
# The increments of moved moments

The numerals that a clause hands to `DATEADD` are found by reading it from the left: a
call is recognised by its name in any letter case, and its increment stands behind the
first comma. A predicate whose moments are moved by numbers of 32 bits is written with
such increments alone, whatever names and values stand in it.
-/

set_option autoImplicit false

namespace TabularModel

namespace Sql

/-! ## Reading calls -/

/-- How much of a call of `DATEADD` in front of its increment has been read. -/
inductive Call where
  | outside
  | named
  | opened
  | parted
  | ready
deriving DecidableEq, Repr

namespace Call

def next : Call -> Lexeme -> Call
  | .named, .mark characters => if characters = "(" then .opened else .outside
  | .opened, .word _ => .parted
  | .parted, .mark characters => if characters = "," then .ready else .outside
  | _, .word name => if Text.sameIgnoringCase name "DATEADD" then .named else .outside
  | _, _ => .outside

def increment? : Call -> Lexeme -> Option Text
  | .ready, .integer numeral => some numeral
  | _, _ => none

def after (call : Call) (lexemes : List Lexeme) : Call :=
  lexemes.foldl next call

/-- The numerals that stand as increments of calls. -/
def increments : Call -> List Lexeme -> List Text
  | _, [] => []
  | call, lexeme :: rest => (call.increment? lexeme).toList ++ increments (call.next lexeme) rest

theorem increments_append (call : Call) (front back : List Lexeme) :
    call.increments (front ++ back) =
      call.increments front ++ (call.after front).increments back := by
  induction front generalizing call with
  | nil => rfl
  | cons lexeme front ih =>
      rw [List.cons_append, increments, ih, increments, List.append_assoc]
      rfl

theorem after_append (call : Call) (front back : List Lexeme) :
    call.after (front ++ back) = (call.after front).after back :=
  List.foldl_append

theorem increments_of_noInteger {call : Call} {lexemes : List Lexeme}
    (noInteger : ∀ lexeme ∈ lexemes, lexeme.kind ≠ .integer) : call.increments lexemes = [] := by
  induction lexemes generalizing call with
  | nil => rfl
  | cons lexeme lexemes ih =>
      have silent : call.increment? lexeme = none := by
        unfold increment?
        split
        · exact absurd rfl (noInteger _ List.mem_cons_self)
        · rfl
      rw [increments, silent, ih fun other member => noInteger other (List.mem_cons_of_mem _ member)]
      rfl

/-- Only a comma behind the unit leads to the place of an increment. -/
theorem next_eq_ready {call : Call} {lexeme : Lexeme} (ready : call.next lexeme = .ready) :
    call = .parted ∧ lexeme = .mark "," := by
  unfold next at ready
  split at ready
  · split at ready <;> cases ready
  · cases ready
  · split at ready
    · next comma => exact ⟨rfl, by rw [comma]⟩
    · cases ready
  · split at ready <;> cases ready
  · cases ready

end Call

/-- The increments in the calls of `DATEADD` among the lexemes of a clause. -/
def increments (lexemes : List Lexeme) : List Text :=
  Call.outside.increments lexemes

/-- The numeral of a signed integer of 32 bits. -/
def IsShort (numeral : Text) : Prop :=
  ∃ n, numeral = Decimal.integer n ∧ Decimal.fits32 n = true

/-- Wherever the pieces begin, apart from the place of an increment, the increments in
them are short, and they do not end in front of an increment. -/
def AreShort (pieces : List Piece) : Prop :=
  ∀ call : Call, call ≠ .ready ->
    (∀ numeral ∈ call.increments (pieces.map Piece.lexeme), IsShort numeral) ∧
      call.after (pieces.map Piece.lexeme) ≠ .ready

namespace AreShort

variable {front back pieces : List Piece}

theorem nil : AreShort [] := fun _ notReady => ⟨by simp [Call.increments], notReady⟩

theorem append (first : AreShort front) (second : AreShort back) : AreShort (front ++ back) := by
  intro call notReady
  obtain ⟨short, between⟩ := first call notReady
  obtain ⟨others, last⟩ := second _ between
  rw [List.map_append, Call.increments_append, Call.after_append]
  refine ⟨fun numeral member => ?_, last⟩
  rcases List.mem_append.mp member with member | member
  · exact short numeral member
  · exact others numeral member

theorem single {piece : Piece} (noComma : piece.lexeme ≠ .mark ",") : AreShort [piece] := by
  intro call notReady
  have silent : call.increment? piece.lexeme = none := by
    cases call with
    | ready => exact absurd rfl notReady
    | outside | named | opened | parted => rfl
  refine ⟨by simp [Call.increments, silent], fun ready => ?_⟩
  exact noComma (Call.next_eq_ready ready).2

theorem intercalate {between : List Piece} (short : AreShort between) {parts : List (List Piece)}
    (each : ∀ part ∈ parts, AreShort part) : AreShort (between.intercalate parts) :=
  intercalate_of_append nil (fun first second => first.append second) short each

/-- Pieces other than commas. -/
theorem of_forall (noComma : ∀ piece ∈ pieces, piece.lexeme ≠ .mark ",") : AreShort pieces := by
  induction pieces with
  | nil => exact nil
  | cons piece pieces ih =>
      exact (single (noComma piece List.mem_cons_self)).append
        (ih fun other member => noComma other (List.mem_cons_of_mem piece member))

theorem literal (value : Literal) : AreShort [.literal value] :=
  single fun comma => by
    cases value <;> cases comma

theorem identifier (name : Text) : AreShort [.identifier name] := by
  refine single fun comma => ?_
  rw [Piece.lexeme, Lexeme.ofName] at comma
  split at comma <;> cases comma

theorem column (tableAlias name : Text) : AreShort (columnPieces tableAlias name) := by
  have point : AreShort [.mark "."] := single (by decide +kernel)
  exact (identifier tableAlias).append (point.append (identifier name))

theorem word (name : Text) : AreShort [.word name] :=
  single Lexeme.noConfusion

/-- A short number may stand in the place of an increment. -/
theorem moved {n : Int} (fits : Decimal.fits32 n = true) (characters : Text) :
    AreShort [.mark ",", .number n, .mark characters] := by
  intro call notReady
  cases call with
  | ready => exact absurd rfl notReady
  | parted => exact ⟨fun numeral member => ⟨n, List.mem_singleton.mp member, fits⟩, nofun⟩
  | outside | named | opened => exact ⟨nofun, nofun⟩

/-- A word in the place of an increment is none. -/
theorem calculated (name : Text) : AreShort [.mark ",", .word name] := by
  intro call notReady
  refine ⟨?_, fun ready => Lexeme.noConfusion (Call.next_eq_ready ready).2⟩
  rw [Call.increments_of_noInteger]
  · exact nofun
  · simp [Piece.word, Piece.mark, Piece.lexeme, Lexeme.kind]

/-- A call of another function with a unit. -/
theorem otherCall (part : DatePart) :
    AreShort [.word "DATEPART", .mark "(", .word part.name, .mark ","] := by
  have unit : Call.outside.next (.word part.name) = .outside := by cases part <;> decide +kernel
  have comma : (Call.outside.next (.word part.name)).next (.mark ",") ≠ .ready := by
    rw [unit]
    exact nofun
  intro call notReady
  refine ⟨?_, ?_⟩
  · rw [Call.increments_of_noInteger]
    · exact nofun
    · simp [Piece.word, Piece.mark, Piece.lexeme, Lexeme.kind]
  · cases call with
    | ready => exact absurd rfl notReady
    | outside | named | opened | parted => exact comma

/-- A comma behind a literal does not follow the unit of a call. -/
theorem literals (values : List Literal) :
    AreShort ([.mark ","].intercalate (values.map fun value => [.literal value])) := by
  induction values with
  | nil => exact nil
  | cons value values ih =>
      cases values with
      | nil => simpa [List.intercalate] using literal value
      | cons next values =>
          have parted : AreShort [.literal value, .mark ","] := by
            intro call notReady
            cases call with
            | ready => exact absurd rfl notReady
            | outside | named | opened | parted => cases value <;> exact ⟨nofun, nofun⟩
          rw [List.map_cons, List.map_cons, List.intercalate_cons_cons]
          exact parted.append ih

end AreShort

/-! ## Expressions -/

namespace Expression

/-- Every moment in the expression is moved by a number of 32 bits. -/
def MovesShortly : Expression -> Prop
  | .dateAdd _ count moment => Decimal.fits32 count = true ∧ moment.MovesShortly
  | .startOf _ moment => moment.MovesShortly
  | .partOf _ moment => moment.MovesShortly
  | .monthOf moment => moment.MovesShortly
  | .yearOf moment => moment.MovesShortly
  | .asDate moment => moment.MovesShortly
  | _ => True

theorem areShort_pieces {expression : Expression} (moves : expression.MovesShortly) :
    AreShort expression.pieces := by
  have closing : AreShort [.mark ")"] := .of_forall (by decide +kernel)
  have opening : AreShort [.mark "("] := .of_forall (by decide +kernel)
  have call : AreShort [.word "DATEADD", .mark "("] := .of_forall (by decide +kernel)
  induction expression with
  | column tableAlias name => exact .column tableAlias name
  | literal value => exact .literal value
  | currentUser => exact .of_forall (by decide +kernel)
  | utcNow => exact .of_forall (by decide +kernel)
  | fragment text => exact .nil
  | dateAdd part count moment ih =>
      obtain ⟨fits, inner⟩ := moves
      have front := (call.append (.word part.name)).append (.moved fits ",")
      simpa [pieces] using (front.append (ih inner)).append closing
  | startOf part moment ih =>
      have zero : Decimal.fits32 0 = true := by decide
      have difference := (AreShort.calculated "DATEDIFF").append opening
      have front := (call.append (.word part.name)).append
        ((difference.append (.word part.name)).append (.moved zero ","))
      have back := closing.append (.moved zero ")")
      simpa [pieces] using (front.append (ih moves)).append back
  | partOf part moment ih =>
      simpa [pieces] using ((AreShort.otherCall part).append (ih moves)).append closing
  | monthOf moment ih =>
      have call : AreShort [.word "MONTH", .mark "("] := .of_forall (by decide +kernel)
      exact (call.append (ih moves)).append closing
  | yearOf moment ih =>
      have call : AreShort [.word "YEAR", .mark "("] := .of_forall (by decide +kernel)
      exact (call.append (ih moves)).append closing
  | asDate moment ih =>
      have call : AreShort [.word "CAST", .mark "("] := .of_forall (by decide +kernel)
      have back : AreShort [.word "AS", .word "DATE", .mark ")"] := .of_forall (by decide +kernel)
      exact (call.append (ih moves)).append back

end Expression

/-! ## Predicates -/

/-- The moments that a test compares are moved by numbers of 32 bits. -/
def Predicate.MovesShortly : Predicate -> Prop
  | .compare _ left right => left.MovesShortly ∧ right.MovesShortly
  | .isNull _ tested => tested.MovesShortly
  | .like _ tested _ => tested.MovesShortly
  | .isIn _ tested _ => tested.MovesShortly
  | .between _ tested _ _ => tested.MovesShortly
  | .inUserTeams _ tested => tested.MovesShortly
  | _ => True

theorem areShort_join (join : Join) : AreShort join.pieces := by
  have select : AreShort [.word "SELECT", .number 1, .word "FROM"] := .of_forall (by decide +kernel)
  have as : AreShort [.word "AS"] := .of_forall (by decide +kernel)
  have condition : AreShort [.word "WHERE"] := .of_forall (by decide +kernel)
  have equal : AreShort [.mark "="] := .of_forall (by decide +kernel)
  have table := ((select.append (.identifier join.table)).append as).append
    (.identifier join.tableAlias)
  have left := (table.append condition).append (.column join.tableAlias join.column)
  exact (left.append equal).append (.column join.outerAlias join.outerColumn)

theorem areShort_negation (negated : Bool) : AreShort (negationPieces negated) := by
  cases negated with
  | false => exact .nil
  | true => exact .of_forall (by decide +kernel)

/-- A predicate has short increments where its tests have. -/
theorem Predicate.IsSound.areShort {predicate : Predicate} (sound : predicate.IsSound)
    (moves : ∀ test, Filter.Atom.test test ∈ Filter.atoms predicate -> test.MovesShortly) :
    AreShort predicate.pieces := by
  have opening : AreShort [.mark "("] := .of_forall (by decide +kernel)
  have closing : AreShort [.mark ")"] := .of_forall (by decide +kernel)
  have existing : AreShort [.word "EXISTS", .mark "("] := .of_forall (by decide +kernel)
  have andWord : AreShort [.word "AND"] := .of_forall (by decide +kernel)
  have own {test : Predicate} (alone : Filter.atoms test = [.test test])
      (each : ∀ other, Filter.Atom.test other ∈ Filter.atoms test -> other.MovesShortly) :
      test.MovesShortly := each test (by rw [alone]; exact List.mem_singleton_self _)
  induction sound with
  | compare comparison leftSound rightSound =>
      obtain ⟨left, right⟩ := own (by simp [Filter.atoms]) moves
      have symbol : AreShort [comparison.piece] := by
        cases comparison <;> exact .of_forall (by decide +kernel)
      exact ((Expression.areShort_pieces left).append symbol).append (Expression.areShort_pieces right)
  | isNull negated sound =>
      have tested := own (by simp [Filter.atoms]) moves
      have isWord : AreShort [.word "IS"] := .word "IS"
      have front := (Expression.areShort_pieces tested).append isWord
      exact (front.append (areShort_negation negated)).append (.word "NULL")
  | like negated sound pattern =>
      have tested := own (by simp [Filter.atoms]) moves
      have front := (Expression.areShort_pieces tested).append (areShort_negation negated)
      exact (front.append (.word "LIKE")).append (.literal (.string pattern))
  | @isIn negated tested sound values each =>
      have moved := own (by simp [Filter.atoms]) moves
      have isIn : AreShort [.word "IN", .mark "("] := .of_forall (by decide +kernel)
      have front := (Expression.areShort_pieces moved).append (areShort_negation negated)
      exact ((front.append isIn).append (.literals values)).append closing
  | @between negated tested sound low high lowSound highSound =>
      have moved := own (by simp [Filter.atoms]) moves
      have front := (Expression.areShort_pieces moved).append (areShort_negation negated)
      have lower := (front.append (.word "BETWEEN")).append (.literal low)
      exact (lower.append andWord).append (.literal high)
  | inUserTeams negated sound =>
      have tested := own (by simp [Filter.atoms]) moves
      have teams : AreShort teamPieces := .of_forall (by decide +kernel)
      exact ((Expression.areShort_pieces tested).append (areShort_negation negated)).append teams
  | @junction connective parts several each simple ih =>
      have between : AreShort [connectivePiece connective] := by
        cases connective <;> exact .of_forall (by decide +kernel)
      rw [Predicate.pieces, Predicate.piecesEach_eq_map]
      refine .intercalate between fun written member => ?_
      obtain ⟨part, inside, rfl⟩ := List.mem_map.mp member
      refine ih part inside fun test found => moves test ?_
      rw [Filter.atoms, Filter.atomsEach_eq_flatMap, List.mem_flatMap]
      exact ⟨part, inside, found⟩
  | grouped sound ih =>
      rw [Filter.atoms] at moves
      rw [Predicate.pieces]
      exact (opening.append (ih moves)).append closing
  | linked negated join =>
      exact (((areShort_negation negated).append existing).append (areShort_join join)).append closing
  | linkedWhere negated join sound ih =>
      have inner := ih fun test found => moves test (by
        rw [Filter.atoms]
        exact List.mem_cons_of_mem _ found)
      have andOpening : AreShort [.word "AND", .mark "("] := andWord.append opening
      have closings : AreShort [.mark ")", .mark ")"] := closing.append closing
      have front := ((areShort_negation negated).append existing).append (areShort_join join)
      rw [Predicate.pieces]
      exact ((front.append andOpening).append inner).append closings

/-- The increments in a written predicate are numerals of 32 bits where the moments in
its tests are moved by such numbers. -/
theorem Predicate.IsSound.isShort {predicate : Predicate} (sound : predicate.IsSound)
    (moves : ∀ test, Filter.Atom.test test ∈ Filter.atoms predicate -> test.MovesShortly) :
    ∀ numeral ∈ increments (lexemes predicate.render), IsShort numeral := by
  rw [Spells.lexemes_eq sound.writes]
  exact (sound.areShort moves .outside nofun).1

end Sql

end TabularModel
