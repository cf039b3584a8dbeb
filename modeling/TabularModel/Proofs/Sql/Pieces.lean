import Mathlib.Data.List.Forall2
import TabularModel.Proofs.Sql.Literals
import TabularModel.Sql.Predicate

/-!
# The pieces of a predicate

A predicate is written in pieces, each of which is read as one lexeme: a word or
mark that is always the same, a name, or a literal for a value. The pieces follow
the structure of the predicate alone. That the written predicate is read as these
pieces says that no name and no value can change what is around it.
-/

set_option autoImplicit false

namespace TabularModel

namespace Sql

/-- What a name or a value in a query stands for. -/
inductive Mention where
  | name (name : Text)
  | value (value : Text)
deriving DecidableEq, Repr

inductive Piece where
  | fixed (lexeme : Lexeme)
  | identifier (name : Text)
  | literal (value : Literal)
deriving DecidableEq, Repr

namespace Piece

def word (name : Text) : Piece :=
  .fixed (.word name)

def mark (characters : Text) : Piece :=
  .fixed (.mark characters)

def number (n : Int) : Piece :=
  .fixed (.integer (Decimal.integer n))

def lexeme : Piece -> Lexeme
  | .fixed lexeme => lexeme
  | .identifier name => .ofName name
  | .literal value => value.lexeme

def mention? : Piece -> Option Mention
  | .fixed _ => none
  | .identifier name => some (.name name)
  | .literal value => some (.value value.content)

/-- What is read back from the lexeme of a piece. -/
def IsReadBack (piece : Piece) : Prop :=
  match piece.mention? with
  | none => True
  | some (.name name) => piece.lexeme.name? = some name
  | some (.value value) => piece.lexeme.value? = some value

theorem isReadBack (piece : Piece) : piece.IsReadBack := by
  cases piece with
  | fixed _ => trivial
  | identifier name => exact Lexeme.name?_ofName name
  | literal value => exact value.value?_lexeme

end Piece

/-- In front of a seam the text is read as the given pieces. -/
def Writes (text : Text) (pieces : List Piece) : Prop :=
  Spells text (pieces.map Piece.lexeme)

/-- The text is read as the given pieces whatever follows. -/
def Opens (text : Text) (pieces : List Piece) : Prop :=
  Leads text (pieces.map Piece.lexeme)

/-- The text begins with a character that ends lexemes. -/
def beginsApart (text : Text) : Bool :=
  text.head?.any endsLexeme

section Writing

variable {text other : Text} {pieces more : List Piece}

theorem isSeam_of_beginsApart (apart : beginsApart text = true) (rest : Text) :
    IsSeam (text ++ rest) := by
  cases text with
  | nil => cases apart
  | cons c back => exact isSeam_cons apart _

theorem Writes.nil : Writes [] [] := fun _ _ => rfl

theorem Opens.writes (first : Opens text pieces) (next : Writes other more) :
    Writes (text ++ other) (pieces ++ more) := by
  rw [Writes, List.map_append]
  exact Leads.append first next

theorem Opens.opens (first : Opens text pieces) (next : Opens other more) :
    Opens (text ++ other) (pieces ++ more) := by
  intro rest
  rw [List.append_assoc, first, next, List.map_append, List.append_assoc]

theorem Writes.writes (first : Writes text pieces) (next : Writes other more)
    (apart : beginsApart other = true) : Writes (text ++ other) (pieces ++ more) := by
  intro rest seam
  rw [List.append_assoc, first _ (isSeam_of_beginsApart apart rest), next rest seam,
    List.map_append, List.append_assoc]

theorem Writes.opens (first : Writes text pieces) (next : Opens other more)
    (apart : beginsApart other = true) : Opens (text ++ other) (pieces ++ more) := by
  intro rest
  rw [List.append_assoc, first _ (isSeam_of_beginsApart apart rest), next,
    List.map_append, List.append_assoc]

/-- A fixed text that ends between lexemes. -/
theorem opens_of_readFrom
    (complete : readFrom .between text = (pieces.map Piece.lexeme, .between)) : Opens text pieces :=
  leads_of_readFrom complete

/-- A blank ends what stands in front of it. -/
theorem Writes.apart (first : Writes text pieces) : Opens (text ++ " ".toList) pieces := by
  have blank : Opens [' '] [] := opens_of_readFrom (by decide +kernel)
  have opened := first.opens blank rfl
  rwa [List.append_nil] at opened

theorem writes_word {name : Text} (plain : Text.isPlainName name = true) :
    Writes name [Piece.word name] :=
  spells_word plain

theorem writes_number (n : Int) : Writes (Decimal.integer n) [Piece.number n] :=
  spells_integer n

theorem writes_identifier (name : Text) : Writes (identifier name) [Piece.identifier name] :=
  spells_identifier name

theorem writes_stringLiteral (content : Text) :
    Writes (stringLiteral content) [Piece.literal (.string content)] :=
  spells_stringLiteral content

theorem writes_literal {literal : Literal} (sound : literal.IsSound) :
    Writes literal.render [Piece.literal literal] :=
  Literal.spells sound

/-- Texts with a separator between them. -/
theorem writes_joined {separator : Text} {between : List Piece} (opens : Opens separator between)
    (apart : beginsApart separator = true) {texts : List Text} {written : List (List Piece)}
    (each : List.Forall₂ Writes texts written) :
    Writes (Text.joined separator texts) (between.intercalate written) := by
  induction each with
  | nil => exact Writes.nil
  | @cons text pieces texts written first others ih =>
      cases others with
      | nil =>
          have alone : Writes text pieces := first
          simpa [Text.joined] using alone
      | @cons next follows texts written second later =>
          have front := (Writes.opens first opens apart).writes ih
          rw [Text.joined, List.intercalate_cons_cons, List.intercalate_cons_cons]
          exact front

end Writing

/-! ## Expressions -/

/-- The pieces of a column. -/
def columnPieces (tableAlias name : Text) : List Piece :=
  [.identifier tableAlias] ++ ([.mark "."] ++ [.identifier name])

theorem writes_qualified (tableAlias name : Text) :
    Writes (qualified tableAlias name) (columnPieces tableAlias name) := by
  have point : Opens ['.'] [.mark "."] := opens_of_readFrom (by decide +kernel)
  exact (writes_identifier tableAlias).writes (point.writes (writes_identifier name)) rfl

def Expression.pieces : Expression -> List Piece
  | .column tableAlias name => columnPieces tableAlias name
  | .literal value => [.literal value]
  | .currentUser => [.word "CURRENT_USER"]
  | .utcNow => [.word "GETUTCDATE", .mark "(", .mark ")"]
  | .fragment _ => []
  | .dateAdd part count moment =>
      [.word "DATEADD", .mark "("] ++ [.word part.name] ++ [.mark ","] ++ [.number count] ++
        [.mark ","] ++ moment.pieces ++ [.mark ")"]
  | .startOf part moment =>
      [.word "DATEADD", .mark "("] ++ [.word part.name] ++
        [.mark ",", .word "DATEDIFF", .mark "("] ++ [.word part.name] ++
        [.mark ",", .number 0, .mark ","] ++ moment.pieces ++
        [.mark ")", .mark ",", .number 0, .mark ")"]
  | .partOf part moment =>
      [.word "DATEPART", .mark "("] ++ [.word part.name] ++ [.mark ","] ++ moment.pieces ++
        [.mark ")"]
  | .monthOf moment => [.word "MONTH", .mark "("] ++ moment.pieces ++ [.mark ")"]
  | .yearOf moment => [.word "YEAR", .mark "("] ++ moment.pieces ++ [.mark ")"]
  | .asDate moment =>
      [.word "CAST", .mark "("] ++ moment.pieces ++ [.word "AS", .word "DATE", .mark ")"]

/-- An expression without fragments of unknown content. -/
inductive Expression.IsSound : Expression -> Prop where
  | column (tableAlias name : Text) : IsSound (.column tableAlias name)
  | literal {value : Literal} (sound : value.IsSound) : IsSound (.literal value)
  | currentUser : IsSound .currentUser
  | utcNow : IsSound .utcNow
  | dateAdd (part : DatePart) (count : Int) {moment : Expression} (sound : IsSound moment) :
      IsSound (.dateAdd part count moment)
  | startOf (part : DatePart) {moment : Expression} (sound : IsSound moment) :
      IsSound (.startOf part moment)
  | partOf (part : DatePart) {moment : Expression} (sound : IsSound moment) :
      IsSound (.partOf part moment)
  | monthOf {moment : Expression} (sound : IsSound moment) : IsSound (.monthOf moment)
  | yearOf {moment : Expression} (sound : IsSound moment) : IsSound (.yearOf moment)
  | asDate {moment : Expression} (sound : IsSound moment) : IsSound (.asDate moment)

theorem writes_part (part : DatePart) : Writes part.name [Piece.word part.name] := by
  apply writes_word
  cases part <;> decide

theorem Expression.IsSound.writes {expression : Expression} (sound : expression.IsSound) :
    Writes expression.render expression.pieces := by
  have comma : Opens ", " [.mark ","] := opens_of_readFrom (by decide +kernel)
  have closing : Opens ")" [.mark ")"] := opens_of_readFrom (by decide +kernel)
  induction sound with
  | column tableAlias name => exact writes_qualified tableAlias name
  | literal sound => exact writes_literal sound
  | currentUser =>
      have plain : Text.isPlainName "CURRENT_USER" = true := by decide
      exact writes_word plain
  | utcNow =>
      have call : Opens "GETUTCDATE()" [.word "GETUTCDATE", .mark "(", .mark ")"] :=
        opens_of_readFrom (by decide +kernel)
      exact Leads.spells call
  | dateAdd part count _ ih =>
      have call : Opens "DATEADD(" [.word "DATEADD", .mark "("] := opens_of_readFrom (by decide +kernel)
      have front := ((call.writes (writes_part part)).opens comma rfl).writes (writes_number count)
      exact Leads.spells (((front.opens comma rfl).writes ih).opens closing rfl)
  | startOf part _ ih =>
      have call : Opens "DATEADD(" [.word "DATEADD", .mark "("] := opens_of_readFrom (by decide +kernel)
      have inner : Opens ", DATEDIFF(" [.mark ",", .word "DATEDIFF", .mark "("] :=
        opens_of_readFrom (by decide +kernel)
      have zero : Opens ", 0, " [.mark ",", .number 0, .mark ","] := opens_of_readFrom (by decide +kernel)
      have back : Opens "), 0)" [.mark ")", .mark ",", .number 0, .mark ")"] :=
        opens_of_readFrom (by decide +kernel)
      have front := ((call.writes (writes_part part)).opens inner rfl).writes (writes_part part)
      exact Leads.spells (((front.opens zero rfl).writes ih).opens back rfl)
  | partOf part _ ih =>
      have call : Opens "DATEPART(" [.word "DATEPART", .mark "("] := opens_of_readFrom (by decide +kernel)
      have front := (call.writes (writes_part part)).opens comma rfl
      exact Leads.spells ((front.writes ih).opens closing rfl)
  | monthOf _ ih =>
      have call : Opens "MONTH(" [.word "MONTH", .mark "("] := opens_of_readFrom (by decide +kernel)
      exact Leads.spells ((call.writes ih).opens closing rfl)
  | yearOf _ ih =>
      have call : Opens "YEAR(" [.word "YEAR", .mark "("] := opens_of_readFrom (by decide +kernel)
      exact Leads.spells ((call.writes ih).opens closing rfl)
  | asDate _ ih =>
      have call : Opens "CAST(" [.word "CAST", .mark "("] := opens_of_readFrom (by decide +kernel)
      have back : Opens " AS DATE)" [.word "AS", .word "DATE", .mark ")"] :=
        opens_of_readFrom (by decide +kernel)
      exact Leads.spells ((call.writes ih).opens back rfl)

/-! ## Predicates -/

def negationPieces (negated : Bool) : List Piece :=
  if negated then [.word "NOT"] else []

theorem opens_negation (negated : Bool) : Opens (negation negated) (negationPieces negated) := by
  cases negated with
  | false => exact fun _ => rfl
  | true => exact opens_of_readFrom (by decide +kernel)

def Comparison.piece (comparison : Comparison) : Piece :=
  .mark comparison.symbol

theorem opens_comparison (comparison : Comparison) :
    Opens (" " ++ comparison.symbol ++ " ") [comparison.piece] := by
  apply opens_of_readFrom
  cases comparison <;> decide +kernel

def connectivePiece : Connective -> Piece
  | .and => .word "AND"
  | .or => .word "OR"

theorem opens_separator (connective : Connective) :
    Opens (Connective.separator connective) [connectivePiece connective] := by
  apply opens_of_readFrom
  cases connective <;> decide +kernel

def Join.pieces (join : Join) : List Piece :=
  [.word "SELECT", .number 1, .word "FROM"] ++ [.identifier join.table] ++ [.word "AS"] ++
    [.identifier join.tableAlias] ++ [.word "WHERE"] ++ columnPieces join.tableAlias join.column ++
    [.mark "="] ++ columnPieces join.outerAlias join.outerColumn

theorem writes_join (join : Join) : Writes join.render join.pieces := by
  have select : Opens "SELECT 1 FROM " [.word "SELECT", .number 1, .word "FROM"] :=
    opens_of_readFrom (by decide +kernel)
  have as : Opens " AS " [.word "AS"] := opens_of_readFrom (by decide +kernel)
  have condition : Opens " WHERE " [.word "WHERE"] := opens_of_readFrom (by decide +kernel)
  have equal : Opens " = " [.mark "="] := opens_of_readFrom (by decide +kernel)
  have table := (select.writes (writes_identifier join.table)).opens as rfl
  have named := (table.writes (writes_identifier join.tableAlias)).opens condition rfl
  have left := (named.writes (writes_qualified join.tableAlias join.column)).opens equal rfl
  exact left.writes (writes_qualified join.outerAlias join.outerColumn)

/-- The teams of the present user. -/
def teamPieces : List Piece :=
  [.word "IN", .mark "(", .word "SELECT", .word "tm", .mark ".", .word "teamid", .word "FROM",
    .word "teammembership", .word "AS", .word "tm", .word "WHERE", .word "tm", .mark ".",
    .word "systemuserid", .mark "=", .word "CURRENT_USER", .mark ")"]

theorem opens_teams : Opens
    "IN (SELECT tm.teamid FROM teammembership AS tm WHERE tm.systemuserid = CURRENT_USER)"
    teamPieces :=
  opens_of_readFrom (by decide +kernel)

mutual

def Predicate.pieces : Predicate -> List Piece
  | .compare comparison left right => left.pieces ++ [comparison.piece] ++ right.pieces
  | .isNull negated tested =>
      tested.pieces ++ [.word "IS"] ++ negationPieces negated ++ [.word "NULL"]
  | .like negated tested pattern =>
      tested.pieces ++ negationPieces negated ++ [.word "LIKE"] ++ [.literal (.string pattern)]
  | .isIn negated tested values =>
      tested.pieces ++ negationPieces negated ++ [.word "IN", .mark "("] ++
        [.mark ","].intercalate (values.map fun value => [.literal value]) ++ [.mark ")"]
  | .between negated tested low high =>
      tested.pieces ++ negationPieces negated ++ [.word "BETWEEN"] ++ [.literal low] ++
        [.word "AND"] ++ [.literal high]
  | .inUserTeams negated tested => tested.pieces ++ negationPieces negated ++ teamPieces
  | .junction connective parts =>
      [connectivePiece connective].intercalate (Predicate.piecesEach parts)
  | .grouped inner => [.mark "("] ++ inner.pieces ++ [.mark ")"]
  | .linked negated join =>
      negationPieces negated ++ [.word "EXISTS", .mark "("] ++ join.pieces ++ [.mark ")"]
  | .linkedWhere negated join inner =>
      negationPieces negated ++ [.word "EXISTS", .mark "("] ++ join.pieces ++
        [.word "AND", .mark "("] ++ inner.pieces ++ [.mark ")", .mark ")"]

def Predicate.piecesEach : List Predicate -> List (List Piece)
  | [] => []
  | part :: parts => part.pieces :: Predicate.piecesEach parts

end

/-- A predicate of sound expressions. A junction has several parts, and none of them
is a junction without parentheses around it. -/
inductive Predicate.IsSound : Predicate -> Prop where
  | compare (comparison : Comparison) {left right : Expression} (leftSound : left.IsSound)
      (rightSound : right.IsSound) : IsSound (.compare comparison left right)
  | isNull (negated : Bool) {tested : Expression} (sound : tested.IsSound) :
      IsSound (.isNull negated tested)
  | like (negated : Bool) {tested : Expression} (sound : tested.IsSound) (pattern : Text) :
      IsSound (.like negated tested pattern)
  | isIn (negated : Bool) {tested : Expression} (sound : tested.IsSound) {values : List Literal}
      (each : ∀ value ∈ values, value.IsSound) : IsSound (.isIn negated tested values)
  | between (negated : Bool) {tested : Expression} (sound : tested.IsSound) {low high : Literal}
      (lowSound : low.IsSound) (highSound : high.IsSound) :
      IsSound (.between negated tested low high)
  | inUserTeams (negated : Bool) {tested : Expression} (sound : tested.IsSound) :
      IsSound (.inUserTeams negated tested)
  | junction (connective : Connective) {parts : List Predicate} (several : 2 ≤ parts.length)
      (each : ∀ part ∈ parts, IsSound part) (simple : ∀ part ∈ parts, part.isCompound = false) :
      IsSound (.junction connective parts)
  | grouped {inner : Predicate} (sound : IsSound inner) : IsSound (.grouped inner)
  | linked (negated : Bool) (join : Join) : IsSound (.linked negated join)
  | linkedWhere (negated : Bool) (join : Join) {inner : Predicate} (sound : IsSound inner) :
      IsSound (.linkedWhere negated join inner)

theorem forall₂_writes_renderEach {parts : List Predicate}
    (each : ∀ part ∈ parts, Writes part.render part.pieces) :
    List.Forall₂ Writes (Predicate.renderEach parts) (Predicate.piecesEach parts) := by
  induction parts with
  | nil =>
      rw [Predicate.renderEach, Predicate.piecesEach]
      exact .nil
  | cons part parts ih =>
      rw [Predicate.renderEach, Predicate.piecesEach]
      exact .cons (each part List.mem_cons_self)
        (ih fun other member => each other (List.mem_cons_of_mem part member))

theorem forall₂_writes_literals {values : List Literal} (each : ∀ value ∈ values, value.IsSound) :
    List.Forall₂ Writes (values.map Literal.render)
      (values.map fun value => [Piece.literal value]) := by
  rw [List.forall₂_map_left_iff, List.forall₂_map_right_iff, List.forall₂_same]
  exact fun value member => writes_literal (each value member)

/-- The written predicate is read as its pieces. -/
theorem Predicate.IsSound.writes {predicate : Predicate} (sound : predicate.IsSound) :
    Writes predicate.render predicate.pieces := by
  have opening : Opens "(" [.mark "("] := opens_of_readFrom (by decide +kernel)
  have closing : Opens ")" [.mark ")"] := opens_of_readFrom (by decide +kernel)
  have andWord : Opens " AND " [.word "AND"] := opens_of_readFrom (by decide +kernel)
  have existing : Opens "EXISTS (" [.word "EXISTS", .mark "("] :=
    opens_of_readFrom (by decide +kernel)
  induction sound with
  | @compare comparison left right leftSound rightSound =>
      have whole := (leftSound.writes.opens (opens_comparison comparison) rfl).writes
        rightSound.writes
      have shape : (Predicate.compare comparison left right).render =
          left.render ++ (" ".toList ++ comparison.symbol ++ " ".toList) ++ right.render := by
        simp only [Predicate.render, List.append_assoc]
      rw [shape]
      exact whole
  | isNull negated tested =>
      have isWord : Opens " IS " [.word "IS"] := opens_of_readFrom (by decide +kernel)
      have null : Text.isPlainName "NULL" = true := by decide
      have front := (tested.writes.opens isWord rfl).opens (opens_negation negated)
      exact front.writes (writes_word null)
  | like negated tested pattern =>
      have like : Opens "LIKE " [.word "LIKE"] := opens_of_readFrom (by decide +kernel)
      have front := (tested.writes.apart.opens (opens_negation negated)).opens like
      exact front.writes (writes_stringLiteral pattern)
  | isIn negated tested each =>
      have isIn : Opens "IN (" [.word "IN", .mark "("] := opens_of_readFrom (by decide +kernel)
      have comma : Opens ", " [.mark ","] := opens_of_readFrom (by decide +kernel)
      have front := (tested.writes.apart.opens (opens_negation negated)).opens isIn
      have values := writes_joined comma rfl (forall₂_writes_literals each)
      exact Leads.spells ((front.writes values).opens closing rfl)
  | between negated tested low high =>
      have betweenWord : Opens "BETWEEN " [.word "BETWEEN"] := opens_of_readFrom (by decide +kernel)
      have front := (tested.writes.apart.opens (opens_negation negated)).opens betweenWord
      have bounds := (front.writes (writes_literal low)).opens andWord rfl
      exact bounds.writes (writes_literal high)
  | inUserTeams negated tested =>
      exact Leads.spells ((tested.writes.apart.opens (opens_negation negated)).opens opens_teams)
  | @junction connective parts several each simple ih =>
      have apart : beginsApart (Connective.separator connective) = true := by
        cases connective <;> rfl
      have written := forall₂_writes_renderEach ih
      rw [Predicate.render, Predicate.pieces]
      exact writes_joined (opens_separator connective) apart written
  | grouped sound ih =>
      rw [Predicate.render, Predicate.pieces]
      exact Leads.spells ((opening.writes ih).opens closing rfl)
  | linked negated join =>
      have front := ((opens_negation negated).opens existing).writes (writes_join join)
      exact Leads.spells (front.opens closing rfl)
  | linkedWhere negated join sound ih =>
      have andOpening : Opens " AND (" [.word "AND", .mark "("] :=
        opens_of_readFrom (by decide +kernel)
      have closings : Opens "))" [.mark ")", .mark ")"] := opens_of_readFrom (by decide +kernel)
      have front := ((opens_negation negated).opens existing).writes (writes_join join)
      rw [Predicate.render, Predicate.pieces]
      exact Leads.spells (((front.opens andOpening rfl).writes ih).opens closings rfl)

end Sql

end TabularModel
