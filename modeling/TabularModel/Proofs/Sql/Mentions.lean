import TabularModel.Proofs.Sql.Pieces

/-!
# What a predicate mentions

The names and values of a predicate in the order in which they are written.
Parentheses and connectives mention nothing, so a junction mentions what its parts
do, one after the other.
-/

set_option autoImplicit false

namespace TabularModel

namespace Sql

@[simp] theorem Piece.mention?_fixed (lexeme : Lexeme) : (Piece.fixed lexeme).mention? = none := rfl

@[simp] theorem Piece.mention?_word (name : Text) : (Piece.word name).mention? = none := rfl

@[simp] theorem Piece.mention?_mark (characters : Text) :
    (Piece.mark characters).mention? = none := rfl

@[simp] theorem Piece.mention?_number (n : Int) : (Piece.number n).mention? = none := rfl

@[simp] theorem Piece.mention?_identifier (name : Text) :
    (Piece.identifier name).mention? = some (.name name) := rfl

@[simp] theorem Piece.mention?_literal (value : Literal) :
    (Piece.literal value).mention? = some (.value value.content) := rfl

def mentions (pieces : List Piece) : List Mention :=
  pieces.filterMap Piece.mention?

@[simp] theorem mentions_nil : mentions [] = [] := rfl

@[simp] theorem mentions_append (front back : List Piece) :
    mentions (front ++ back) = mentions front ++ mentions back :=
  List.filterMap_append

@[simp] theorem mentions_cons (piece : Piece) (pieces : List Piece) :
    mentions (piece :: pieces) = piece.mention?.toList ++ mentions pieces := by
  rw [mentions, List.filterMap_cons]
  cases piece.mention? <;> rfl

theorem mentions_intercalate {between : List Piece} (silent : mentions between = [])
    (parts : List (List Piece)) : mentions (between.intercalate parts) = parts.flatMap mentions := by
  induction parts with
  | nil => rfl
  | cons part parts ih =>
      cases parts with
      | nil => simp
      | cons next parts =>
          rw [List.intercalate_cons_cons, mentions_append, mentions_append, silent, ih]
          simp

theorem mentions_literals (separator : Text) (values : List Literal) :
    mentions ([.mark separator].intercalate (values.map fun value => [.literal value])) =
      values.map fun value => .value value.content := by
  rw [mentions_intercalate rfl, List.flatMap_map, List.map_eq_flatMap]
  rfl

@[simp] theorem mentions_columnPieces (tableAlias name : Text) :
    mentions (columnPieces tableAlias name) = [.name tableAlias, .name name] := rfl

def Expression.mentions (expression : Expression) : List Mention :=
  Sql.mentions expression.pieces

namespace Expression

variable (part : DatePart) (count : Int) (moment : Expression)

@[simp] theorem mentions_column (tableAlias name : Text) :
    (column tableAlias name).mentions = [.name tableAlias, .name name] := rfl

@[simp] theorem mentions_literal (value : Literal) :
    (literal value).mentions = [.value value.content] := rfl

@[simp] theorem mentions_currentUser : currentUser.mentions = [] := rfl

@[simp] theorem mentions_utcNow : utcNow.mentions = [] := rfl

@[simp] theorem mentions_dateAdd : (dateAdd part count moment).mentions = moment.mentions := by
  simp [mentions, pieces]

@[simp] theorem mentions_startOf : (startOf part moment).mentions = moment.mentions := by
  simp [mentions, pieces]

@[simp] theorem mentions_partOf : (partOf part moment).mentions = moment.mentions := by
  simp [mentions, pieces]

@[simp] theorem mentions_monthOf : (monthOf moment).mentions = moment.mentions := by
  simp [mentions, pieces]

@[simp] theorem mentions_yearOf : (yearOf moment).mentions = moment.mentions := by
  simp [mentions, pieces]

@[simp] theorem mentions_asDate : (asDate moment).mentions = moment.mentions := by
  simp [mentions, pieces]

end Expression

@[simp] theorem mentions_negationPieces (negated : Bool) : mentions (negationPieces negated) = [] := by
  cases negated <;> rfl

def Join.mentions (join : Join) : List Mention :=
  [.name join.table, .name join.tableAlias, .name join.tableAlias, .name join.column,
    .name join.outerAlias, .name join.outerColumn]

theorem mentions_joinPieces (join : Join) : Sql.mentions join.pieces = join.mentions := rfl

def Predicate.mentions (predicate : Predicate) : List Mention :=
  Sql.mentions predicate.pieces

namespace Predicate

@[simp] theorem mentions_compare (comparison : Comparison) (left right : Expression) :
    (compare comparison left right).mentions = left.mentions ++ right.mentions := by
  simp [mentions, pieces, Expression.mentions, Comparison.piece]

@[simp] theorem mentions_isNull (negated : Bool) (tested : Expression) :
    (isNull negated tested).mentions = tested.mentions := by
  simp [mentions, pieces, Expression.mentions]

@[simp] theorem mentions_like (negated : Bool) (tested : Expression) (pattern : Text) :
    (like negated tested pattern).mentions = tested.mentions ++ [Mention.value pattern] := by
  simp [mentions, pieces, Expression.mentions, Literal.content]

@[simp] theorem mentions_isIn (negated : Bool) (tested : Expression) (values : List Literal) :
    (isIn negated tested values).mentions =
      tested.mentions ++ values.map fun value => .value value.content := by
  simp [mentions, pieces, Expression.mentions, mentions_literals]

@[simp] theorem mentions_between (negated : Bool) (tested : Expression) (low high : Literal) :
    (between negated tested low high).mentions =
      tested.mentions ++ [.value low.content, .value high.content] := by
  simp [mentions, pieces, Expression.mentions]

@[simp] theorem mentions_inUserTeams (negated : Bool) (tested : Expression) :
    (inUserTeams negated tested).mentions = tested.mentions := by
  simp [mentions, pieces, Expression.mentions, teamPieces]

theorem piecesEach_eq_map (parts : List Predicate) : piecesEach parts = parts.map pieces := by
  induction parts with
  | nil => rw [piecesEach, List.map_nil]
  | cons part parts ih => rw [piecesEach, ih, List.map_cons]

@[simp] theorem mentions_junction (connective : Connective) (parts : List Predicate) :
    (junction connective parts).mentions = parts.flatMap mentions := by
  have silent : Sql.mentions [connectivePiece connective] = [] := by
    cases connective <;> rfl
  rw [mentions, pieces, mentions_intercalate silent, piecesEach_eq_map, List.flatMap_map]
  rfl

@[simp] theorem mentions_grouped (inner : Predicate) : (grouped inner).mentions = inner.mentions := by
  simp [mentions, pieces]

@[simp] theorem mentions_linked (negated : Bool) (join : Join) :
    (linked negated join).mentions = join.mentions := by
  simp [mentions, pieces, mentions_joinPieces]

@[simp] theorem mentions_linkedWhere (negated : Bool) (join : Join) (inner : Predicate) :
    (linkedWhere negated join inner).mentions = join.mentions ++ inner.mentions := by
  simp [mentions, pieces, mentions_joinPieces]

@[simp] theorem mentions_parenthesised (predicate : Predicate) :
    predicate.parenthesised.mentions = predicate.mentions := by
  rw [parenthesised]
  split
  · exact mentions_grouped predicate
  · rfl

/-- Siblings that all have to hold are mentioned one after the other. -/
theorem mentions_all? (parts : List Predicate) :
    (all? parts).toList.flatMap mentions = parts.flatMap mentions := by
  match parts with
  | [] => rfl
  | [only] => rfl
  | first :: second :: others => simp [all?, List.flatMap_map]

end Predicate

end Sql

end TabularModel
