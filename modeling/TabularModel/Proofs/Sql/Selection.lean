import TabularModel.Proofs.Sql.Mentions
import TabularModel.Sql.Select

/-!
# The pieces of a query

A query is read as the pieces of its columns, its table and its filter. A filter
that is read as anything at all is not blank, so it is not left out.
-/

set_option autoImplicit false

namespace TabularModel

namespace Sql

/-! ## Filters that are not blank -/

theorem lexemes_of_allBlank {text : Text} (blank : Text.allBlank text = true) :
    lexemes text = [] := by
  induction text with
  | nil => rfl
  | cons c text ih =>
      rw [Text.allBlank, List.all_cons, Bool.and_eq_true] at blank
      have skipped : Reading.step .between c = ([], .between) := by
        rw [Reading.step, Reading.start, if_pos blank.1]
      rw [lexemes, lexFrom, skipped]
      exact ih blank.2

theorem unlessBlank_of_writes {text : Text} {pieces : List Piece} (writes : Writes text pieces)
    (nonempty : pieces ≠ []) : Text.unlessBlank text = some text := by
  rw [Text.unlessBlank, if_neg]
  intro blank
  have read := Spells.lexemes_eq writes
  rw [lexemes_of_allBlank blank, eq_comm, List.map_eq_nil_iff] at read
  exact nonempty read

theorem Predicate.IsSound.pieces_ne_nil {predicate : Predicate} (sound : predicate.IsSound) :
    predicate.pieces ≠ [] := by
  cases sound with
  | @junction connective parts several _ _ =>
      match parts, several with
      | first :: second :: others, _ =>
          rw [Predicate.pieces, Predicate.piecesEach, Predicate.piecesEach,
            List.intercalate_cons_cons]
          simp
  | _ => simp [Predicate.pieces, teamPieces]

/-! ## Columns and tables -/

namespace SelectColumn

def pieces (column : SelectColumn) : List Piece :=
  match column.label with
  | some label => column.expression.pieces ++ [.word "AS"] ++ [.identifier label]
  | none => column.expression.pieces

def mentions (column : SelectColumn) : List Mention :=
  column.expression.mentions ++ (column.label.map Mention.name).toList

theorem mentions_pieces (column : SelectColumn) : Sql.mentions column.pieces = column.mentions := by
  rw [pieces, mentions, Expression.mentions]
  cases column.label <;> simp

theorem writes {column : SelectColumn} (sound : column.expression.IsSound) :
    Writes column.render column.pieces := by
  have as : Opens " AS " [.word "AS"] := opens_of_readFrom (by decide +kernel)
  rw [render, pieces]
  cases column.label with
  | some label => exact (sound.writes.opens as rfl).writes (writes_identifier label)
  | none => exact sound.writes

end SelectColumn

namespace Select

def columnPieces (query : Select) : List Piece :=
  if query.columns.isEmpty then [.mark "*"]
  else [.mark ","].intercalate (query.columns.map SelectColumn.pieces)

/-- The pieces of a query in front of its filter. -/
def pieces (query : Select) : List Piece :=
  [.word "SELECT"] ++ query.columnPieces ++ [.word "FROM"] ++ [.identifier query.table] ++
    [.word "AS"] ++ [.identifier query.tableAlias]

def mentions (query : Select) : List Mention :=
  query.columns.flatMap SelectColumn.mentions ++ [.name query.table, .name query.tableAlias]

theorem mentions_pieces (query : Select) : Sql.mentions query.pieces = query.mentions := by
  have columns : Sql.mentions query.columnPieces = query.columns.flatMap SelectColumn.mentions := by
    rw [columnPieces]
    cases query.columns with
    | nil => rfl
    | cons column columns =>
        rw [List.isEmpty_cons, if_neg Bool.false_ne_true, mentions_intercalate rfl,
          List.flatMap_map]
        exact congrArg (List.flatMap · _) (funext SelectColumn.mentions_pieces)
  simp [pieces, mentions, columns]

/-- The text of the columns. -/
def columnText (query : Select) : Text :=
  if query.columns.isEmpty then "*" else Text.joined ", " (query.columns.map SelectColumn.render)

variable {query : Select} (sound : ∀ column ∈ query.columns, column.expression.IsSound)
include sound

theorem writes_columnText : Writes query.columnText query.columnPieces := by
  have comma : Opens ", " [.mark ","] := opens_of_readFrom (by decide +kernel)
  have all : Opens "*" [.mark "*"] := opens_of_readFrom (by decide +kernel)
  rw [columnText, columnPieces]
  split
  · exact Leads.spells all
  · refine writes_joined comma rfl ?_
    rw [List.forall₂_map_left_iff, List.forall₂_map_right_iff, List.forall₂_same]
    exact fun column member => SelectColumn.writes (sound column member)

/-- A query without a filter is read as its pieces. -/
theorem writes_of_unfiltered (unfiltered : query.filter = none) :
    Writes query.render query.pieces := by
  have select : Opens "SELECT " [.word "SELECT"] := opens_of_readFrom (by decide +kernel)
  have source : Opens " FROM " [.word "FROM"] := opens_of_readFrom (by decide +kernel)
  have as : Opens " AS " [.word "AS"] := opens_of_readFrom (by decide +kernel)
  have columns := (select.writes (writes_columnText sound)).opens source rfl
  have table := (columns.writes (writes_identifier query.table)).opens as rfl
  rw [render, unfiltered]
  exact table.writes (writes_identifier query.tableAlias)

/-- A filter that is read as some pieces is read as the same ones in a query. -/
theorem writes_withFilter (unfiltered : query.filter = none) {clause : Text} {written : List Piece}
    (writes : Writes clause written) (nonempty : written ≠ []) :
    Writes (query.withFilter clause).render (query.pieces ++ [.word "WHERE"] ++ written) := by
  have condition : Opens " WHERE " [.word "WHERE"] := opens_of_readFrom (by decide +kernel)
  have front := (writes_of_unfiltered sound unfiltered).opens condition rfl
  have shape : (query.withFilter clause).render = query.render ++ " WHERE " ++ clause := by
    rw [withFilter, unlessBlank_of_writes writes nonempty, render, render, unfiltered]
  rw [shape]
  exact front.writes writes

end Select

end Sql

end TabularModel
