import TabularModel.Proofs.Sql.Selection
import TabularModel.Proofs.Sql.Tests

/-!
# The select list of a query

The entries of a select list stand between `SELECT` and `FROM`, with commas between
them. What is in parentheses separates nothing, and what stands behind `AS` is a name
whatever word it is. An entry gives its column the name behind its `AS`, or else that
of the column that it is.
-/

set_option autoImplicit false

namespace TabularModel

namespace Sql

/-! ## Reading a select list -/

namespace Term

def comma : Term := .lexeme (.mark ",")

end Term

/-- The entries up to the `FROM` that ends them, from a place in so many parentheses
and maybe behind the `AS` of an entry. -/
def entries? (depth : Nat) (isName : Bool) : List Term -> Option (List (List Term))
  | [] => none
  | term :: rest =>
      if depth = 0 ∧ isName = false ∧ term.isKeyword "FROM" then some [[]]
      else if depth = 0 ∧ term = .comma then (entries? 0 false rest).map ([] :: ·)
      else
        let beforeName := depth == 0 && !isName && term.isKeyword "AS"
        (entries? (depthAfter depth term) beforeName rest).map (List.modifyHead (term :: ·))

/-- The select list that a text begins with. -/
def selectList? (text : Text) : Option (List (List Term)) :=
  match terms (lexemes text) with
  | select :: rest => if select.isKeyword "SELECT" then entries? 0 false rest else none
  | [] => none

/-- The name of the column of the result that comes from an entry. -/
def resultName? (entry : List Term) : Option Text :=
  match entry.reverse with
  | [.column _ name] => some name
  | .lexeme label :: as :: _ => if as.isKeyword "AS" then label.name? else none
  | _ => none

/-! ## Terms of one entry -/

/-- Terms that belong to one entry and leave its place in no parentheses. -/
def IsListed (terms : List Term) : Prop :=
  ∀ rest, entries? 0 false (terms ++ rest) =
    (entries? 0 false rest).map (List.modifyHead (terms ++ ·))

section

variable {terms front back : List Term} {term : Term}

theorem modifyHead_append (entries : Option (List (List Term))) (front back : List Term) :
    (entries.map (List.modifyHead (back ++ ·))).map (List.modifyHead (front ++ ·)) =
      entries.map (List.modifyHead (front ++ back ++ ·)) := by
  rw [Option.map_map]
  congr 1
  funext entries
  rw [Function.comp_apply, List.modifyHead_modifyHead]
  congr 1
  funext entry
  exact (List.append_assoc front back entry).symm

theorem IsListed.append (first : IsListed front) (second : IsListed back) :
    IsListed (front ++ back) := by
  intro rest
  rw [List.append_assoc, first, second, modifyHead_append]

/-- In parentheses every term belongs to the entry. -/
theorem entries?_of_closed? {depth : Nat} {terms inside back : List Term}
    (closed : closed? depth terms = some (inside, back)) :
    entries? (depth + 1) false terms =
      (entries? 0 false back).map (List.modifyHead (inside ++ [.closing] ++ ·)) := by
  induction terms generalizing depth inside with
  | nil => cases closed
  | cons term rest ih =>
      have noEnd : ¬ (depth + 1 = 0 ∧ false = false ∧ term.isKeyword "FROM" = true) :=
        fun ends => absurd ends.1 depth.succ_ne_zero
      have noComma : ¬ (depth + 1 = 0 ∧ term = .comma) :=
        fun separates => absurd separates.1 depth.succ_ne_zero
      have noName : (depth + 1 == 0 && !false && term.isKeyword "AS") = false := rfl
      rw [closed?] at closed
      rw [entries?, if_neg noEnd, if_neg noComma]
      simp only [noName]
      split at closed
      · next ends =>
          obtain ⟨rfl, rfl⟩ := ends
          cases closed
          rfl
      · next inner =>
          obtain ⟨⟨found, behind⟩, later, same⟩ := Option.map_eq_some_iff.mp closed
          cases same
          have deeper : depthAfter (depth + 1) term = depthAfter depth term + 1 := by
            rw [depthAfter, depthAfter]
            split
            · rfl
            · split
              · next closing =>
                  have positive : depth ≠ 0 := fun zero => inner ⟨zero, closing⟩
                  omega
              · rfl
          rw [deeper, ih later]
          exact modifyHead_append (entries? 0 false back) [term] (found ++ [.closing])

theorem isListed_enclosed (inner : IsBalanced terms) :
    IsListed (Term.opening :: terms ++ [Term.closing]) := by
  intro rest
  have opened : depthAfter 0 .opening = 1 := rfl
  have inside := entries?_of_closed? (closed?_enclosed inner rest)
  have begins : entries? 0 false (Term.opening :: (terms ++ Term.closing :: rest)) =
      (entries? 1 false (terms ++ Term.closing :: rest)).map (List.modifyHead (.opening :: ·)) := rfl
  rw [enclosed_append, begins, inside]
  exact modifyHead_append (entries? 0 false rest) [.opening] (terms ++ [.closing])

/-- A term that opens nothing, ends nothing and names nothing. -/
theorem isListed_single (noParenthesis : term.isParenthesis = false) (noComma : term ≠ .comma)
    (noFrom : term.isKeyword "FROM" = false) (noAs : term.isKeyword "AS" = false) :
    IsListed [term] := by
  intro rest
  have noEnd : ¬ (0 = 0 ∧ false = false ∧ term.isKeyword "FROM" = true) :=
    fun ends => Bool.noConfusion (noFrom.symm.trans ends.2.2)
  have noSeparator : ¬ (0 = 0 ∧ term = .comma) := fun separates => noComma separates.2
  rw [List.singleton_append, entries?, if_neg noEnd, if_neg noSeparator,
    depthAfter_of_not_isParenthesis 0 noParenthesis]
  simp only [noAs, Bool.and_false]
  rfl

/-- A name behind `AS`. -/
theorem isListed_label (label : Text) :
    IsListed [.lexeme (.word "AS"), .lexeme (.ofName label)] := by
  intro rest
  have shape : (Term.lexeme (.ofName label)).isParenthesis = false ∧
      Term.lexeme (.ofName label) ≠ .comma := by
    rw [Lexeme.ofName]
    split <;> exact ⟨rfl, fun same => by cases same⟩
  have begins (more : List Term) : entries? 0 false (.lexeme (.word "AS") :: more) =
      (entries? 0 true more).map (List.modifyHead (.lexeme (.word "AS") :: ·)) := rfl
  have noEnd : ¬ (0 = 0 ∧ true = false ∧
      (Term.lexeme (.ofName label)).isKeyword "FROM" = true) :=
    fun ends => Bool.noConfusion ends.2.1
  have noSeparator : ¬ (0 = 0 ∧ Term.lexeme (.ofName label) = .comma) :=
    fun separates => shape.2 separates.2
  rw [List.cons_append, List.singleton_append, begins, entries?, if_neg noEnd, if_neg noSeparator,
    depthAfter_of_not_isParenthesis 0 shape.1]
  exact modifyHead_append (entries? 0 false rest) [_] [_]

end

theorem isListed_of_isOperand_single {term : Term} (operand : term.isOperand = true) :
    IsListed [term] := by
  simp only [Term.isOperand, Term.isPlain, Bool.and_eq_true, Bool.not_eq_true', bne_iff_ne] at operand
  obtain ⟨⟨⟨⟨⟨⟨⟨noParenthesis, _⟩, _⟩, _⟩, _⟩, noComma⟩, noAs⟩, noFrom⟩ := operand
  exact isListed_single noParenthesis noComma noFrom noAs

theorem IsOperand.isListed {pieces : List Piece} (operand : IsOperand pieces) :
    IsListed (termsOf pieces) := by
  cases operand with
  | column tableAlias name =>
      rw [termsOf_columnPieces]
      exact isListed_single rfl (fun same => by cases same) rfl rfl
  | single apart operand => exact isListed_of_isOperand_single operand
  | @call name operand inner balanced =>
      have shape : [Piece.word name, Piece.mark "("] ++ inner ++ [Piece.mark ")"] =
          [Piece.word name] ++ ([Piece.mark "("] ++ inner ++ [Piece.mark ")"]) := by simp
      have closed := (isClosedPhrase_enclosed balanced).phrase
      rw [shape, termsOf_append ⟨rfl, rfl⟩ closed, termsOf_enclosed balanced.phrase]
      exact (isListed_of_isOperand_single operand).append (isListed_enclosed balanced.balanced)

/-! ## Entries of a query -/

namespace SelectColumn

variable {column : SelectColumn} (sound : column.expression.IsSound)
include sound

theorem isPhrase_pieces : IsPhrase column.pieces := by
  have phrase := sound.isTestPhrase.phrase
  rw [pieces]
  cases column.label with
  | none => exact phrase
  | some label => exact (phrase.append ⟨rfl, rfl⟩).append ⟨rfl, rfl⟩

theorem termsOf_pieces_of_label {label : Text} (labelled : column.label = some label) :
    termsOf column.pieces = termsOf column.expression.pieces ++
      [.lexeme (.word "AS"), .lexeme (.ofName label)] := by
  have phrase := sound.isTestPhrase.phrase
  rw [pieces, labelled]
  simp only
  rw [List.append_assoc, termsOf_append phrase ⟨rfl, rfl⟩]
  rfl

theorem isListed_pieces : IsListed (termsOf column.pieces) := by
  have listed := sound.isOperand.isListed
  cases labelled : column.label with
  | none =>
      rw [pieces, labelled]
      exact listed
  | some label =>
      rw [termsOf_pieces_of_label sound labelled]
      exact listed.append (isListed_label label)

/-- An entry with a label has that name. -/
theorem resultName?_of_label {label : Text} (labelled : column.label = some label) :
    resultName? (termsOf column.pieces) = some label := by
  rw [termsOf_pieces_of_label sound labelled, resultName?, List.reverse_append]
  exact Lexeme.name?_ofName label

end SelectColumn

theorem resultName?_column (tableAlias name : Text) :
    resultName? (termsOf (SelectColumn.pieces ⟨.column tableAlias name, none⟩)) = some name := by
  have pieces : SelectColumn.pieces ⟨.column tableAlias name, none⟩ =
    columnPieces tableAlias name := rfl
  rw [pieces, termsOf_columnPieces]
  rfl

/-- Entries with commas between them are read one by one. -/
theorem entries?_intercalate {parts : List (List Piece)} (nonempty : parts ≠ [])
    (phrase : ∀ part ∈ parts, IsPhrase part) (listed : ∀ part ∈ parts, IsListed (termsOf part))
    (back : List Term) :
    entries? 0 false
        (termsOf ([Piece.mark ","].intercalate parts) ++ .lexeme (.word "FROM") :: back) =
      some (parts.map termsOf) := by
  have ends : entries? 0 false (.lexeme (.word "FROM") :: back) = some [[]] := rfl
  have separates (rest : List Term) : entries? 0 false (Term.comma :: rest) =
      (entries? 0 false rest).map ([] :: ·) := rfl
  have comma : termsOf [Piece.mark ","] = [Term.comma] := rfl
  induction parts with
  | nil => exact absurd rfl nonempty
  | cons part parts ih =>
      have first := listed part List.mem_cons_self
      cases parts with
      | nil =>
          have alone : [Piece.mark ","].intercalate [part] = part := by simp [List.intercalate]
          rw [alone, first, ends]
          simp
      | cons next parts =>
          have others := ih (List.cons_ne_nil next parts)
            (fun other member => phrase other (List.mem_cons_of_mem part member))
            (fun other member => listed other (List.mem_cons_of_mem part member))
          have isPhrase : IsPhrase ([Piece.mark ","].intercalate (next :: parts)) :=
            intercalate_of_append ⟨rfl, rfl⟩ IsPhrase.append ⟨rfl, rfl⟩
              fun other member => phrase other (List.mem_cons_of_mem part member)
          rw [List.intercalate_cons_cons, termsOf_append
              ((phrase part List.mem_cons_self).append ⟨rfl, rfl⟩) isPhrase,
            termsOf_append (phrase part List.mem_cons_self) ⟨rfl, rfl⟩, comma, List.append_assoc,
            List.append_assoc, first, List.singleton_append, separates, others]
          simp

namespace Select

variable {query : Select}

/-- Behind the pieces of a query follows at most its filter. -/
theorem exists_lexemes (sound : ∀ column ∈ query.columns, column.expression.IsSound) :
    ∃ back, back.head? ≠ some (.mark ".") ∧
      lexemes query.render = query.pieces.map Piece.lexeme ++ back := by
  have front : Writes { query with filter := none }.render query.pieces :=
    writes_of_unfiltered sound rfl
  cases filtered : query.filter with
  | none =>
      have whole : query = { query with filter := none } := by rw [← filtered]
      refine ⟨[], by simp, ?_⟩
      rw [whole, List.append_nil]
      exact Spells.lexemes_eq front
  | some clause =>
      have condition : Opens " WHERE " [.word "WHERE"] := opens_of_readFrom (by decide +kernel)
      have shape : query.render = { query with filter := none }.render ++ " WHERE " ++ clause := by
        rw [render, filtered]
        rfl
      refine ⟨.word "WHERE" :: lexemes clause, by simp, ?_⟩
      rw [shape, lexemes, front.opens condition rfl, List.map_append, List.append_assoc]
      rfl

theorem columnPieces_of_ne_nil (nonempty : query.columns ≠ []) :
    query.columnPieces = [.mark ","].intercalate (query.columns.map SelectColumn.pieces) := by
  rw [columnPieces, if_neg (by simpa using nonempty)]

/-- The terms of a query are those of its columns between `SELECT` and `FROM`, and what is
behind them. -/
theorem exists_termsOf_pieces (phrase : IsPhrase query.columnPieces) : ∃ behind,
    termsOf query.pieces = .lexeme (.word "SELECT") ::
      (termsOf query.columnPieces ++ .lexeme (.word "FROM") :: behind) := by
  let source : List Piece :=
    [.word "FROM"] ++ [.identifier query.table] ++ [.word "AS"] ++ [.identifier query.tableAlias]
  have whole : query.pieces = [.word "SELECT"] ++ (query.columnPieces ++ source) := by
    simp [pieces, source]
  have sourcePhrase : IsPhrase source := ⟨rfl, rfl⟩
  have noPoint : (Piece.identifier query.table).lexeme ≠ .mark "." := Piece.lexeme_ne_point rfl
  obtain ⟨behind, fromSource⟩ : ∃ behind, termsOf source = .lexeme (.word "FROM") :: behind :=
    ⟨_, terms_cons _ fun same => noPoint (Option.some.inj same)⟩
  refine ⟨behind, ?_⟩
  rw [whole, termsOf_append ⟨rfl, rfl⟩ (phrase.append sourcePhrase),
    termsOf_append phrase sourcePhrase, fromSource]
  rfl

theorem getLast?_lexemes_pieces : (query.pieces.map Piece.lexeme).getLast? ≠ some (.mark ".") := by
  have noPoint : (Piece.identifier query.tableAlias).lexeme ≠ .mark "." :=
    Piece.lexeme_ne_point rfl
  have last : query.pieces.getLast? = some (.identifier query.tableAlias) := by
    rw [pieces]
    exact List.getLast?_concat
  rw [List.getLast?_map, last]
  exact fun same => noPoint (Option.some.inj same)

/-- The select list of a query has one entry for each of its columns. -/
theorem selectList?_render (sound : ∀ column ∈ query.columns, column.expression.IsSound)
    (nonempty : query.columns ≠ []) :
    selectList? query.render =
      some (query.columns.map fun column => termsOf column.pieces) := by
  have phrase : ∀ part ∈ query.columns.map SelectColumn.pieces, IsPhrase part := by
    intro part member
    obtain ⟨column, inside, rfl⟩ := List.mem_map.mp member
    exact SelectColumn.isPhrase_pieces (sound column inside)
  have listed : ∀ part ∈ query.columns.map SelectColumn.pieces, IsListed (termsOf part) := by
    intro part member
    obtain ⟨column, inside, rfl⟩ := List.mem_map.mp member
    exact SelectColumn.isListed_pieces (sound column inside)
  have columns : IsPhrase query.columnPieces := by
    rw [columnPieces_of_ne_nil nonempty]
    exact intercalate_of_append ⟨rfl, rfl⟩ IsPhrase.append ⟨rfl, rfl⟩ phrase
  obtain ⟨back, apart, read⟩ := exists_lexemes sound
  obtain ⟨behind, front⟩ := exists_termsOf_pieces columns
  have isSelect : (Term.lexeme (.word "SELECT")).isKeyword "SELECT" = true := by decide
  have split : terms (query.pieces.map Piece.lexeme) = _ := front
  rw [selectList?, read, terms_append getLast?_lexemes_pieces apart, split, List.cons_append]
  simp only
  rw [if_pos isSelect, List.append_assoc, List.cons_append, columnPieces_of_ne_nil nonempty,
    entries?_intercalate (by simpa using nonempty) phrase listed, List.map_map]
  rfl

example : (selectList? "SELECT Base.[a, b], CAST(Base.day AS DATE) AS from FROM t AS Base").bind
    (·.mapM resultName?) = some [("a, b" : Text), ("from" : Text)] := by
  decide +kernel

end Select

end Sql

end TabularModel
