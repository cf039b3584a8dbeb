import TabularModel.Proofs.Sql.Pieces

/-!
# The shape of a predicate

What is left of the pieces of a predicate when names are not told apart, nor
values that are written in the same way. Fixed words and marks stay what they are.
-/

set_option autoImplicit false

namespace TabularModel

namespace Sql

inductive Shape where
  | fixed (lexeme : Lexeme)
  | varying (kind : Lexeme.Kind)
deriving DecidableEq, Repr

namespace Shape

def kind : Shape -> Lexeme.Kind
  | .fixed lexeme => lexeme.kind
  | .varying kind => kind

end Shape

def Piece.shape : Piece -> Shape
  | .fixed lexeme => .fixed lexeme
  | .identifier _ => .varying .identifier
  | .literal value => .varying value.lexeme.kind

theorem Piece.kind_lexeme (piece : Piece) : piece.lexeme.kind = piece.shape.kind := by
  cases piece with
  | fixed lexeme => rfl
  | identifier name => exact Lexeme.kind_ofName name
  | literal value => rfl

def shapes (pieces : List Piece) : List Shape :=
  pieces.map Piece.shape

@[simp] theorem shapes_append (front back : List Piece) :
    shapes (front ++ back) = shapes front ++ shapes back :=
  List.map_append

theorem shapes_intercalate (between : List Piece) (parts : List (List Piece)) :
    shapes (between.intercalate parts) = (shapes between).intercalate (parts.map shapes) := by
  induction parts with
  | nil => rfl
  | cons part parts ih =>
      cases parts with
      | nil => simp [shapes]
      | cons next parts =>
          rw [List.intercalate_cons_cons, List.map_cons, List.map_cons, List.intercalate_cons_cons,
            ← List.map_cons, ← ih]
          simp [shapes]

/-- The kinds of the lexemes follow from the shapes. -/
theorem map_kind_lexeme (pieces : List Piece) :
    (pieces.map Piece.lexeme).map Lexeme.kind = (shapes pieces).map Shape.kind := by
  rw [shapes, List.map_map, List.map_map]
  exact List.map_congr_left fun piece _ => piece.kind_lexeme

/-- Two expressions that differ in names and values alone. -/
def Expression.Alike (left right : Expression) : Prop :=
  shapes left.pieces = shapes right.pieces

namespace Expression

theorem alike_column (tableAlias otherAlias name other : Text) :
    Alike (column tableAlias name) (column otherAlias other) := rfl

theorem alike_literal {value other : Literal} (same : value.lexeme.kind = other.lexeme.kind) :
    Alike (literal value) (literal other) := by
  simp [Alike, shapes, pieces, Piece.shape, same]

variable {left right : Expression} (part : DatePart) (count : Int) (alike : Alike left right)
include alike

theorem Alike.dateAdd : Alike (dateAdd part count left) (dateAdd part count right) := by
  unfold Alike at alike ⊢
  simp only [pieces, shapes_append, alike]

theorem Alike.partOf : Alike (partOf part left) (partOf part right) := by
  unfold Alike at alike ⊢
  simp only [pieces, shapes_append, alike]

theorem Alike.monthOf : Alike (monthOf left) (monthOf right) := by
  unfold Alike at alike ⊢
  simp only [pieces, shapes_append, alike]

theorem Alike.yearOf : Alike (yearOf left) (yearOf right) := by
  unfold Alike at alike ⊢
  simp only [pieces, shapes_append, alike]

theorem Alike.asDate : Alike (asDate left) (asDate right) := by
  unfold Alike at alike ⊢
  simp only [pieces, shapes_append, alike]

end Expression

/-- What a predicate adds to the shape of a larger one. -/
structure Profile where
  shapes : List Shape
  isCompound : Bool
deriving DecidableEq, Repr

namespace Predicate

def profile (predicate : Predicate) : Profile :=
  ⟨Sql.shapes predicate.pieces, predicate.isCompound⟩

theorem profile_compare (comparison : Comparison) {left right left' right' : Expression}
    (first : left.Alike left') (second : right.Alike right') :
    profile (compare comparison left right) = profile (compare comparison left' right') := by
  unfold Expression.Alike at first second
  simp only [profile, isCompound, pieces, shapes_append, first, second]

section Tests

variable {tested tested' : Expression} (negated : Bool) (alike : tested.Alike tested')
include alike

theorem profile_isNull : profile (isNull negated tested) = profile (isNull negated tested') := by
  unfold Expression.Alike at alike
  simp only [profile, isCompound, pieces, shapes_append, alike]

theorem profile_like (pattern other : Text) :
    profile (like negated tested pattern) = profile (like negated tested' other) := by
  have strings : shapes [.literal (.string pattern)] = shapes [.literal (.string other)] := rfl
  unfold Expression.Alike at alike
  simp only [profile, isCompound, pieces, shapes_append, alike, strings]

theorem profile_inUserTeams :
    profile (inUserTeams negated tested) = profile (inUserTeams negated tested') := by
  unfold Expression.Alike at alike
  simp only [profile, isCompound, pieces, shapes_append, alike]

/-- The kinds of literals in the order in which they are written. -/
def literalKinds (values : List Literal) : List Lexeme.Kind :=
  values.map fun value => value.lexeme.kind

omit alike in
theorem map_shapes_literals (values : List Literal) :
    (values.map fun value => [Piece.literal value]).map Sql.shapes =
      (literalKinds values).map fun kind => [Shape.varying kind] := by
  simp [literalKinds, Sql.shapes, Piece.shape]

theorem profile_isIn {values others : List Literal}
    (same : literalKinds values = literalKinds others) :
    profile (isIn negated tested values) = profile (isIn negated tested' others) := by
  unfold Expression.Alike at alike
  simp only [profile, isCompound, pieces, shapes_append, shapes_intercalate, map_shapes_literals,
    alike, same]

theorem profile_between {low high low' high' : Literal}
    (same : literalKinds [low, high] = literalKinds [low', high']) :
    profile (between negated tested low high) = profile (between negated tested' low' high') := by
  obtain ⟨lowKind, highKind⟩ : low.lexeme.kind = low'.lexeme.kind ∧
      high.lexeme.kind = high'.lexeme.kind := by
    simpa [literalKinds] using same
  unfold Expression.Alike at alike
  simp only [profile, isCompound, pieces, shapes_append, alike]
  simp only [Sql.shapes, List.map_cons, List.map_nil, Piece.shape, lowKind, highKind]

end Tests

/-! ## Junctions and links -/

theorem map_shapes_piecesEach (parts : List Predicate) :
    (piecesEach parts).map Sql.shapes = (parts.map profile).map Profile.shapes := by
  induction parts with
  | nil => rw [piecesEach, List.map_nil, List.map_nil, List.map_nil]
  | cons part parts ih =>
      rw [piecesEach, List.map_cons, ih]
      rfl

theorem profile_junction (connective : Connective) {parts others : List Predicate}
    (same : parts.map profile = others.map profile) :
    profile (junction connective parts) = profile (junction connective others) := by
  simp only [profile, isCompound, pieces, shapes_intercalate, map_shapes_piecesEach]
  rw [same]

theorem profile_grouped {inner other : Predicate} (same : inner.profile = other.profile) :
    profile (grouped inner) = profile (grouped other) := by
  have inside : Sql.shapes inner.pieces = Sql.shapes other.pieces := congrArg Profile.shapes same
  simp only [profile, isCompound, pieces, shapes_append, inside]

/-- Joins write their names in the same places. -/
theorem shapes_join (join other : Join) : Sql.shapes join.pieces = Sql.shapes other.pieces := rfl

theorem profile_linked (negated : Bool) (join other : Join) :
    profile (linked negated join) = profile (linked negated other) := by
  simp only [profile, isCompound, pieces, shapes_append, shapes_join join other]

theorem profile_linkedWhere (negated : Bool) (join joinOther : Join) {inner other : Predicate}
    (same : inner.profile = other.profile) :
    profile (linkedWhere negated join inner) = profile (linkedWhere negated joinOther other) := by
  have inside : Sql.shapes inner.pieces = Sql.shapes other.pieces := congrArg Profile.shapes same
  simp only [profile, isCompound, pieces, shapes_append, shapes_join join joinOther, inside]

theorem profile_parenthesised {predicate other : Predicate}
    (same : predicate.profile = other.profile) :
    predicate.parenthesised.profile = other.parenthesised.profile := by
  have compound : predicate.isCompound = other.isCompound := congrArg Profile.isCompound same
  rw [parenthesised, parenthesised, compound]
  split
  · exact profile_grouped same
  · exact same

theorem map_profile_parenthesised {parts others : List Predicate}
    (same : parts.map profile = others.map profile) :
    (parts.map parenthesised).map profile = (others.map parenthesised).map profile := by
  induction parts generalizing others with
  | nil =>
      rw [List.map_nil, eq_comm, List.map_eq_nil_iff] at same
      rw [same]
  | cons part parts ih =>
      cases others with
      | nil => cases same
      | cons other others =>
          rw [List.map_cons, List.map_cons, List.cons.injEq] at same
          rw [List.map_cons, List.map_cons, List.map_cons, List.map_cons,
            profile_parenthesised same.1, ih same.2]

theorem map_profile_all? {parts others : List Predicate}
    (same : parts.map profile = others.map profile) :
    (all? parts).map profile = (all? others).map profile := by
  have joined := profile_junction .and (map_profile_parenthesised same)
  match parts, others, same with
  | [], [], _ => rfl
  | [only], [other], same => exact congrArg some (List.cons.inj same).1
  | _ :: _ :: _, _ :: _ :: _, _ => exact congrArg some joined
  | [_], _ :: _ :: _, same => simp at same
  | _ :: _ :: _, [_], same => simp at same

end Predicate

end Sql

end TabularModel
