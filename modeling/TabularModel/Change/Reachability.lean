import TabularModel.SortedMap

/-!
# Reachability of tables

Which tables are out of reach from one of them, along relationships from their
source to their target. Relationships with other tables do not count.
-/

set_option autoImplicit false

namespace TabularModel

namespace Reachability

/-- The tables to which an edge leads from the given one. -/
def nextTo (edges : List (Text × Text)) (table : Text) (tables : List Text) : List Text :=
  tables.filter fun other => edges.contains (table, other)

def notNextTo (edges : List (Text × Text)) (table : Text) (tables : List Text) : List Text :=
  tables.filter fun other => !edges.contains (table, other)

theorem length_nextTo (edges : List (Text × Text)) (table : Text) (tables : List Text) :
    (nextTo edges table tables).length + (notNextTo edges table tables).length =
      tables.length := by
  induction tables with
  | nil => rfl
  | cons other tables ih =>
      by_cases next : edges.contains (table, other) = true <;>
        simp only [nextTo, notNextTo, List.filter_cons, next, if_true, if_false, Bool.not_true,
          Bool.not_false, Bool.false_eq_true, List.length_cons] at ih ⊢ <;> omega

/-- The tables among `unseen` that no path from a waiting table reaches. Every
step takes one waiting table and lets the unseen ones next to it wait. -/
def leftOver (edges : List (Text × Text)) : (waiting unseen : List Text) -> List Text
  | [], unseen => unseen
  | table :: waiting, unseen =>
      leftOver edges (waiting ++ nextTo edges table unseen) (notNextTo edges table unseen)
termination_by waiting unseen => waiting.length + unseen.length
decreasing_by
  have both := length_nextTo edges table unseen
  simp only [List.length_append, List.length_cons]
  omega

/-- The distinct names in their order. -/
def names (tables : List Text) : List Text :=
  (SortedMap.ofList (tables.map fun table => (table, ()))).keys

/-- The tables that no path from `start` reaches; none if that is no table. -/
def unreachable (tables : List Text) (edges : List (Text × Text)) (start : Text) : List Text :=
  if tables.contains start then
    leftOver edges [start] ((names tables).filter (· != start))
  else []

end Reachability

end TabularModel
