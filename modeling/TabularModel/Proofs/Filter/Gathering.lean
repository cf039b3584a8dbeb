import TabularModel.Proofs.Filter.Links

/-!
# What is gathered from a row filter

What is gathered from the parts of a predicate, one after the other, is not changed by the
parentheses and connectives that a conversion puts around them.
-/

set_option autoImplicit false

namespace TabularModel

namespace Filter

open Sql (Predicate)

variable {α : Type}

/-- Something is gathered from a predicate part by part. -/
structure IsGathered (gather : Predicate -> List α) : Prop where
  junction : ∀ connective parts, gather (.junction connective parts) = parts.flatMap gather
  grouped : ∀ inner, gather (.grouped inner) = gather inner

namespace IsGathered

variable {gather : Predicate -> List α} (gathered : IsGathered gather)
include gathered

theorem parenthesised (predicate : Predicate) :
    gather predicate.parenthesised = gather predicate := by
  rw [Predicate.parenthesised]
  split
  · exact gathered.grouped predicate
  · rfl

theorem all? (parts : List Predicate) :
    (Predicate.all? parts).toList.flatMap gather = parts.flatMap gather := by
  match parts with
  | [] => rfl
  | [only] => rfl
  | first :: second :: others =>
      simp [Predicate.all?, gathered.junction, List.flatMap_map, gathered.parenthesised]

theorem join (connective : Connective) (parts : List Predicate) :
    (Group.join connective parts).toList.flatMap gather = parts.flatMap gather := by
  match parts with
  | [] => rfl
  | [only] => rfl
  | first :: second :: others => simp [Group.join, gathered.junction]

theorem grouped? (predicate : Option Predicate) :
    (predicate.map Predicate.grouped).toList.flatMap gather =
      predicate.toList.flatMap gather := by
  cases predicate <;> simp [gathered.grouped]

/-- What is gathered inside a link may depend on the link. -/
theorem linkPredicate {around : Predicate -> List α} {negated : Bool} {join : Sql.Join}
    {front : List α} (alone : around (.linked negated join) = front)
    (joined : ∀ inner, around (.linkedWhere negated join inner) = front ++ gather inner)
    (parts : List Predicate) :
    around (Filter.linkPredicate negated join parts) = front ++ parts.flatMap gather := by
  have inside := gathered.all? parts
  rw [Filter.linkPredicate]
  split
  · next empty =>
      rw [empty] at inside
      rw [alone, ← inside, Option.toList_none, List.flatMap_nil, List.append_nil]
  · next condition found =>
      rw [found] at inside
      rw [joined, ← inside, Option.toList_some, List.flatMap_singleton]

end IsGathered

end Filter

end TabularModel
