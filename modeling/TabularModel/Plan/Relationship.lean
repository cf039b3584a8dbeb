import TabularModel.Definition.Relationship
import TabularModel.Plan.Table

/-!
# The relationships of a plan

Every edge between chosen tables either becomes a relationship from the key
column of a lookup to the key of its target, or is left out for a reason. The
calendar adds one relationship at the end.
-/

set_option autoImplicit false

namespace TabularModel

namespace Plan

open Catalog (Edge)

inductive EdgeProblem where
  | sourceNotSelected
  | targetNotSelected
  | idExcluded
  | lookupNotSelected
  | targetWithoutKey
  | duplicate
deriving DecidableEq, Repr

namespace EdgeProblem

def reason : EdgeProblem -> Text
  | .sourceNotSelected => "source table is not selected"
  | .targetNotSelected => "target table is not selected"
  | .idExcluded => "id column is excluded"
  | .lookupNotSelected => "lookup attribute is not selected"
  | .targetWithoutKey => "target has no key column"
  | .duplicate => "duplicate edge"

def message (problem : EdgeProblem) (edge : Edge) : Text :=
  edge.sourceTable ++ "." ++ edge.sourceAttribute ++ " -> " ++ edge.targetTable ++ ": " ++
    problem.reason

end EdgeProblem

/-- An edge that is left out, reported for a table. -/
structure SkippedEdge where
  edge : Edge
  table : Text
  problem : EdgeProblem
deriving DecidableEq, Repr

def tableNamed? (plans : List Table) (logicalName : Text) : Option Table :=
  plans.find? fun plan => Text.sameIgnoringCase plan.logicalName logicalName

/-- The relationship of an edge, without regard to the other edges. -/
def relationshipOf (plans : List Table) (edge : Edge) :
    Except SkippedEdge Definition.Relationship :=
  match tableNamed? plans edge.sourceTable with
  | none => .error ⟨edge, edge.sourceTable, .sourceNotSelected⟩
  | some source =>
      match tableNamed? plans edge.targetTable with
      | none => .error ⟨edge, source.name, .targetNotSelected⟩
      | some target =>
          let lookup := Text.lower edge.sourceAttribute
          match source.idColumns.get? lookup with
          | none =>
              if source.excludedIds.contains lookup then .error ⟨edge, source.name, .idExcluded⟩
              else .error ⟨edge, source.name, .lookupNotSelected⟩
          | some column =>
              match target.keyColumn? with
              | none => .error ⟨edge, source.name, .targetWithoutKey⟩
              | some key =>
                  .ok {
                    source := Name.columnReference source.name column
                    target := Name.columnReference target.name key
                    isActive := edge.isActive
                    isSnowflake := edge.isSnowflake
                    assumesIntegrity := edge.assumesIntegrity }

/-- The name under which a problem of an edge is reported. -/
def reportedTable (plans : List Table) (edge : Edge) : Text :=
  ((tableNamed? plans edge.sourceTable).map (·.name)).getD edge.sourceTable

def haveSameEnds (left right : Definition.Relationship) : Bool :=
  left.source == right.source && left.target == right.target

/-- What becomes of each edge, in order. Of edges with the same ends only the
first becomes a relationship. -/
def relationshipsFrom (plans : List Table) (earlier : List Definition.Relationship) :
    List Edge -> List (Except SkippedEdge Definition.Relationship)
  | [] => []
  | edge :: edges =>
      match relationshipOf plans edge with
      | .error skipped => .error skipped :: relationshipsFrom plans earlier edges
      | .ok relationship =>
          if earlier.any (haveSameEnds relationship) then
            .error ⟨edge, reportedTable plans edge, .duplicate⟩ ::
              relationshipsFrom plans earlier edges
          else .ok relationship :: relationshipsFrom plans (earlier ++ [relationship]) edges

def ofEdges (plans : List Table) (edges : List Edge) :
    List (Except SkippedEdge Definition.Relationship) :=
  relationshipsFrom plans [] edges

/-- The relationship from a column to the calendar. -/
def calendarRelationship (column : Text) : Definition.Relationship :=
  .plain column (Name.columnReference Convention.calendarTable Convention.calendarColumn)

end Plan

end TabularModel
