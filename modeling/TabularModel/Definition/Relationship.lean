import TabularModel.Definition.Convention
import TabularModel.Definition.Line

/-!
# Relationships of a definition file
-/

set_option autoImplicit false

namespace TabularModel

namespace Definition

/-- A relationship between two columns, given by their references. -/
structure Relationship where
  source : Text
  target : Text
  isActive : Bool
  isSnowflake : Bool
  assumesIntegrity : Bool
deriving DecidableEq, Repr

namespace Relationship

def plain (source target : Text) : Relationship :=
  ⟨source, target, true, false, false⟩

def mark (name : Text) : List Line :=
  [line ("annotation " ++ name ++ " = true"), .blank]

def lines (relationship : Relationship) (name : Text) : List Line :=
  line ("relationship " ++ name) ::
    Line.nested
      ((if relationship.isActive then [] else [line "isActive: false"]) ++
        (if relationship.assumesIntegrity then [line "relyOnReferentialIntegrity"] else []) ++
        [ line ("fromColumn: " ++ relationship.source),
          line ("toColumn: " ++ relationship.target),
          .blank ] ++
        (if relationship.isSnowflake then mark Convention.snowflake else []) ++
        mark Convention.generated)

end Relationship

end Definition

end TabularModel
