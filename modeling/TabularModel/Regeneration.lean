import TabularModel.Change.Comparison
import TabularModel.Generation.Definitions
import TabularModel.Prior.Merge

/-!
# Regeneration of a model

A fresh definition set is generated, compared with the earlier one, and merged
with it. Without an earlier set there is nothing to compare. What was left out
of the fresh set is listed with the changes.
-/

set_option autoImplicit false

namespace TabularModel

structure Regeneration where
  definitions : DefinitionSet
  changes : List Change
  diagnostics : List Generation.Diagnostic
deriving Repr

namespace Regeneration

open Catalog (Selection)
open Generation (Diagnostic Fault Options Supply)

def isDestructive (result : Regeneration) : Bool :=
  result.changes.any Change.isDestructive

/-- The configured fact table has to be among the chosen ones. -/
def checkFactTable (settings : Change.Settings) (selection : Selection) : Except Fault Unit :=
  match settings.factTable with
  | none => .ok ()
  | some logicalName =>
      if selection.hasTable logicalName then .ok ()
      else .error (.factTableNotSelected logicalName)

def earlierModel (earlier : Option DefinitionSet) : Prior.Model :=
  (earlier.map Prior.Model.ofDefinitions).getD .empty

def changesFrom (settings : Change.Settings) (earlier : Option DefinitionSet)
    (fresh : DefinitionSet) : List Change :=
  match earlier with
  | none => []
  | some definitions => Change.compare settings (.ofDefinitions definitions) fresh

def ofDiagnostic (diagnostic : Diagnostic) : Change :=
  .finding diagnostic.table diagnostic.finding

end Regeneration

/-- The definitions that replace an earlier set. -/
def regenerate (options : Generation.Options) (settings : Change.Settings)
    (supply : Generation.Supply) (selection : Catalog.Selection)
    (earlier : Option DefinitionSet) : Except Generation.Fault Regeneration := do
  Regeneration.checkFactTable settings selection
  let fresh <- Generation.generate options supply selection
  return {
    definitions := merge fresh.definitions (Regeneration.earlierModel earlier)
    changes :=
      Regeneration.changesFrom settings earlier fresh.definitions ++
        fresh.diagnostics.map Regeneration.ofDiagnostic
    diagnostics := fresh.diagnostics }

end TabularModel
