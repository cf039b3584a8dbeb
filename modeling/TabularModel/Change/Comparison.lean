import TabularModel.Change.Basic
import TabularModel.Change.Reachability
import TabularModel.Prior.Reader

/-!
# Comparison of an earlier model with a fresh one

Tables are compared under their keys, columns under their sources and
relationships under their endpoints. What is in one version alone is paired, as
far as possible, with what is in the other version alone: columns of the same
name, up to letter case, and relationships with the same source.
-/

set_option autoImplicit false

namespace TabularModel

namespace Change

open Catalog (StorageMode)
open Prior (Model)

/-- What the comparison depends on besides the two versions. The fact table is
given by its key; if there is none, the first table with a generated measure is
taken. -/
structure Settings where
  mode : StorageMode
  factTable : Option Text
  includeUnchanged : Bool
deriving DecidableEq, Repr

def Settings.standard : Settings := ⟨.directQuery, none, false⟩

variable (settings : Settings)

def ifListed (change : Change) : List Change :=
  if settings.includeUnchanged then [change] else []

/-- Columns that are in one version alone: those paired by their names, and the
rest of both versions. -/
structure Pairing where
  pairs : List (Prior.Column × Prior.Column)
  removed : List Prior.Column
  added : List Prior.Column
deriving Repr

def haveSameName (left right : Prior.Column) : Bool :=
  Text.sameIgnoringCase left.name right.name

/-- Pairs each earlier column with the first fresh one of its name that is not
yet taken. -/
def pairByName : (earlier fresh : List Prior.Column) -> Pairing
  | [], fresh => ⟨[], [], fresh⟩
  | old :: earlier, fresh =>
      match fresh.find? (haveSameName old) with
      | some new =>
          let rest := pairByName earlier (fresh.eraseP (haveSameName old))
          { rest with pairs := (old, new) :: rest.pairs }
      | none =>
          let rest := pairByName earlier fresh
          { rest with removed := old :: rest.removed }

/-- The columns of one version whose source is not in the other. -/
def withoutPartner (table other : Prior.Table) : List Prior.Column :=
  (table.columns.filter fun source _ => !other.columns.contains source).values

def commonColumn (table : Text) (earlier fresh : Prior.Column) : List Change :=
  if earlier.dataType ≠ fresh.dataType then
    [.column table fresh.name (.typeChanged earlier.dataType fresh.dataType)]
  else if earlier.name ≠ fresh.name then [.column table fresh.name (.renamed earlier.name)]
  else ifListed settings (.column table fresh.name .unchanged)

def columnChanges (earlier fresh : Prior.Table) : List Change :=
  let pairing := pairByName (withoutPartner earlier fresh) (withoutPartner fresh earlier)
  pairing.pairs.map (fun (old, new) =>
      .column fresh.name new.name (.sourceChanged old.source new.source)) ++
    fresh.columns.entries.flatMap (fun (source, new) =>
      match earlier.columns.get? source with
      | some old => commonColumn settings fresh.name old new
      | none => []) ++
    pairing.added.map (fun new => .column fresh.name new.name (.added new.source)) ++
    pairing.removed.map (fun old => .column fresh.name old.name (.removed old.source))

def generatedMeasures (table : Prior.Table) : List Text :=
  ((table.measures.filter (·.isGenerated)).map (·.name)).eraseDups

def measureChanges (earlier fresh : Prior.Table) : List Change :=
  let before := generatedMeasures earlier
  let after := generatedMeasures fresh
  (after.filter (!before.contains ·)).map (.measure fresh.name · .generatedAdded) ++
    (before.filter (!after.contains ·)).map (.measure earlier.name · .generatedRemoved) ++
    earlier.userMeasures.map fun measure => .measure fresh.name measure.name .userKept

def queryChanges (earlier fresh : Prior.Table) : List Change :=
  match earlier.partition, fresh.partition with
  | some old, some new => if old.source = new.source then [] else [.queryChanged fresh.name]
  | _, _ => []

def tableChanges (earlier fresh : Prior.Table) : List Change :=
  columnChanges settings earlier fresh ++ measureChanges earlier fresh ++
    queryChanges earlier fresh

def addedTable (fresh : Prior.Table) : List Change :=
  .tableAdded fresh.name ::
    (fresh.measures.filter (·.isGenerated)).map fun measure =>
      .measure fresh.name measure.name .generatedAdded

def keyChanges (fresh : Prior.Table) : List Change :=
  if fresh.keyColumnCount = 1 then [] else [.keyCount fresh.name fresh.keyColumnCount]

def freshTable (earlier : Model) (key : Text) (fresh : Prior.Table) : List Change :=
  (match earlier.tables.get? key with
    | some old => tableChanges settings old fresh
    | none => addedTable fresh) ++
    keyChanges fresh

/-- Tables that a person has added are never removed. -/
def removedTable (fresh : Model) (key : Text) (earlier : Prior.Table) : List Change :=
  if !earlier.isGenerated || fresh.tables.contains key then []
  else
    .tableRemoved earlier.name ::
      earlier.userMeasures.map fun measure => .measure earlier.name measure.name .userLost

def modeChanges (earlier : Prior.Table) : List Change :=
  match earlier.partition with
  | none => []
  | some partition =>
      match partition.mode with
      | none => []
      | some mode =>
          if !earlier.isGenerated || partition.kind == Definition.PartitionKind.calculated.name ||
              StorageMode.ofName? mode == some settings.mode then []
          else [.modeChanged earlier.name mode settings.mode]

def commonRelationship (earlier fresh : Prior.Relationship) : List Change :=
  if earlier.isActive ≠ fresh.isActive then
    [.relationship fresh.key (if fresh.isActive then .activated else .deactivated)]
  else ifListed settings (.relationship fresh.key .unchanged)

/-- What becomes of earlier relationships that are not among the fresh ones,
and the added keys that are not paired with any of them. -/
def lostRelationships :
    List Prior.Relationship -> (added : List RelationshipKey) ->
      List Change × List RelationshipKey
  | [], added => ([], added)
  | old :: earlier, added =>
      if old.key.isCalendar then
        let (changes, unpaired) := lostRelationships earlier added
        (.relationship old.key .calendarReplaced :: changes, unpaired)
      else if !old.isGenerated then
        let (changes, unpaired) := lostRelationships earlier added
        (.relationship old.key .userKept :: changes, unpaired)
      else
        match added.find? (·.source == old.key.source) with
        | some moved =>
            let (changes, unpaired) := lostRelationships earlier (added.erase moved)
            (.relationship moved (.moved old.key.target) :: changes, unpaired)
        | none =>
            let (changes, unpaired) := lostRelationships earlier added
            (.relationship old.key .removed :: changes, unpaired)

def relationshipChanges (earlier fresh : Model) : List Change :=
  let isLost := fun (old : Prior.Relationship) => (fresh.relationship? old.key).isNone
  let isAdded := fun (new : Prior.Relationship) => (earlier.relationship? new.key).isNone
  let (lost, unpaired) := lostRelationships (earlier.relationshipsByKey.filter isLost)
    ((fresh.relationshipsByKey.filter isAdded).map (·.key))
  fresh.relationshipsByKey.flatMap (fun new =>
      match earlier.relationship? new.key with
      | some old => commonRelationship settings old new
      | none => []) ++
    lost ++ unpaired.map (.relationship · .added)

def factTable? (fresh : Model) : Option Prior.Table :=
  settings.factTable.bind fresh.tables.get? <|>
    fresh.tables.values.find? fun table => table.measures.any (·.isGenerated)

/-- The tables that a relationship joins, by their names. -/
def tablePair? (key : RelationshipKey) : Option (Text × Text) := do
  return (<- key.sourceTable?, <- key.targetTable?)

/-- The fresh relationships and those that people have added. -/
def mergedKeys (earlier fresh : Model) : List RelationshipKey :=
  let keys := fresh.relationships.map (·.key)
  keys ++ (earlier.userRelationships keys).map (·.key)

def reachabilityChanges (earlier fresh : Model) : List Change :=
  match factTable? settings fresh with
  | none => []
  | some fact =>
      let names := fresh.tables.values.map (·.name)
      let edges := (mergedKeys earlier fresh).filterMap tablePair?
      ((Reachability.unreachable names edges fact.name).filter
        (· != Convention.calendarTable)).map (.unreachable · fact.name)

/-- All changes from an earlier model to freshly generated definitions. -/
def compare (earlier : Model) (definitions : DefinitionSet) : List Change :=
  let fresh := Model.ofDefinitions definitions
  fresh.tables.entries.flatMap (fun (key, table) => freshTable settings earlier key table) ++
    earlier.tables.entries.flatMap (fun (key, table) => removedTable fresh key table) ++
    earlier.tables.values.flatMap (modeChanges settings) ++
    relationshipChanges settings earlier fresh ++
    reachabilityChanges settings earlier fresh

end Change

end TabularModel
