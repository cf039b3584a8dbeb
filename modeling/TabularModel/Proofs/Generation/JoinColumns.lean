import TabularModel.Proofs.Generation.Edges
import TabularModel.Proofs.Generation.Paths
import TabularModel.Proofs.Lookup.Grouping

/-!
# Relationships find their columns

An edge makes the key column of its lookup a part of the plan, active or not and
whatever the letter case in which the edge names it. Later the relationship of the edge
looks for that column under the name of the lookup. It is there unless the settings of
the lookup leave it out or its source was planned before.
-/

set_option autoImplicit false

namespace TabularModel

open Catalog (Attribute Edge Selection)
open Definition (Relationship)

namespace Lookup

/-- A joined lookup shows its key, unless its settings leave the key out. -/
theorem included_id_of_isJoined {table : Text} {parent : Attribute}
    {stored : Option Catalog.LookupSettings} {edges : List Edge}
    (joined : isJoined table parent.logicalName edges = true)
    (kept : (stored.getD .unset).id.included ≠ some false) :
    (resolve table parent stored edges .id).included = true := by
  have shown : ((stored.getD .unset).id.included.getD true) = true := by
    cases setting : (stored.getD .unset).id.included with
    | none => rfl
    | some included =>
        cases included with
        | true => rfl
        | false => exact absurd setting kept
  simpa [resolve, joined, hasColumn, defaultVisibility, Visibility.of, Catalog.LookupSettings.get]
    using shown

/-- The key comes before the other columns of a lookup. -/
theorem exists_shown_eq_cons {visibility : Catalog.LookupColumn -> Visibility}
    (included : (visibility .id).included = true) :
    ∃ columns, shown visibility = .id :: columns := by
  rw [shown, Catalog.LookupColumn.all, List.filter_cons, included, if_pos rfl]
  exact ⟨_, rfl⟩

end Lookup

namespace Plan

namespace Table

/-- The plan of a table when the group that an attribute leads is due. -/
def planBefore (context : Context) (table : Catalog.Table) (leader : Attribute) : Table :=
  ((primaryFirst table.primaryName (Lookup.groups table.attributes)).takeWhile
      fun group => group.leader != leader).foldl (pushGroup context table)
    ((start table).push (keyColumn table.primaryKey) .source)

variable {context : Context} {table : Catalog.Table}

/-- The groups before that of a lookup, that group and those behind it. -/
theorem exists_groups_around {parent : Attribute} (listed : parent ∈ table.attributes)
    (lookup : parent.type.isLookup = true) :
    ∃ columns after, primaryFirst table.primaryName (Lookup.groups table.attributes) =
      (primaryFirst table.primaryName (Lookup.groups table.attributes)).takeWhile
        (fun group => group.leader != parent) ++ .lookup parent columns :: after := by
  have groups := perm_primaryFirst table.primaryName (Lookup.groups table.attributes)
  have parts := List.takeWhile_append_dropWhile
    (p := fun group : Lookup.Group => group.leader != parent)
    (l := primaryFirst table.primaryName (Lookup.groups table.attributes))
  have first := List.head?_dropWhile_not (fun group : Lookup.Group => group.leader != parent)
    (primaryFirst table.primaryName (Lookup.groups table.attributes))
  cases rest : (primaryFirst table.primaryName (Lookup.groups table.attributes)).dropWhile
      fun group => group.leader != parent with
  | nil =>
      obtain ⟨columns, member⟩ := Lookup.exists_lookup_mem_groups listed lookup
      have other := List.dropWhile_eq_nil_iff.mp rest _ (groups.mem_iff.mpr member)
      exact absurd rfl (bne_iff_ne.mp other)
  | cons group after =>
      rw [rest] at parts first
      have leads : group.leader = parent := by simpa using first
      have member := groups.mem_iff.mp (parts ▸ List.mem_append_right _ List.mem_cons_self)
      obtain ⟨attr, position, -, -, rfl⟩ := Lookup.exists_of_mem_groups member
      rw [Lookup.leader_groupAt] at leads
      subst leads
      rw [Lookup.groupAt, if_pos lookup] at parts
      exact ⟨_, after, parts.symm⟩

/-- The key column of a lookup is planned if it is included and its source is not taken
when the lookup is due. -/
theorem isMet_id {parent : Attribute} (listed : parent ∈ table.attributes)
    (lookup : parent.type.isLookup = true)
    (noKey : Text.sameIgnoringCase parent.logicalName table.primaryKey = false)
    (included : (visibility context table parent .id).included = true)
    (free : (planBefore context table parent).hasSource
      (context.corrections.apply parent.logicalName) = false) :
    IsMet context table (.lookup parent .id) := by
  obtain ⟨columns, after, whole⟩ := exists_groups_around listed lookup
  obtain ⟨others, shown⟩ := Lookup.exists_shown_eq_cons included
  have before := (follows_keyed context table).foldl_pushGroup
    ((primaryFirst table.primaryName (Lookup.groups table.attributes)).takeWhile
      fun group => group.leader != parent)
  have own : offersOf context table (.lookup parent columns) =
      .lookup parent .id :: others.map (.lookup parent) := by
    rw [offersOf, Lookup.Group.leader, noKey, if_neg Bool.false_ne_true, shown, List.map_cons]
  have source : offeredSource context table (.lookup parent .id) =
      context.corrections.apply parent.logicalName :=
    congrArg context.corrections.apply (List.append_nil _)
  refine ⟨_, others.map (.lookup parent) ++ after.flatMap (offersOf context table), ?_,
    before.holds.isNew (source ▸ free)⟩
  rw [offers]
  nth_rewrite 1 [whole]
  rw [List.flatMap_append, List.flatMap_cons, own]
  rfl

end Table

/-! ## Ends that are taken -/

variable {plans : List Table} {earlier : List Relationship}

theorem take_relationshipsFrom (plans : List Table) (earlier : List Relationship)
    (edges : List Edge) (count : Nat) :
    (relationshipsFrom plans earlier edges).take count =
      relationshipsFrom plans earlier (edges.take count) := by
  induction edges generalizing earlier count with
  | nil => simp [relationshipsFrom]
  | cons edge edges ih =>
      cases count with
      | zero => rfl
      | succ count =>
          rw [List.take_succ_cons, relationshipsFrom_cons, relationshipsFrom_cons,
            List.take_succ_cons, ih]

theorem outcomeAfter_of_taken {edge : Edge} {relationship : Relationship}
    (found : relationshipOf plans edge = .ok relationship)
    (taken : relationship.key ∈ earlier.map Relationship.key) :
    outcomeAfter plans earlier edge = .error ⟨edge, reportedTable plans edge, .duplicate⟩ := by
  obtain ⟨other, inside, same⟩ := List.mem_map.mp taken
  have known : earlier.any (haveSameEnds relationship) = true :=
    List.any_eq_true.mpr ⟨other, inside, (haveSameEnds_iff _ _).mpr same.symm⟩
  rw [outcomeAfter, found]
  simp only [known, if_true]

/-- The ends of an edge are taken once the edge has had its turn, whether or not they were
taken before. -/
theorem mem_keys_outcomeAfter_iff {edge : Edge} {key : RelationshipKey} :
    key ∈ (earlier ++ (outcomeAfter plans earlier edge).toOption.toList).map Relationship.key ↔
      key ∈ earlier.map Relationship.key ∨
        ∃ relationship, relationshipOf plans edge = .ok relationship ∧ relationship.key = key := by
  rw [List.map_append, List.mem_append]
  constructor
  · rintro (old | new)
    · exact Or.inl old
    · obtain ⟨relationship, inside, same⟩ := List.mem_map.mp new
      have found := Generation.eq_ok_of_toOption (Option.mem_toList.mp inside)
      exact Or.inr ⟨relationship, (outcomeAfter_eq_ok_iff.mp found).1, same⟩
  · rintro (old | ⟨relationship, found, rfl⟩)
    · exact Or.inl old
    · by_cases old : relationship.key ∈ earlier.map Relationship.key
      · exact Or.inl old
      · rw [outcomeAfter_eq_ok_iff.mpr ⟨found, old⟩]
        exact Or.inr List.mem_cons_self

/-- After a run over edges the ends of all that lead anywhere are taken. -/
theorem mem_keys_relationshipsFrom_iff {edges : List Edge} {key : RelationshipKey} :
    key ∈ (earlier ++ (relationshipsFrom plans earlier edges).filterMap Except.toOption).map
        Relationship.key ↔
      key ∈ earlier.map Relationship.key ∨
        ∃ edge ∈ edges, ∃ relationship, relationshipOf plans edge = .ok relationship ∧
          relationship.key = key := by
  induction edges generalizing earlier with
  | nil => simp [relationshipsFrom]
  | cons edge edges ih =>
      have split : (relationshipsFrom plans earlier (edge :: edges)).filterMap Except.toOption =
          (outcomeAfter plans earlier edge).toOption.toList ++
            (relationshipsFrom plans (earlier ++ (outcomeAfter plans earlier edge).toOption.toList)
              edges).filterMap Except.toOption := by
        rw [relationshipsFrom_cons]
        cases outcomeAfter plans earlier edge <;> rfl
      rw [split, ← List.append_assoc, ih, mem_keys_outcomeAfter_iff, or_assoc]
      simp only [List.mem_cons, exists_eq_or_imp]

variable {edges : List Edge} {position : Nat} {edge : Edge} {relationship : Relationship}

/-- The ends of written relationships are those of the edges that lead anywhere. -/
theorem mem_keys_ofEdges_iff {key : RelationshipKey} :
    key ∈ ((ofEdges plans edges).filterMap Except.toOption).map Relationship.key ↔
      ∃ edge ∈ edges, ∃ relationship, relationshipOf plans edge = .ok relationship ∧
        relationship.key = key := by
  rw [ofEdges, ← List.nil_append (List.filterMap _ _), mem_keys_relationshipsFrom_iff]
  simp only [List.map_nil, List.not_mem_nil, false_or]

theorem mem_keys_taken_iff {key : RelationshipKey} :
    key ∈ (((ofEdges plans edges).take position).filterMap Except.toOption).map Relationship.key ↔
      ∃ earlier ∈ edges.take position, ∃ relationship,
        relationshipOf plans earlier = .ok relationship ∧ relationship.key = key := by
  rw [ofEdges, take_relationshipsFrom]
  exact mem_keys_ofEdges_iff

theorem getElem?_ofEdges (plans : List Table) (found : edges[position]? = some edge) :
    (ofEdges plans edges)[position]? = some (outcomeAfter plans
      (((ofEdges plans edges).take position).filterMap Except.toOption) edge) := by
  rw [ofEdges, getElem?_relationshipsFrom, found, Option.map_some, List.nil_append]

/-- An edge becomes its relationship if the ends are new. -/
theorem ok_mem_ofEdges (found : edges[position]? = some edge)
    (own : relationshipOf plans edge = .ok relationship)
    (new : ∀ earlier ∈ edges.take position, ∀ other, relationshipOf plans earlier = .ok other ->
      other.key ≠ relationship.key) : .ok relationship ∈ ofEdges plans edges := by
  have outcome := getElem?_ofEdges plans found
  rw [outcomeAfter_eq_ok_iff.mpr ⟨own, fun old => ?_⟩] at outcome
  · exact List.mem_of_getElem? outcome
  · obtain ⟨earlier, inside, other, otherOwn, same⟩ := mem_keys_taken_iff.mp old
    exact new earlier inside other otherOwn same

/-- An edge is reported if the ends are taken. -/
theorem error_mem_ofEdges (found : edges[position]? = some edge)
    (own : relationshipOf plans edge = .ok relationship) {earlier : Edge}
    (inside : earlier ∈ edges.take position) {other : Relationship}
    (otherOwn : relationshipOf plans earlier = .ok other) (same : other.key = relationship.key) :
    .error ⟨edge, reportedTable plans edge, .duplicate⟩ ∈ ofEdges plans edges := by
  have old := mem_keys_taken_iff.mpr ⟨earlier, inside, other, otherOwn, same⟩
  have outcome := getElem?_ofEdges plans found
  rw [outcomeAfter_of_taken own old] at outcome
  exact List.mem_of_getElem? outcome

/-- Some relationship has the ends of an edge that leads anywhere. -/
theorem exists_written_of_relationshipOf (inside : edge ∈ edges)
    (own : relationshipOf plans edge = .ok relationship) :
    ∃ written ∈ (ofEdges plans edges).filterMap Except.toOption,
      written.key = relationship.key :=
  List.mem_map.mp (mem_keys_ofEdges_iff.mpr ⟨edge, inside, relationship, own, rfl⟩)

end Plan

namespace Generation

open Plan.Table (build planBefore)

/-! ## Edges and their columns -/

/-- A listed lookup at which an edge starts and whose key column nothing keeps out: it is
not the key of its table, its settings do not leave it out, and its source is not taken
when the lookup is due. -/
structure IsFreeLookup (context : Plan.Context) (edge : Edge) (source : Catalog.Table)
    (parent : Attribute) : Prop where
  listed : parent ∈ source.attributes
  isLookup : parent.type.isLookup = true
  named : Text.sameIgnoringCase parent.logicalName edge.sourceAttribute = true
  noKey : Text.sameIgnoringCase parent.logicalName source.primaryKey = false
  kept : ((source.lookups.get? parent.logicalName).getD .unset).id.included ≠ some false
  free : (planBefore context source parent).hasSource
    (context.corrections.apply parent.logicalName) = false

/-- The relationship of an edge from a column to the key of the target. -/
def relationshipFrom (edge : Edge) (source target : Catalog.Table) (column : Plan.Column) :
    Relationship where
  source := Name.columnReference source.modelName column.written.name
  target := Name.columnReference target.modelName target.primaryKey
  isActive := edge.isActive
  isSnowflake := edge.isSnowflake
  assumesIntegrity := edge.assumesIntegrity

/-- The key column of a lookup is written, and so is the relationship from it to the key of
the target, unless an earlier edge joins the two. Then the edge is reported, and a
relationship between the two is written for that earlier edge. -/
structure IsJoined (options : Options) (supply : Supply) (selection : Selection)
    (output : Output) (position : Nat) (edge : Edge) (source target : Catalog.Table)
    (parent : Attribute) (column : Plan.Column) (relationships : List Relationship) : Prop where
  fromLookup : column.written.source = options.corrections.apply parent.logicalName
  planned : column ∈ (build (context options selection) source).columns
  table : output.definitions.get? (Path.table source.modelName) =
    some ((build (context options selection) source).text options.connection options.mode
      fun member => supply (.member source.logicalName member))
  key : (build (context options selection) target).keyColumn? = some target.primaryKey
  written : output.definitions.get? Path.relationships =
    some (Line.fileText (relationshipLines supply relationships))
  emitted : (∀ earlier ∈ selection.edges.take position,
      ¬ Joins (context options selection) selection.tables earlier
        (relationshipFrom edge source target column).key) ->
    relationshipFrom edge source target column ∈ relationships
  reported : ∀ earlier ∈ selection.edges.take position,
    Joins (context options selection) selection.tables earlier
      (relationshipFrom edge source target column).key ->
    ⟨source.modelName, .skippedRelationship edge .duplicate⟩ ∈ output.diagnostics ∧
      ∃ other ∈ relationships, other.key = (relationshipFrom edge source target column).key

section

variable {context : Plan.Context} {tables : List Catalog.Table} {edge : Edge}
variable {source target : Catalog.Table} {parent : Attribute}

/-- A free lookup has its key column in the plan. -/
theorem IsFreeLookup.exists_column (free : IsFreeLookup context edge source parent)
    (known : edge ∈ context.edges)
    (chosen : Text.sameIgnoringCase source.logicalName edge.sourceTable = true) :
    HasIdColumn context edge source parent ∧
      ∃ column ∈ (build context source).columns,
        column.written.source = context.corrections.apply parent.logicalName := by
  have joined : Lookup.isJoined source.logicalName parent.logicalName context.edges = true := by
    refine List.any_eq_true.mpr ⟨edge, known, ?_⟩
    rw [Edge.startsAt, Bool.and_eq_true, Text.sameIgnoringCase_iff, Text.sameIgnoringCase_iff]
    exact ⟨(Text.sameIgnoringCase_iff.mp chosen).symm,
      (Text.sameIgnoringCase_iff.mp free.named).symm⟩
  have included : (Plan.Table.visibility context source parent .id).included = true :=
    Lookup.included_id_of_isJoined joined free.kept
  have met := Plan.Table.isMet_id free.listed free.isLookup free.noKey included free.free
  obtain ⟨column, inside, renamed⟩ :=
    (Plan.Table.follows_build context source).holds.ofOffer _ met
  have whole : Catalog.LookupColumn.id.source parent.logicalName = parent.logicalName :=
    List.append_nil _
  exact ⟨⟨met, free.named⟩, column, inside,
    renamed.source.trans (congrArg context.corrections.apply whole)⟩

theorem relationshipOf_of_hasIdColumn
    (distinct : (tables.map fun table => Text.lower table.logicalName).Nodup)
    (sourceChosen : IsChosen tables edge.sourceTable source)
    (targetChosen : IsChosen tables edge.targetTable target)
    (lookup : HasIdColumn context edge source parent) {column : Plan.Column}
    (inside : column ∈ (build context source).columns)
    (fromParent : column.written.source = context.corrections.apply parent.logicalName) :
    Plan.relationshipOf (tables.map (build context)) edge =
      .ok (relationshipFrom edge source target column) := by
  refine (relationshipOf_eq_ok_iff distinct).mpr ⟨?_, rfl, rfl, rfl⟩
  exact .columns sourceChosen targetChosen lookup inside fromParent
    (Plan.Table.filter_isKey_build context target)

/-- An edge joins what its relationship leads between. -/
theorem joins_iff_exists_relationshipOf
    (distinct : (tables.map fun table => Text.lower table.logicalName).Nodup)
    {ends : RelationshipKey} :
    Joins context tables edge ends ↔
      ∃ relationship, Plan.relationshipOf (tables.map (build context)) edge = .ok relationship ∧
        relationship.key = ends := by
  refine ⟨exists_relationshipOf_of_joins distinct, ?_⟩
  rintro ⟨relationship, found, rfl⟩
  exact ((relationshipOf_eq_ok_iff distinct).mp found).joins

variable {options : Options} {selection : Selection} {position : Nat} {relationship : Relationship}

/-- The relationship of an edge is written if no earlier edge joins its ends. -/
theorem mem_written_of_not_joins
    (distinct : (selection.tables.map fun table => Text.lower table.logicalName).Nodup)
    (found : selection.edges[position]? = some edge)
    (own : Plan.relationshipOf (plans options selection) edge = .ok relationship)
    (new : ∀ earlier ∈ selection.edges.take position,
      ¬ Joins (Generation.context options selection) selection.tables earlier relationship.key) :
    relationship ∈ (Plan.ofEdges (plans options selection) selection.edges).filterMap
      Except.toOption := by
  refine List.mem_filterMap.mpr ⟨_, Plan.ok_mem_ofEdges found own ?_, rfl⟩
  intro earlier before other otherOwn same
  exact new earlier before ((joins_iff_exists_relationshipOf distinct).mpr ⟨other, otherOwn, same⟩)

/-- An edge is reported at its source if an earlier one joins the ends of its relationship. -/
theorem mem_skipped_of_joins
    (distinct : (selection.tables.map fun table => Text.lower table.logicalName).Nodup)
    (sourceChosen : IsChosen selection.tables edge.sourceTable source)
    (found : selection.edges[position]? = some edge)
    (own : Plan.relationshipOf (plans options selection) edge = .ok relationship) {earlier : Edge}
    (before : earlier ∈ selection.edges.take position)
    (joins : Joins (Generation.context options selection) selection.tables earlier
      relationship.key) :
    ⟨source.modelName, .skippedRelationship edge .duplicate⟩ ∈
      (Plan.ofEdges (plans options selection) selection.edges).filterMap skippedDiagnostic? := by
  obtain ⟨other, otherOwn, same⟩ := (joins_iff_exists_relationshipOf distinct).mp joins
  have named : Plan.reportedTable (plans options selection) edge = source.modelName := by
    rw [Plan.reportedTable, plans,
      (tableNamed?_eq_some_iff distinct).mpr ⟨source, sourceChosen, rfl⟩]
    exact (Plan.Table.isPlanned_build _ source).name
  have skipped := Plan.error_mem_ofEdges found own before otherOwn same
  rw [named] at skipped
  exact List.mem_filterMap.mpr ⟨_, skipped, rfl⟩

end

/-- An edge that starts at a listed lookup finds the key column of that lookup. Whether the
edge is active and in which letters it names its table and attribute makes no difference. -/
theorem generate_joinsFreeLookup {options : Options} {supply : Supply} {selection : Selection}
    {output : Output} (generated : generate options supply selection = .ok output) {position : Nat}
    {edge : Edge} (found : selection.edges[position]? = some edge) {source target : Catalog.Table}
    (sourceChosen : IsChosen selection.tables edge.sourceTable source)
    (targetChosen : IsChosen selection.tables edge.targetTable target) {parent : Attribute}
    (free : IsFreeLookup (context options selection) edge source parent) :
    ∃ column relationships,
      IsJoined options supply selection output position edge source target parent column
        relationships := by
  obtain ⟨toCalendar, -, isGenerated, diagnostics⟩ := exists_toCalendar_of_generate generated
  have distinct := (areDistinct_of_check isGenerated.checked).distinctNames
  have known := List.mem_of_getElem? found
  obtain ⟨lookup, column, inside, fromParent⟩ := free.exists_column known sourceChosen.2
  have own : Plan.relationshipOf (plans options selection) edge = .ok _ :=
    relationshipOf_of_hasIdColumn distinct sourceChosen targetChosen lookup inside fromParent
  obtain ⟨written, member, sameEnds⟩ := Plan.exists_written_of_relationshipOf known own
  have file := isGenerated.get?_relationships
  rw [if_neg fun none => List.ne_nil_of_mem (List.mem_append_left toCalendar member)
    (List.isEmpty_iff.mp none)] at file
  refine ⟨column, _, fromParent, inside, isGenerated.hasOwnFiles.ofTable source sourceChosen.1,
    Plan.Table.keyColumn?_build _ target, file, ?_, ?_⟩
  · intro new
    exact List.mem_append_left _ (mem_written_of_not_joins distinct found own new)
  · intro earlier before joins
    refine ⟨?_, written, List.mem_append_left _ member, sameEnds⟩
    rw [diagnostics]
    exact List.mem_append_right _
      (mem_skipped_of_joins distinct sourceChosen found own before joins)

/-- An inactive edge in other letters than its lookup, behind an active one from the same
lookup to another table. The stored settings of the lookup hide its name only, and its
listed name comes first. -/
theorem generate_joinsFreeLookup_inactive :
    let parent : Attribute := ⟨"CustomerId", some "Customer", .customer, ["account"], none⟩
    let source : Catalog.Table :=
      { Catalog.Table.plain "salesorder" "salesorderid" with
        attributes :=
          [⟨"customeridname", none, .string, [], none⟩, parent,
            ⟨"amount", none, .decimal, [], none⟩]
        lookups := .ofList [("CustomerId", { Catalog.LookupSettings.unset with
          name := ⟨some true, some true⟩ })] }
    let target := Catalog.Table.plain "account" "accountid"
    let edge := { Edge.plain "SalesOrder" "CUSTOMERID" "Account" with isActive := false }
    let selection : Selection :=
      { modelName := "Sales"
        tables := [source, target, Catalog.Table.plain "contact" "contactid"]
        edges := [.plain "salesorder" "customerid" "contact", edge]
        calendar := none }
    let options : Options := { Options.standard with checksQueries := false }
    let supply : Supply := fun _ => "tag"
    ∃ output column relationships, generate options supply selection = .ok output ∧
      IsJoined options supply selection output 1 edge source target parent column
        relationships := by
  intro parent source target edge selection options supply
  have accepted : (generate options supply selection).toOption.isSome = true := by decide +kernel
  obtain ⟨output, found⟩ := Option.isSome_iff_exists.mp accepted
  have generated := eq_ok_of_toOption found
  have second : selection.edges[1]? = some edge := rfl
  have sourceChosen : IsChosen selection.tables edge.sourceTable source :=
    ⟨List.mem_cons_self, by decide +kernel⟩
  have targetChosen : IsChosen selection.tables edge.targetTable target :=
    ⟨List.mem_cons_of_mem _ List.mem_cons_self, by decide +kernel⟩
  have free : IsFreeLookup (context options selection) edge source parent :=
    ⟨List.mem_cons_of_mem _ List.mem_cons_self, rfl, by decide +kernel, by decide +kernel,
      by decide +kernel, by decide +kernel⟩
  obtain ⟨column, relationships, joined⟩ :=
    generate_joinsFreeLookup generated second sourceChosen targetChosen free
  exact ⟨output, column, relationships, generated, joined⟩

end Generation

end TabularModel
