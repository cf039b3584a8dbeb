import TabularModel.Proofs.Prior.Tables

/-!
# Parameters over regenerations

The file of parameters is read as one block for each parameter, whose tag is the
only thing that a merge changes. The tags that a merged file holds are found
again under the names of the parameters.
-/

set_option autoImplicit false

namespace TabularModel

open Block (node)
open Prior (IsTag name? lineageTag? takeTag)

namespace Definition

/-! ## The blocks of parameters -/

/-- What stands behind the name of a parameter. -/
def parameterRest (value : Text) : Text :=
  "= " ++ (expressionString value ++
    " meta [IsParameterQuery=true, Type=\"Text\", IsParameterQueryRequired=true]")

def parameterNode (parameter : Text × Text) (tag : Text) : Block :=
  node 0 ("expression" ++ ' ' :: (Name.written parameter.1 ++ ' ' :: parameterRest parameter.2)) []
    [ node 1 (propertyContent "lineageTag" tag) [[]] [],
      node 1 (annotationContent "PBI_ResultType" "Text") [[]] [] ]

/-- Parameters that can be found again in their file. -/
structure AreReadable (parameters : List (Text × Text)) : Prop where
  nonempty : parameters ≠ []
  plain : ∀ parameter ∈ parameters, Text.isPlainName parameter.1 = true
  single : ∀ parameter ∈ parameters,
    Text.IsSingleLine parameter.1 ∧ Text.IsSingleLine parameter.2
  distinct : (parameters.map (·.1)).Nodup

theorem map_render_parameterLines {parameter : Text × Text}
    (plain : Text.isPlainName parameter.1 = true) (tag : Text -> Text) :
    (parameterLines tag parameter).map Line.render =
      (parameterNode parameter (tag parameter.1)).lines := by
  have written : Name.written parameter.1 = parameter.1 := by rw [Name.written, if_pos plain]
  rw [parameterNode, Block.lines_node, written]
  simp [parameterLines, parameterRest, Line.nested, Block.linesOfEach, Block.lines_node,
    propertyContent, annotationContent_eq, line, Line.deeper, Line.render]

/-- The blocks of all parameters, with a tag for each. -/
def parameterNodes (parameters : List (Text × Text)) (tag : Text -> Text) : List Block :=
  parameters.map fun parameter => parameterNode parameter (tag parameter.1)

theorem isSingleLine_parameterRest {value : Text} (single : Text.IsSingleLine value) :
    Text.IsSingleLine (parameterRest value) := by
  have doubled : Text.IsSingleLine (expressionString value) := by
    simpa [expressionString, Text.IsSingleLine, Text.mem_doubling_iff] using single
  exact Text.isSingleLine_append.mpr
    ⟨by decide, Text.isSingleLine_append.mpr ⟨doubled, by decide⟩⟩

theorem hasVisibleEnds_parameterHeader (name value : Text) :
    HasVisibleEnds (Name.written name ++ ' ' :: parameterRest value) := by
  refine (Name.hasVisibleEnds_written name).append
    ⟨' ' :: ("= " ++ (expressionString value ++
      " meta [IsParameterQuery=true, Type=\"Text\", IsParameterQueryRequired=true")), ']', ?_, rfl⟩
  simp [parameterRest]

theorem isNested_parameterNode {parameter : Text × Text} (singleName : Text.IsSingleLine parameter.1)
    (singleValue : Text.IsSingleLine parameter.2) {tag : Text} (isTag : IsTag tag) :
    (parameterNode parameter tag).IsNested ∧ (parameterNode parameter tag).depth = 0 := by
  have rest : Text.IsSingleLine (Name.written parameter.1 ++ ' ' :: parameterRest parameter.2) := by
    refine Text.isSingleLine_append.mpr ⟨Name.isSingleLine_written singleName, ?_⟩
    have spaced : Text.IsSingleLine ((" " : Text) ++ parameterRest parameter.2) :=
      Text.isSingleLine_append.mpr ⟨by decide, isSingleLine_parameterRest singleValue⟩
    exact spaced
  have header : IsContent ("expression" ++ ' ' ::
      (Name.written parameter.1 ++ ' ' :: parameterRest parameter.2)) :=
    isContent_header ⟨by decide, by decide⟩ rest
  refine ⟨Block.isNested_node_of_level header 0 areBlank_nil ?_,
    Block.depth_node header.beginsVisibly 0 _ _⟩
  refine AreAt.cons (Block.isNested_leaf
    (isContent_property ⟨by decide, by decide⟩ isTag.isSingleLine) 1 areBlank_single) ?_
  exact AreAt.cons (Block.isNested_leaf (isContent_annotationContent (by decide) (by decide)) 1
    areBlank_single) AreAt.nil

theorem hasHeader_parameterNode (parameter : Text × Text) (tag : Text) :
    (parameterNode parameter tag).hasHeader "expression" = true := by
  rw [Block.hasHeader, parameterNode, Block.header?_header "expression" 0 _ _ (by decide)
    (hasVisibleEnds_parameterHeader parameter.1 parameter.2)]
  rfl

theorem name?_parameterNode (parameter : Text × Text) (tag : Text) :
    name? "expression" (parameterNode parameter tag) = some parameter.1 := by
  rw [name?, Prior.nameAndRest?, parameterNode, Block.header?_header "expression" 0 _ _ (by decide)
    (hasVisibleEnds_parameterHeader parameter.1 parameter.2), Option.map_some,
    Name.split_written_blank]
  rfl

theorem lineageTag?_parameterNode (parameter : Text × Text) {tag : Text} (isTag : IsTag tag) :
    lineageTag? (parameterNode parameter tag) = some tag :=
  (List.findSome?_cons ..).trans (by rw [Prior.tagOf?_property isTag])

theorem takeTag_parameterNode (parameter : Text × Text) (tag : Text) (taken : Option Text) :
    takeTag taken (parameterNode parameter tag) = parameterNode parameter (taken.getD tag) := by
  cases taken with
  | none => rfl
  | some taken =>
      exact Block.setProperty_node [] 0 1 "lineageTag" tag taken (by decide) (by simp)

/-! ## The file of parameters -/

theorem linesOfEach_parameterNodes {parameters : List (Text × Text)}
    (plain : ∀ parameter ∈ parameters, Text.isPlainName parameter.1 = true) (tag : Text -> Text) :
    (parameters.flatMap (parameterLines tag)).map Line.render =
      Block.linesOfEach (parameterNodes parameters tag) := by
  induction parameters with
  | nil => rfl
  | cons parameter parameters ih =>
      rw [List.flatMap_cons, List.map_append, map_render_parameterLines (plain parameter List.mem_cons_self),
        ih fun other member => plain other (List.mem_cons_of_mem parameter member)]
      rfl

variable {parameters : List (Text × Text)} {tag : Text -> Text}

theorem ofText_render_parameterNodes (readable : AreReadable parameters)
    (tags : ∀ name, IsTag (tag name)) :
    Document.ofText (Document.render ⟨parameterNodes parameters tag, true⟩) =
      ⟨parameterNodes parameters tag, true⟩ := by
  have each : ∀ block ∈ parameterNodes parameters tag, block.IsNested ∧ block.depth = 0 := by
    intro block member
    obtain ⟨parameter, inside, rfl⟩ := List.mem_map.mp member
    obtain ⟨name, value⟩ := readable.single parameter inside
    exact isNested_parameterNode name value (tags _)
  exact Document.ofText_render_of_level (by simpa [parameterNodes] using readable.nonempty) each

/-- A merge takes the tags of parameters over by their names. -/
theorem mergeExpressions_parameterNodes (earlier : Prior.Model) :
    Prior.mergeExpressions earlier ⟨parameterNodes parameters tag, true⟩ =
      ⟨parameterNodes parameters fun name => (earlier.expressionTags.get? name).getD (tag name),
        true⟩ := by
  rw [Prior.mergeExpressions, Document.changeWith]
  simp only [parameterNodes, List.map_map]
  congr 1
  refine List.map_congr_left fun parameter _ => ?_
  simp only [Function.comp, hasHeader_parameterNode, if_true, name?_parameterNode, Option.bind_some,
    takeTag_parameterNode]

end Definition

namespace Prior

open Definition (AreReadable parameterNodes)

/-! ## Tags that are found again -/

theorem Model.expressionTags_addRelationships (path : Text) (document : Document) (model : Model) :
    (model.addRelationships path document).expressionTags = model.expressionTags := by
  have step (read : Except Text Relationship) (model : Model) :
      (addRelationship path model read).expressionTags = model.expressionTags := by
    cases read with
    | error name => rfl
    | ok relationship =>
        rw [addRelationship]
        split <;> rfl
  rw [addRelationships]
  generalize (document.blocksWith "relationship").mapIdx readRelationship = reads
  induction reads generalizing model with
  | nil => rfl
  | cons read reads ih => rw [List.foldl_cons, ih, step]

theorem Model.expressionTags_ofDefinitions (definitions : DefinitionSet) :
    (Model.ofDefinitions definitions).expressionTags =
      (definitions.get? Path.expressions).elim .empty fun text =>
        (Model.empty.addExpressions (.ofText text)).expressionTags := by
  have path : Path.isInTablesFolder Path.expressions = false ∧
      Path.expressions ≠ Path.relationships := by decide
  have added (model : Model) (text : Text) :
      model.addFile Path.expressions text = model.addExpressions (.ofText text) := by
    rw [addFile, path.1, if_neg Bool.false_ne_true, if_neg path.2, if_pos rfl]
  have parts := Model.part_ofDefinitions Model.expressionTags Path.expressions ?_ ?_ definitions
  · simp only [added] at parts
    exact parts
  · intro model other text different
    rw [addFile]
    split
    · exact (Model.others_addTables _ _ model).2
    · split
      · exact Model.expressionTags_addRelationships _ _ model
      · rfl
  · intro left right text same
    rw [added, added, addExpressions, addExpressions, same]

/-- The tags of a file of parameters are read under their names. -/
theorem expressionTags_ofDefinitions_of_written {parameters : List (Text × Text)}
    {tag : Text -> Text} (readable : AreReadable parameters) (tags : ∀ name, IsTag (tag name))
    {definitions : DefinitionSet}
    (written : definitions.get? Path.expressions =
      some (Document.render ⟨parameterNodes parameters tag, true⟩)) :
    (Model.ofDefinitions definitions).expressionTags =
      .ofList (parameters.map fun parameter => (parameter.1, tag parameter.1)) := by
  have blocks : Document.blocksWith ⟨parameterNodes parameters tag, true⟩ "expression" =
      parameterNodes parameters tag := by
    refine List.filter_eq_self.mpr fun block inside => ?_
    obtain ⟨other, _, rfl⟩ := List.mem_map.mp inside
    exact Definition.hasHeader_parameterNode other _
  have read : ((parameterNodes parameters tag).filterMap fun block => do
      return (<- name? "expression" block, <- lineageTag? block)) =
      parameters.map fun parameter => (parameter.1, tag parameter.1) := by
    rw [parameterNodes, List.filterMap_map, ← List.filterMap_eq_map]
    congr 1
    funext other
    simp only [Function.comp, Definition.name?_parameterNode,
      Definition.lineageTag?_parameterNode other (tags other.1)]
    rfl
  rw [Model.expressionTags_ofDefinitions, written, Option.elim_some,
    Definition.ofText_render_parameterNodes readable tags, Model.addExpressions, blocks, read]
  rfl

/-- The tags of a file of parameters are found under their names. -/
theorem get?_expressionTags {parameters : List (Text × Text)} {tag : Text -> Text}
    (readable : AreReadable parameters) (tags : ∀ name, IsTag (tag name))
    {definitions : DefinitionSet}
    (written : definitions.get? Path.expressions =
      some (Document.render ⟨parameterNodes parameters tag, true⟩))
    {parameter : Text × Text} (member : parameter ∈ parameters) :
    (Model.ofDefinitions definitions).expressionTags.get? parameter.1 = some (tag parameter.1) := by
  rw [expressionTags_ofDefinitions_of_written readable tags written]
  refine SortedMap.get?_ofList_of_mem (List.mem_map.mpr ⟨parameter, member, rfl⟩) ?_
  intro entry inside same
  obtain ⟨other, _, rfl⟩ := List.mem_map.mp inside
  simp only at same
  rw [same]

/-- Every tag that is known of a parameter is a word. -/
theorem isTag_of_get?_expressionTags {definitions : DefinitionSet} {name tag : Text}
    (known : (Model.ofDefinitions definitions).expressionTags.get? name = some tag) : IsTag tag := by
  rw [Model.expressionTags_ofDefinitions] at known
  cases found : definitions.get? Path.expressions with
  | none =>
      rw [found] at known
      cases known
  | some text =>
      rw [found] at known
      obtain ⟨block, _, read⟩ := List.mem_filterMap.mp
        (SortedMap.mem_of_mem_ofList (SortedMap.mem_of_get? known))
      obtain ⟨other, _, read⟩ := Option.bind_eq_some_iff.mp read
      obtain ⟨tagged, foundTag, read⟩ := Option.bind_eq_some_iff.mp read
      have same : tagged = tag := congrArg Prod.snd (Option.some.inj read)
      exact same ▸ isTag_of_lineageTag? foundTag

end Prior

/-! ## The parameters of a connection -/

namespace Definition

open Catalog (Connection)

theorem areReadable_parameters {connection : Connection}
    (single : ∀ parameter ∈ connection.parameters, Text.IsSingleLine parameter.2) :
    AreReadable connection.parameters := by
  have names : connection.parameters ≠ [] ∧
      (∀ parameter ∈ connection.parameters,
        Text.isPlainName parameter.1 = true ∧ Text.IsSingleLine parameter.1) ∧
      (connection.parameters.map (·.1)).Nodup := by
    rw [Connection.parameters]
    cases connection.type with
    | dataverse => simp; decide
    | fabricLink => simp; decide
  exact ⟨names.1, fun parameter member => (names.2.1 parameter member).1,
    fun parameter member => ⟨(names.2.1 parameter member).2, single parameter member⟩, names.2.2⟩

theorem parametersText_eq {connection : Connection} (readable : AreReadable connection.parameters)
    (tag : Text -> Text) :
    parametersText connection tag =
      Document.render ⟨parameterNodes connection.parameters tag, true⟩ := by
  rw [parametersText, Line.fileText_eq, linesOfEach_parameterNodes readable.plain, Document.render,
    if_pos rfl]
  rfl

/-- The merged file of parameters. -/
theorem mergeFile_parametersText {connection : Connection}
    (readable : AreReadable connection.parameters) {tag : Text -> Text}
    (tags : ∀ name, IsTag (tag name)) (earlier : Prior.Model) :
    Prior.mergeFile earlier Path.expressions (parametersText connection tag) =
      Document.render ⟨parameterNodes connection.parameters fun name =>
        (earlier.expressionTags.get? name).getD (tag name), true⟩ := by
  have path : Path.isInTablesFolder Path.expressions = false ∧
      Path.expressions ≠ Path.relationships := by decide
  rw [Prior.mergeFile, path.1, if_neg Bool.false_ne_true, if_neg path.2, if_pos rfl,
    parametersText_eq readable, ofText_render_parameterNodes readable tags,
    mergeExpressions_parameterNodes]

/-- The file of parameters that was merged once is reached again by a merge with
a set that holds it. -/
theorem mergeFile_parametersText_again {connection : Connection}
    (readable : AreReadable connection.parameters) {tag other : Text -> Text}
    (tags : ∀ name, IsTag (tag name)) (others : ∀ name, IsTag (other name))
    (earlier : DefinitionSet) {definitions : DefinitionSet}
    (written : definitions.get? Path.expressions =
      some (Prior.mergeFile (.ofDefinitions earlier) Path.expressions (parametersText connection tag))) :
    Prior.mergeFile (.ofDefinitions definitions) Path.expressions (parametersText connection other) =
      Prior.mergeFile (.ofDefinitions earlier) Path.expressions (parametersText connection tag) := by
  have merged : ∀ name, IsTag
      (((Prior.Model.ofDefinitions earlier).expressionTags.get? name).getD (tag name)) :=
    fun name => Prior.isTag_getD (fun _ known => Prior.isTag_of_get?_expressionTags known) (tags name)
  rw [mergeFile_parametersText readable tags] at written ⊢
  rw [mergeFile_parametersText readable others]
  congr 2
  refine List.map_congr_left fun parameter member => ?_
  have known := Prior.get?_expressionTags readable merged written member
  simp only [known, Option.getD_some]

end Definition

end TabularModel
