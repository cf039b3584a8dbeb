import TabularModel.Proofs.Plan.TableFile
import TabularModel.Proofs.Text.LineEnds

/-!
# The query in a partition

A partition carries the query of its table as a string inside an expression, and the
expression line by line. Whoever joins the lines again and reads the string gets the query
back, quotes and tabs and lone carriage returns included. Only a carriage return in front of
a line feed is taken for a part of the line's end and is lost.
-/

set_option autoImplicit false

namespace TabularModel

/-! ## The lines of the source -/

namespace Line

/-- A line of less than four tabs, or a blank one. -/
def IsShallow (depth : Nat) : Line -> Prop
  | .blank => True
  | .text own content => own + depth < 4 ∧ BeginsVisibly content

/-- The texts of the lines that stand behind four tabs. -/
def sourceTexts (lines : List Text) : List Text :=
  (lines.filter (tabs 4).isPrefixOf).map (List.drop 4)

theorem sourceTexts_append (front back : List Text) :
    sourceTexts (front ++ back) = sourceTexts front ++ sourceTexts back := by
  rw [sourceTexts, List.filter_append, List.map_append]
  rfl

theorem sourceTexts_of_isShallow {lines : List Line} (shallow : ∀ line ∈ lines, line.IsShallow 0) :
    sourceTexts (lines.map render) = [] := by
  have none (text : Text) (member : text ∈ lines.map render) :
      ¬(tabs 4).isPrefixOf text = true := by
    obtain ⟨line, inside, rfl⟩ := List.mem_map.mp member
    rw [List.isPrefixOf_iff_prefix]
    rintro ⟨rest, same⟩
    have deep : 4 ≤ Block.depthOf (line.render) := by
      have leading : ∀ c ∈ tabs 4, (c == '\t') = true := fun c inside =>
        beq_iff_eq.mpr (List.eq_of_mem_replicate inside)
      rw [← same, Block.depthOf, List.takeWhile_append_of_pos leading, List.length_append]
      exact Nat.le_add_right 4 _
    have isShallow := shallow line inside
    cases line with
    | blank => exact absurd deep (Nat.not_succ_le_zero 3)
    | text own content =>
        rw [render, isShallow.2.depthOf] at deep
        have bound := isShallow.1
        omega
  rw [sourceTexts, List.filter_eq_nil_iff.mpr none, List.map_nil]

theorem sourceTexts_deep (texts : List Text) :
    sourceTexts (texts.map (tabs 4 ++ ·)) = texts := by
  rw [sourceTexts, List.filter_eq_self.mpr, List.map_map]
  · exact List.map_id _
  · intro line member
    obtain ⟨content, _, rfl⟩ := List.mem_map.mp member
    exact List.isPrefixOf_iff_prefix.mpr (List.prefix_append _ _)

end Line

namespace Definition

/-! ## Reading the expression -/

/-- The content of a string, read behind its opening quote up to a quote that stands
alone. -/
def stringContent? : Text -> Option Text
  | [] => none
  | '"' :: '"' :: rest => (stringContent? rest).map ('"' :: ·)
  | '"' :: _ => some []
  | c :: rest => (stringContent? rest).map (c :: ·)

/-- What stands behind the first occurrence of a text. -/
def behind? (mark : Text) : Text -> Option Text
  | [] => none
  | c :: rest => (Text.dropStart? mark (c :: rest)).or (behind? mark rest)

/-- The query that an expression sends over a connection. -/
def sentQuery? (expression : Text) : Option Text :=
  (behind? "Value.NativeQuery(Source, \"" expression).bind stringContent?

theorem stringContent?_doubling (content rest : Text) (seam : rest.head? ≠ some '"') :
    stringContent? (Text.doubling '"' content ++ '"' :: rest) = some content := by
  induction content with
  | nil =>
      rw [Text.doubling, List.flatMap_nil, List.nil_append, stringContent?]
      rintro again rfl
      exact seam rfl
  | cons c content ih =>
      by_cases quote : c = '"'
      · rw [quote, Text.doubling_cons_self, List.cons_append, List.cons_append, stringContent?, ih]
        rfl
      · rw [Text.doubling_cons_of_ne content quote, List.cons_append, stringContent?, ih]
        · rfl
        · exact fun _ same _ => quote same
        · exact quote

/-- The expression in front of the query. -/
def queryOpening (type : Catalog.ConnectionType) : Text :=
  "let\n    Source = " ++ sourceStep type ++ ",\n    Query = Value.NativeQuery(Source, " ++ ['"']

theorem queryExpression_eq (connection : Catalog.Connection) (query : Text) :
    queryExpression connection query =
      queryOpening connection.type ++
        (Text.doubling '"' query ++ '"' :: ", null, [EnableFolding=true])\nin\n    Query") := by
  have regroup (front content back : Text) :
      front ++ ('"' :: (content ++ ['"'])) ++ back = front ++ ['"'] ++ (content ++ '"' :: back) := by
    simp
  exact regroup _ _ _

/-- The query that a table's own expression sends, with the line ends of the expression. -/
theorem sentQuery?_withoutReturns (connection : Catalog.Connection) (query : Text) :
    sentQuery? (Text.withoutReturns (queryExpression connection query)) =
      some (Text.withoutReturns query) := by
  have reading (rest : Text) :
      sentQuery? (queryOpening connection.type ++ rest) = stringContent? rest := by
    cases connection.type <;> rfl
  have opening : Text.withoutReturns (queryOpening connection.type) =
      queryOpening connection.type := by
    cases connection.type <;> decide +kernel
  have quote : (queryOpening connection.type).getLast? = some '"' := by
    cases connection.type <;> decide +kernel
  rw [queryExpression_eq, Text.withoutReturns_append (by simp [quote]), opening, reading,
    Text.withoutReturns_append (fun _ => by simp), Text.withoutReturns_doubling (by decide)]
  exact stringContent?_doubling _ _ (by decide)

/-- The query that the lines of a table file carry. -/
def carriedQuery? (lines : List Text) : Option Text :=
  sentQuery? (Text.joined ['\n'] (Line.sourceTexts lines))

/-- The last line of an expression that sends a query is not empty. -/
theorem getLast?_fields_queryExpression (connection : Catalog.Connection) (query : Text) :
    (Text.fields '\n' (queryExpression connection query)).getLast? =
      some ("    Query" : Text) := by
  obtain ⟨front, shape⟩ : ∃ front, queryExpression connection query =
      front ++ (", null, [EnableFolding=true])\nin\n    Query" : Text) := ⟨_, rfl⟩
  have ending : (", null, [EnableFolding=true])\nin\n    Query" : Text) =
      ", null, [EnableFolding=true])\nin" ++ '\n' :: "    Query" := by decide
  rw [shape, ending, ← List.append_assoc, Text.fields_append_last '\n' _ _ (by decide),
    List.getLast?_concat]

end Definition

/-! ## The lines of a table -/

namespace Line

/-- Lines none of which stands as deep as a source. -/
def AreShallow (depth : Nat) (lines : List Line) : Prop :=
  ∀ line ∈ lines, line.IsShallow depth

theorem areShallow_nil {depth : Nat} : AreShallow depth [] :=
  nofun

theorem areShallow_append {depth : Nat} {front back : List Line} :
    AreShallow depth (front ++ back) ↔ AreShallow depth front ∧ AreShallow depth back :=
  List.forall_mem_append

theorem areShallow_cons {depth : Nat} {first : Line} {others : List Line} :
    AreShallow depth (first :: others) ↔ first.IsShallow depth ∧ AreShallow depth others :=
  List.forall_mem_cons

theorem areShallow_nested {depth : Nat} {lines : List Line} :
    AreShallow depth (nested lines) ↔ AreShallow (depth + 1) lines := by
  have deeper (line : Line) : (line.deeper 1).IsShallow depth ↔ line.IsShallow (depth + 1) := by
    cases line with
    | blank => exact Iff.rfl
    | text own content => rw [Line.deeper, IsShallow, IsShallow, Nat.add_right_comm, Nat.add_assoc]
  simp [AreShallow, nested, deeper]

theorem areShallow_line {depth : Nat} {content : Text} {others : List Line} (bounded : depth < 4)
    (visible : BeginsVisibly content) (later : AreShallow depth others) :
    AreShallow depth (line content :: others) :=
  areShallow_cons.mpr ⟨⟨by omega, visible⟩, later⟩

theorem areShallow_blank {depth : Nat} {others : List Line} (later : AreShallow depth others) :
    AreShallow depth (.blank :: others) :=
  areShallow_cons.mpr ⟨True.intro, later⟩

end Line

namespace Definition

open Line (areShallow_append areShallow_blank areShallow_line areShallow_nested areShallow_nil)

theorem Column.areShallow_lines (column : Column) (tag : Text) :
    Line.AreShallow 1 (column.lines tag) := by
  have optional (format : Option Text) : Line.AreShallow 2 (formatLine format) := by
    cases format with
    | none => exact areShallow_nil
    | some format => exact areShallow_line (by decide) rfl areShallow_nil
  have flag (set : Bool) {name : Text} (visible : BeginsVisibly name) :
      Line.AreShallow 2 (flagLine set name) := by
    cases set with
    | false => exact areShallow_nil
    | true => exact areShallow_line (by decide) visible areShallow_nil
  have first : Line.AreShallow 2 [line ("dataType: " ++ column.dataType.name)] :=
    areShallow_line (by decide) rfl areShallow_nil
  have last : Line.AreShallow 2
      [ line ("lineageTag: " ++ tag), line ("summarizeBy: " ++ column.summary),
        line ("sourceColumn: " ++ column.source), .blank,
        line "annotation SummarizationSetBy = Automatic", .blank ] := by
    refine areShallow_line (by decide) rfl (areShallow_line (by decide) rfl ?_)
    refine areShallow_line (by decide) rfl (areShallow_blank ?_)
    exact areShallow_line (by decide) rfl (areShallow_blank areShallow_nil)
  refine areShallow_line (by decide) rfl (areShallow_nested.mpr ?_)
  simp only [areShallow_append]
  exact ⟨⟨⟨⟨first, optional column.format⟩, flag _ (by decide)⟩, flag _ (by decide)⟩, last⟩

end Definition

namespace Plan.Table

open Line (areShallow_append areShallow_blank areShallow_line areShallow_nested areShallow_nil)

variable (plan : Table) (tag : Definition.Member -> Text)

theorem areShallow_measureLines : Line.AreShallow 1 (plan.measureLines tag) := by
  rw [measureLines]
  split
  · refine areShallow_line (by decide) rfl (areShallow_nested.mpr ?_)
    refine areShallow_line (by decide) rfl (areShallow_line (by decide) rfl ?_)
    exact areShallow_blank areShallow_nil
  · exact areShallow_nil

/-- The lines of a table in front of the source of its partition. -/
def linesBefore (mode : Catalog.StorageMode) : List Line :=
  line ("table " ++ Name.written plan.name) ::
    Line.nested
      ([line ("lineageTag: " ++ tag .table), .blank] ++
        plan.measureLines tag ++
        plan.columns.flatMap (fun column =>
          column.written.lines (tag (.column column.written.source))) ++
        line ("partition " ++ Name.written plan.name ++ " = " ++ Definition.PartitionKind.query.name) ::
          Line.nested [line ("mode: " ++ mode.name), line "source ="])

def linesBehind : List Line :=
  .blank ::
    Line.nested
      [ line ("annotation " ++ Convention.logicalName ++ " = " ++ plan.logicalName),
        .blank,
        line "annotation PBI_ResultType = Table" ]

theorem lines_eq (connection : Catalog.Connection) (mode : Catalog.StorageMode) :
    plan.lines connection mode tag =
      plan.linesBefore tag mode ++
        (Text.lines (Definition.queryExpression connection plan.query.render)).map (.text 4) ++
          plan.linesBehind := by
  have regroup (table header mode source : Line) (front back : List Line) (texts : List Text) :
      table :: Line.nested (front ++ (header :: Line.nested ([mode, source] ++
          Line.nested (Line.nested (texts.map (.text 0))) ++ [.blank])) ++ back) =
        (table :: Line.nested (front ++ header :: Line.nested [mode, source])) ++
          texts.map (.text 4) ++ (.blank :: Line.nested back) := by
    simp [Line.nested, Line.deeper]
  exact regroup _ _ _ _ _ _ _

theorem areShallow_linesBefore (mode : Catalog.StorageMode) :
    Line.AreShallow 0 (plan.linesBefore tag mode) := by
  have columns : Line.AreShallow 1 (plan.columns.flatMap fun column =>
      column.written.lines (tag (.column column.written.source))) := by
    intro line member
    obtain ⟨column, _, inside⟩ := List.mem_flatMap.mp member
    exact column.written.areShallow_lines _ line inside
  have head : Line.AreShallow 1 [line ("lineageTag: " ++ tag .table), .blank] :=
    areShallow_line (by decide) rfl (areShallow_blank areShallow_nil)
  have partition : Line.AreShallow 1 (line ("partition " ++ Name.written plan.name ++ " = " ++
      Definition.PartitionKind.query.name) :: Line.nested [line ("mode: " ++ mode.name), line "source ="]) := by
    refine areShallow_line (by decide) rfl (areShallow_nested.mpr ?_)
    exact areShallow_line (by decide) rfl (areShallow_line (by decide) rfl areShallow_nil)
  refine areShallow_line (by decide) rfl (areShallow_nested.mpr ?_)
  simp only [areShallow_append]
  exact ⟨⟨⟨head, plan.areShallow_measureLines tag⟩, columns⟩, partition⟩

theorem areShallow_linesBehind : Line.AreShallow 0 plan.linesBehind := by
  refine areShallow_blank (areShallow_nested.mpr ?_)
  refine areShallow_line (by decide) rfl (areShallow_blank ?_)
  exact areShallow_line (by decide) rfl areShallow_nil

/-- The lines behind four tabs are those of the expression. -/
theorem sourceTexts_lines (connection : Catalog.Connection) (mode : Catalog.StorageMode) :
    Line.sourceTexts ((plan.lines connection mode tag).map Line.render) =
      Text.lines (Definition.queryExpression connection plan.query.render) := by
  have deep (texts : List Text) :
      (texts.map (Line.text 4)).map Line.render = texts.map (Line.tabs 4 ++ ·) := by
    rw [List.map_map]
    rfl
  rw [plan.lines_eq, List.map_append, List.map_append, Line.sourceTexts_append,
    Line.sourceTexts_append, Line.sourceTexts_of_isShallow (plan.areShallow_linesBefore tag mode),
    Line.sourceTexts_of_isShallow plan.areShallow_linesBehind, deep, Line.sourceTexts_deep,
    List.nil_append, List.append_nil]

/-- The lines of a table carry its query without the carriage returns of its line ends. -/
theorem carriedQuery?_lines (connection : Catalog.Connection) (mode : Catalog.StorageMode) :
    Definition.carriedQuery? ((plan.lines connection mode tag).map Line.render) =
      some (Text.withoutReturns plan.query.render) := by
  have ends : ∀ last ∈ (Text.fields '\n'
      (Definition.queryExpression connection plan.query.render)).getLast?, last ≠ [] := by
    rw [Definition.getLast?_fields_queryExpression]
    rintro last ⟨⟩
    decide
  rw [Definition.carriedQuery?, sourceTexts_lines, Text.joined_lines ends,
    Definition.sentQuery?_withoutReturns]

/-- The text of a table file is read line by line if its names stand on one line each. -/
theorem carriedQuery?_text {context : Context} {table : Catalog.Table}
    (single : (build context table).HasSingleLines)
    (singleTag : ∀ member, Text.IsSingleLine (tag member)) (connection : Catalog.Connection)
    (mode : Catalog.StorageMode) :
    Definition.carriedQuery? (Text.fields '\n' ((build context table).text connection mode tag)) =
      some (Text.withoutReturns (build context table).query.render) := by
  have readable := isReadable_outline single connection mode
  have nested := Definition.TableOutline.isNested_freshState readable singleTag
  have lines : Text.fields '\n' ((build context table).text connection mode tag) =
      ((build context table).lines connection mode tag).map Line.render ++ [[]] := by
    rw [text_eq, map_render_lines, ← List.append_nil (Block.textOfLines _),
      Document.fields_textOfLines_append _ [] (Definition.TableOutline.fileLines_single readable nested)
        (by decide)]
  have last : Line.sourceTexts [[]] = [] := rfl
  rw [lines, Definition.carriedQuery?, Line.sourceTexts_append, last, List.append_nil,
    ← Definition.carriedQuery?, carriedQuery?_lines]

/-- What the file of a table has to do with its query. The lines of the file carry the
query, with the line ends of the file, and carry it unchanged exactly if no carriage return
in it stands directly before a line feed. -/
structure CarriesQuery (connection : Catalog.Connection) (mode : Catalog.StorageMode) :
    Prop where
  carries : Definition.carriedQuery? ((plan.lines connection mode tag).map Line.render) =
    some (Text.withoutReturns plan.query.render)
  unchanged : Definition.carriedQuery? ((plan.lines connection mode tag).map Line.render) =
    some plan.query.render ↔ ¬['\r', '\n'] <:+: plan.query.render
  ofText : plan.HasSingleLines -> (∀ member, Text.IsSingleLine (tag member)) ->
    Definition.carriedQuery? (Text.fields '\n' (plan.text connection mode tag)) =
      Definition.carriedQuery? ((plan.lines connection mode tag).map Line.render)

/-- The partition of every table carries its query, whatever stands in it. -/
theorem carriesQuery_build (context : Context) (table : Catalog.Table)
    (connection : Catalog.Connection) (mode : Catalog.StorageMode)
    (tag : Definition.Member -> Text) :
    (build context table).CarriesQuery tag connection mode := by
  have carries := (build context table).carriedQuery?_lines tag connection mode
  refine ⟨carries, ?_, fun single singleTag => ?_⟩
  · rw [carries, Option.some.injEq, Text.withoutReturns_eq_self_iff]
  · rw [carries, carriedQuery?_text tag single singleTag]

/-- The accounts whose name is a given text, written with character references. -/
def accountsNamed (reference : Text) : Catalog.Table :=
  { Catalog.Table.plain "account" "accountid" with
    filter := some ("<filter><condition attribute='name' operator='eq' value='a" ++ reference ++
      "b'/></filter>") }

def plainContext : Context :=
  ⟨.empty, ⟨⟨0⟩, .unrestricted⟩, none, []⟩

/-- A value with a quote, a line feed and a lone carriage return is read back from the text
of the file. -/
theorem carriesQuery_build_marks :
    let plan := build plainContext (accountsNamed "&#34;&#13;&#9;&#10;")
    plan.HasSingleLines ∧
      Definition.carriedQuery? (Text.fields '\n'
          (plan.text ⟨.fabricLink, [], [], []⟩ .directQuery fun _ => [])) =
        some plan.query.render := by
  intro plan
  have single : plan.HasSingleLines := by decide +kernel
  have carries := carriesQuery_build plainContext (accountsNamed "&#34;&#13;&#9;&#10;")
    ⟨.fabricLink, [], [], []⟩ .directQuery fun _ => []
  have apart : ¬['\r', '\n'] <:+: plan.query.render := by decide +kernel
  exact ⟨single, (carries.ofText single fun _ => by decide).trans (carries.unchanged.mpr apart)⟩

/-- A line end of two characters inside a value loses its carriage return, so the partition
asks for another name than the filter. -/
theorem loses_return_of_lineEnd :
    let plan := build plainContext (accountsNamed "&#13;&#10;")
    Definition.carriedQuery? (Text.fields '\n'
        (plan.text ⟨.dataverse, [], [], []⟩ .directQuery fun _ => [])) =
      some "SELECT Base.accountid FROM account AS Base WHERE Base.name = 'a\nb'" ∧
    plan.query.render =
      "SELECT Base.accountid FROM account AS Base WHERE Base.name = 'a\r\nb'" := by
  intro plan
  have single : plan.HasSingleLines := by decide +kernel
  have query : plan.query.render =
      "SELECT Base.accountid FROM account AS Base WHERE Base.name = 'a\r\nb'" := by decide +kernel
  refine ⟨?_, query⟩
  rw [carriedQuery?_text _ single fun _ => by decide, query]
  decide +kernel

end Plan.Table

end TabularModel
