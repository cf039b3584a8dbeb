import TabularModel.Definition.ModelFile
import TabularModel.Proofs.Definition.Grouping
import TabularModel.Proofs.Definition.Lines

/-!
# The tables that a model file lists

A model file lists each table of the model in a line of its own, behind lines about
the model as a whole. None of those lines looks like one of a table, as long as the
culture stands on one line: the names in the order of the queries are escaped.
-/

set_option autoImplicit false

namespace TabularModel

/-! ## Interchange texts on one line -/

namespace Json

theorem isSingleLine_escaped (c : Char) : Text.IsSingleLine (escaped c) := by
  have digit : ∀ n < 16, '\n' ≠ hexDigit n := by decide
  rw [escaped]
  split_ifs with quote backslash feed carriage tab backspace page small
  iterate 7 decide
  · have front : Text.IsSingleLine "\\u00" := by decide
    have high : '\n' ≠ hexDigit (c.toNat / 16) := digit _ (by omega)
    have low : '\n' ≠ hexDigit (c.toNat % 16) := digit _ (by omega)
    refine Text.isSingleLine_append.mpr ⟨front, ?_⟩
    rw [Text.IsSingleLine, List.mem_pair, not_or]
    exact ⟨high, low⟩
  · exact fun member => feed (List.mem_singleton.mp member).symm

theorem isSingleLine_quoted (content : Text) : Text.IsSingleLine (quoted content) := by
  have inside : Text.IsSingleLine (content.flatMap escaped) := by
    intro member
    obtain ⟨c, _, feed⟩ := List.mem_flatMap.mp member
    exact isSingleLine_escaped c feed
  have front : Text.IsSingleLine ['"'] := by decide
  exact Text.isSingleLine_append.mpr ⟨front, Text.isSingleLine_append.mpr ⟨inside, front⟩⟩

theorem renderEach_strings (texts : List Text) :
    renderEach (texts.map .string) = texts.map quoted := by
  induction texts with
  | nil => rfl
  | cons text texts ih =>
      rw [List.map_cons, renderEach, render, ih, List.map_cons]

theorem isSingleLine_joined {separator : Text} (single : Text.IsSingleLine separator)
    {pieces : List Text} (each : ∀ piece ∈ pieces, Text.IsSingleLine piece) :
    Text.IsSingleLine (Text.joined separator pieces) := by
  induction pieces with
  | nil => exact List.not_mem_nil
  | cons piece pieces ih =>
      have first := each piece List.mem_cons_self
      have others := ih fun other member => each other (List.mem_cons_of_mem piece member)
      cases pieces with
      | nil => simpa [Text.joined, List.intercalate] using first
      | cons next pieces =>
          rw [Text.joined, List.intercalate_cons_cons]
          exact Text.isSingleLine_append.mpr
            ⟨Text.isSingleLine_append.mpr ⟨first, single⟩, others⟩

theorem isSingleLine_render_strings (texts : List Text) :
    Text.IsSingleLine (strings texts).render := by
  have items : Text.IsSingleLine (Text.joined "," (texts.map quoted)) := by
    refine isSingleLine_joined (by decide) fun piece member => ?_
    obtain ⟨text, _, rfl⟩ := List.mem_map.mp member
    exact isSingleLine_quoted text
  have opening : Text.IsSingleLine ['['] := by decide
  have closing : Text.IsSingleLine [']'] := by decide
  rw [strings, render, renderEach_strings]
  exact Text.isSingleLine_append.mpr ⟨opening, Text.isSingleLine_append.mpr ⟨items, closing⟩⟩

end Json

/-! ## Listed tables -/

namespace Definition

/-- The table that a line of a model file lists. -/
def referredTable? (line : Text) : Option Text :=
  (Text.dropStart? "ref table " line).map fun written => (Name.split written).1

def referredTables (text : Text) : List Text :=
  (Text.fields '\n' text).filterMap referredTable?

theorem referredTable?_line (name : Text) :
    referredTable? (line ("ref table " ++ Name.written name)).render = some name := by
  have content : (line ("ref table " ++ Name.written name)).render =
      "ref table " ++ Name.written name := rfl
  rw [referredTable?, content, Text.dropStart?_append, Option.map_some, Name.split_written_self]

/-- A nested line lists no table. -/
theorem referredTable?_deeper (nested : Line) :
    referredTable? (nested.deeper 1).render = none := by
  cases nested <;> rfl

/-- The lines of a model file in front of those of the tables. -/
def modelLines (culture : Text) (queryOrder : List Text) : List Line :=
  line "model Model" ::
    Line.nested
      [ line ("culture: " ++ culture),
        line "defaultPowerBIDataSourceVersion: powerBI_V3",
        line "discourageImplicitMeasures",
        line ("sourceQueryCulture: " ++ culture),
        .blank,
        line ("annotation PBI_QueryOrder = " ++ (Json.strings queryOrder).render),
        .blank ]

theorem filterMap_referredTable?_modelLines (culture : Text) (queryOrder : List Text) :
    ((modelLines culture queryOrder).map Line.render).filterMap referredTable? = [] := by
  rw [List.filterMap_map, List.filterMap_eq_nil_iff]
  intro found member
  rcases List.mem_cons.mp member with rfl | nested
  · decide
  · obtain ⟨inner, _, rfl⟩ := List.mem_map.mp nested
    exact referredTable?_deeper inner

theorem isSingleLine_modelLines {culture : Text} (single : Text.IsSingleLine culture)
    (queryOrder : List Text) :
    ∀ found ∈ modelLines culture queryOrder, Text.IsSingleLine found.render := by
  have order : Text.IsSingleLine
      ("annotation PBI_QueryOrder = " ++ (Json.strings queryOrder).render) :=
    Text.isSingleLine_append.mpr ⟨by decide, Json.isSingleLine_render_strings queryOrder⟩
  have own : Text.IsSingleLine ("culture: " ++ culture) :=
    Text.isSingleLine_append.mpr ⟨by decide, single⟩
  have source : Text.IsSingleLine ("sourceQueryCulture: " ++ culture) :=
    Text.isSingleLine_append.mpr ⟨by decide, single⟩
  have tabbed {content : Text} (single : Text.IsSingleLine content) :
      Text.IsSingleLine ((line content).deeper 1).render :=
    Text.isSingleLine_append.mpr ⟨by decide, single⟩
  intro found member
  simp only [modelLines, Line.nested, List.map_cons, List.map_nil, List.mem_cons, List.not_mem_nil,
    or_false] at member
  rcases member with rfl | rfl | rfl | rfl | rfl | rfl | rfl | rfl
  · decide
  · exact tabbed own
  · decide
  · decide
  · exact tabbed source
  · decide
  · exact tabbed order
  · decide

/-- A model file lists its tables, each once. -/
theorem referredTables_modelText {culture : Text} (single : Text.IsSingleLine culture)
    (queryOrder : List Text) {tables : List Text}
    (names : ∀ name ∈ tables, Text.IsSingleLine name) :
    referredTables (modelText culture queryOrder tables) = tables := by
  let listed : List Line := tables.map fun table => line ("ref table " ++ Name.written table)
  have whole : modelText culture queryOrder tables =
      Block.textOfLines ((modelLines culture queryOrder ++ listed).map Line.render) ++ [] := by
    rw [List.append_nil, ← Line.fileText_eq]
    rfl
  have each : ∀ text ∈ (modelLines culture queryOrder ++ listed).map Line.render,
      Text.IsSingleLine text := by
    intro text member
    obtain ⟨found, inside, rfl⟩ := List.mem_map.mp member
    rcases List.mem_append.mp inside with front | table
    · exact isSingleLine_modelLines single queryOrder found front
    · obtain ⟨name, known, rfl⟩ := List.mem_map.mp table
      have keyword : Text.IsSingleLine "ref table " := by decide
      have content : Text.IsSingleLine ("ref table " ++ Name.written name) :=
        Text.isSingleLine_append.mpr ⟨keyword, Name.isSingleLine_written (names name known)⟩
      exact content
  have read : (listed.map Line.render).filterMap referredTable? = tables := by
    rw [List.map_map, List.filterMap_map]
    exact (List.filterMap_congr fun name _ => referredTable?_line name).trans List.filterMap_some
  have last : [([] : Text)].filterMap referredTable? = [] := rfl
  rw [referredTables, whole, Document.fields_textOfLines_append _ _ each List.not_mem_nil,
    List.filterMap_append, List.map_append, List.filterMap_append,
    filterMap_referredTable?_modelLines, read, last, List.nil_append, List.append_nil]

end Definition

end TabularModel
