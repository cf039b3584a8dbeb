import TabularModel.Text.Basic

/-!
# Lines of a definition file

Definition files are written line by line. A line stands at a depth, which is
the number of tabs in front of it, and an empty line has none.
-/

set_option autoImplicit false

namespace TabularModel

inductive Line where
  | blank
  | text (depth : Nat) (content : Text)
deriving DecidableEq, Repr

namespace Line

def tabs (depth : Nat) : Text :=
  List.replicate depth '\t'

def render : Line -> Text
  | .blank => []
  | .text depth content => tabs depth ++ content

def deeper (levels : Nat) : Line -> Line
  | .blank => .blank
  | .text depth content => .text (depth + levels) content

/-- Lines one level below the line in front of them. -/
def nested (lines : List Line) : List Line :=
  lines.map (deeper 1)

/-- One line for each line of an expression. -/
def ofExpression (expression : Text) : List Line :=
  (Text.lines expression).map (.text 0)

/-- The text of a file with the given lines, each of which is ended. -/
def fileText (lines : List Line) : Text :=
  lines.flatMap fun line => line.render ++ ['\n']

end Line

/-- A line without tabs. -/
def line (content : Text) : Line :=
  .text 0 content

end TabularModel
