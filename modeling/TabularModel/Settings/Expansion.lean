import TabularModel.SortedMap
import TabularModel.Text.Alphanumeric

/-!
# Variables in settings

A text refers to a variable of the environment by `$name` or `${name}`. The
value takes the place of the reference and is not read again. A dollar sign that
begins neither form stands for itself. A variable that is not set is an error.
-/

set_option autoImplicit false

namespace TabularModel

/-- The variables that are set, by their names. -/
abbrev Environment := SortedMap Text

namespace Environment

/-- No variable has an empty name or one with an equals sign. -/
def value? (environment : Environment) (name : Text) : Option Text :=
  if name.isEmpty || name.contains '=' then none else environment.get? name

end Environment

namespace Expansion

/-- A part of a text: a character that stands for itself or a reference. -/
inductive Segment where
  | character (c : Char)
  | variable (name : Text)
deriving DecidableEq, Repr

def continuesName (c : Char) : Bool :=
  isAlphanumeric c || c == '_'

def endsBraced (c : Char) : Bool :=
  c == '}'

/-- The segment after a dollar sign, and what follows it. An open brace without
a closing one extends to the end of the text. -/
def reference (text : Text) : Segment × Text :=
  match text with
  | '{' :: rest =>
      (.variable (rest.takeWhile (!endsBraced ·)), (rest.dropWhile (!endsBraced ·)).drop 1)
  | _ =>
      match text.takeWhile continuesName with
      | [] => (.character '$', text)
      | name => (.variable name, text.dropWhile continuesName)

theorem length_reference_le (text : Text) : (reference text).2.length ≤ text.length := by
  have dropped (p : Char -> Bool) (rest : Text) : (rest.dropWhile p).length ≤ rest.length :=
    (List.dropWhile_sublist p).length_le
  unfold reference
  split
  · next rest =>
      have shorter := dropped (!endsBraced ·) rest
      simp only [List.length_drop, List.length_cons]
      omega
  · split
    · exact Nat.le_refl _
    · exact dropped continuesName text

/-- The segments of a text. -/
def segments : Text -> List Segment
  | [] => []
  | c :: rest =>
      if c = '$' then (reference rest).1 :: segments (reference rest).2
      else .character c :: segments rest
termination_by text => text.length
decreasing_by
  · exact Nat.lt_succ_of_le (length_reference_le rest)
  · exact Nat.lt_succ_self _

/-- What a segment stands for, or the name of a variable that is not set. -/
def Segment.resolve (environment : Environment) : Segment -> Except Text Text
  | .character c => .ok [c]
  | .variable name =>
      match environment.value? name with
      | some value => .ok value
      | none => .error name

end Expansion

/-- The text with the values of its variables, or the name of the first variable
that is not set. -/
def expand (environment : Environment) (text : Text) : Except Text Text :=
  ((Expansion.segments text).mapM (Expansion.Segment.resolve environment)).map List.flatten

end TabularModel
