/-!
# Text

A text is a list of characters. Definition files, queries and filters are
handled in this form, so that every reader and writer is a function on lists,
and `String` appears only where the outer layer meets the system. Letter case
is folded in the ASCII range alone. Positions count UTF-8 bytes.
-/

set_option autoImplicit false

namespace TabularModel

abbrev Text := List Char

instance : Coe String Text := ⟨String.toList⟩

namespace Text

def lower (text : Text) : Text :=
  text.map Char.toLower

/-- Equality up to the case of ASCII letters. -/
def sameIgnoringCase (left right : Text) : Bool :=
  lower left == lower right

def byteLength : Text -> Nat
  | [] => 0
  | c :: rest => c.utf8Size + byteLength rest

/-- Writes every occurrence of `mark` twice. -/
def doubling (mark : Char) (text : Text) : Text :=
  text.flatMap fun c => if c = mark then [c, c] else [c]

/-- Reads every doubled `mark` as one; a `mark` that stands alone is kept. -/
def halving (mark : Char) : Text -> Text
  | [] => []
  | [c] => [c]
  | c :: next :: rest =>
      if c = mark ∧ next = mark then mark :: halving mark rest
      else c :: halving mark (next :: rest)

/-- The pieces between occurrences of `separator`, one more than there are
occurrences. -/
def fields (separator : Char) : Text -> List Text
  | [] => [[]]
  | c :: rest =>
      if c = separator then [] :: fields separator rest
      else
        match fields separator rest with
        | [] => [[c]]
        | piece :: pieces => (c :: piece) :: pieces

def joined (separator : Text) (pieces : List Text) : Text :=
  separator.intercalate pieces

def dropFinal (mark : Char) (text : Text) : Text :=
  if text.getLast? = some mark then text.dropLast else text

/-- The lines of a text: each ends at a line feed, which is dropped together
with one carriage return before it. A last line without a line feed counts
unless it is empty, and keeps its carriage return. -/
def lines (text : Text) : List Text :=
  let pieces := fields '\n' text
  let closed := pieces.dropLast.map (dropFinal '\r')
  match pieces.getLast? with
  | none | some [] => closed
  | some unfinished => closed ++ [unfinished]

/-- The rest of a text that begins with `start`. -/
def dropStart? : (start text : Text) -> Option Text
  | [], text => some text
  | _ :: _, [] => none
  | mark :: start, c :: text =>
      if mark = c then dropStart? start text else none

/-- The first part of a text that ends with `ending`. -/
def dropEnd? (ending text : Text) : Option Text :=
  (dropStart? ending.reverse text.reverse).map List.reverse

/-- Splits at the first `mark`, which belongs to neither part. -/
def splitAt? (mark : Char) : Text -> Option (Text × Text)
  | [] => none
  | c :: rest =>
      if c = mark then some ([], rest)
      else (splitAt? mark rest).map fun (before, after) => (c :: before, after)

def dropRightWhile (p : Char -> Bool) (text : Text) : Text :=
  (text.reverse.dropWhile p).reverse

/-- Whether `part` occurs in the text. -/
def includes (part : Text) : Text -> Bool
  | [] => part.isEmpty
  | c :: rest => part.isPrefixOf (c :: rest) || includes part rest

/-- Puts `replacement` in place of the first occurrence of `part`. -/
def replaceFirst (part replacement : Text) : Text -> Text
  | [] => if part.isEmpty then replacement else []
  | c :: rest =>
      match dropStart? part (c :: rest) with
      | some remaining => replacement ++ remaining
      | none => c :: replaceFirst part replacement rest

def isLetter (c : Char) : Bool :=
  ('a' ≤ c && c ≤ 'z') || ('A' ≤ c && c ≤ 'Z') || c == '_'

def isLetterOrDigit (c : Char) : Bool :=
  isLetter c || ('0' ≤ c && c ≤ '9')

/-- A digit in base sixteen, of either case. -/
def isHexDigit (c : Char) : Bool :=
  ('0' ≤ c && c ≤ '9') || ('a' ≤ c && c ≤ 'f') || ('A' ≤ c && c ≤ 'F')

/-- A letter or underscore followed by letters, digits and underscores, all of
them ASCII. -/
def isPlainName : Text -> Bool
  | [] => false
  | first :: rest => isLetter first && rest.all isLetterOrDigit

/-- The order of texts by code points, in which a text comes before its own
continuations. It is also the order of their UTF-8 bytes. -/
def before : (left right : Text) -> Bool
  | [], [] => false
  | [], _ :: _ => true
  | _ :: _, [] => false
  | a :: left, b :: right => a < b || (a == b && before left right)

theorem before_irrefl (text : Text) : before text text = false := by
  induction text with
  | nil => rfl
  | cons c text ih => simp [before, ih]

theorem before_trans {left middle right : Text} (first : before left middle = true)
    (second : before middle right = true) : before left right = true := by
  induction left generalizing middle right with
  | nil =>
      cases middle with
      | nil => simp [before] at first
      | cons b middle =>
          cases right with
          | nil => simp [before] at second
          | cons c right => rfl
  | cons a left ih =>
      cases middle with
      | nil => simp [before] at first
      | cons b middle =>
          cases right with
          | nil => simp [before] at second
          | cons c right =>
              simp only [before, Bool.or_eq_true, decide_eq_true_eq, Bool.and_eq_true,
                beq_iff_eq] at first second ⊢
              rcases first with below | ⟨same, first⟩
              · rcases second with above | ⟨same', _⟩
                · exact Or.inl (Char.lt_trans below above)
                · exact Or.inl (same' ▸ below)
              · rcases second with above | ⟨same', second⟩
                · exact Or.inl (same ▸ above)
                · exact Or.inr ⟨same.trans same', ih first second⟩

theorem before_or_eq_or_before (left right : Text) :
    before left right = true ∨ left = right ∨ before right left = true := by
  induction left generalizing right with
  | nil => cases right <;> simp [before]
  | cons a left ih =>
      cases right with
      | nil => simp [before]
      | cons b right =>
          simp only [before, Bool.or_eq_true, decide_eq_true_eq, Bool.and_eq_true, beq_iff_eq,
            List.cons.injEq]
          by_cases below : a < b
          · exact Or.inl (Or.inl below)
          · by_cases above : b < a
            · exact Or.inr (Or.inr (Or.inl above))
            · have same : a = b := Char.le_antisymm (Char.not_lt.mp above) (Char.not_lt.mp below)
              rcases ih right with first | equal | second
              · exact Or.inl (Or.inr ⟨same, first⟩)
              · exact Or.inr (Or.inl ⟨same, equal⟩)
              · exact Or.inr (Or.inr (Or.inr ⟨same.symm, second⟩))

end Text

end TabularModel
