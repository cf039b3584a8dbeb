import TabularModel.Proofs.Text.Characters
import TabularModel.Sql.Identifier

/-!
# Lexemes of a query

A query is cut into bare words, names in brackets, strings in quotes, signed
integers and marks, with blanks between them. The text is read from the left,
one character at a time, and a closing bracket or quote that is doubled belongs
to what it stands in. A written name is one lexeme and so is a written string,
whatever characters are in them, as long as what follows cannot continue them.
-/

set_option autoImplicit false

namespace TabularModel

namespace Sql

/-- What a name or a string is written in. -/
inductive Delimiter where
  | bracket
  | quote
deriving DecidableEq, Repr

def Delimiter.closing : Delimiter -> Char
  | .bracket => ']'
  | .quote => '\''

/-- Names and strings are given by what they stand for. -/
inductive Lexeme where
  | word (name : Text)
  | delimited (delimiter : Delimiter) (content : Text)
  | integer (numeral : Text)
  | mark (characters : Text)
  | unclosed (delimiter : Delimiter) (content : Text)
deriving DecidableEq, Repr

namespace Lexeme

/-- The name that an identifier stands for. -/
def name? : Lexeme -> Option Text
  | .word name => some name
  | .delimited .bracket name => some name
  | _ => none

/-- The value that a literal stands for. -/
def value? : Lexeme -> Option Text
  | .integer numeral => some numeral
  | .delimited .quote content => some content
  | _ => none

/-- The identifier that is written for a name. -/
def ofName (name : Text) : Lexeme :=
  if Text.isPlainName name then .word name else .delimited .bracket name

theorem name?_ofName (name : Text) : (ofName name).name? = some name := by
  rw [ofName]
  split <;> rfl

/-- What tells lexemes apart that stand for different values. -/
inductive Kind where
  | identifier
  | string
  | integer
  | mark (characters : Text)
  | unclosed
deriving DecidableEq, Repr

def kind : Lexeme -> Kind
  | .word _ => .identifier
  | .delimited .bracket _ => .identifier
  | .delimited .quote _ => .string
  | .integer _ => .integer
  | .mark characters => .mark characters
  | .unclosed _ _ => .unclosed

theorem kind_ofName (name : Text) : (ofName name).kind = .identifier := by
  rw [ofName]
  split <;> rfl

end Lexeme

/-! ## Reading -/

/-- How far the lexeme has come that is being read. -/
inductive Reading where
  | between
  | inWord (name : Text)
  | inInteger (numeral : Text)
  | inside (delimiter : Delimiter) (content : Text)
  | atClosing (delimiter : Delimiter) (content : Text)
  | atSign (sign : Char)
  | atAngle (angle : Char)
deriving DecidableEq, Repr

namespace Reading

/-- What a character begins. -/
def start (c : Char) : List Lexeme × Reading :=
  if isBlank c then ([], .between)
  else if Text.isLetter c then ([], .inWord [c])
  else if Decimal.isDigit c then ([], .inInteger [c])
  else if c = '[' then ([], .inside .bracket [])
  else if c = '\'' then ([], .inside .quote [])
  else if c = '+' ∨ c = '-' then ([], .atSign c)
  else if c = '<' ∨ c = '>' then ([], .atAngle c)
  else ([.mark [c]], .between)

/-- A character behind a lexeme that it does not continue. -/
def after (lexeme : Lexeme) (c : Char) : List Lexeme × Reading :=
  (lexeme :: (start c).1, (start c).2)

def step : Reading -> Char -> List Lexeme × Reading
  | .between, c => start c
  | .inWord name, c =>
      if Text.isLetterOrDigit c then ([], .inWord (name ++ [c])) else after (.word name) c
  | .inInteger numeral, c =>
      if Decimal.isDigit c then ([], .inInteger (numeral ++ [c])) else after (.integer numeral) c
  | .inside delimiter content, c =>
      if c = delimiter.closing then ([], .atClosing delimiter content)
      else ([], .inside delimiter (content ++ [c]))
  | .atClosing delimiter content, c =>
      if c = delimiter.closing then ([], .inside delimiter (content ++ [c]))
      else after (.delimited delimiter content) c
  | .atSign sign, c =>
      if Decimal.isDigit c then ([], .inInteger [sign, c]) else after (.mark [sign]) c
  | .atAngle angle, c =>
      if c = '=' ∨ (angle = '<' ∧ c = '>') then ([.mark [angle, c]], .between)
      else after (.mark [angle]) c

/-- What is left of a lexeme at the end of the text. -/
def finish : Reading -> List Lexeme
  | .between => []
  | .inWord name => [.word name]
  | .inInteger numeral => [.integer numeral]
  | .inside delimiter content => [.unclosed delimiter content]
  | .atClosing delimiter content => [.delimited delimiter content]
  | .atSign sign => [.mark [sign]]
  | .atAngle angle => [.mark [angle]]

end Reading

def lexFrom : Reading -> Text -> List Lexeme
  | reading, [] => reading.finish
  | reading, c :: rest => (reading.step c).1 ++ lexFrom (reading.step c).2 rest

/-- The lexemes of a text. -/
def lexemes (text : Text) : List Lexeme :=
  lexFrom .between text

/-! ## What a text spells -/

/-- Characters that end every lexeme in front of them. -/
def endsLexeme (c : Char) : Bool :=
  isBlank c || c == ',' || c == ')' || c == '.'

/-- Nothing follows that continues a lexeme. -/
def IsSeam (rest : Text) : Prop :=
  ∀ c ∈ rest.head?, endsLexeme c = true

theorem isSeam_nil : IsSeam [] := fun _ member => nomatch member

theorem isSeam_cons {c : Char} (ends : endsLexeme c = true) (rest : Text) : IsSeam (c :: rest) := by
  intro found member
  rw [← Option.some.inj member]
  exact ends

/-- In front of a seam the text is read as the given lexemes. -/
def Spells (text : Text) (read : List Lexeme) : Prop :=
  ∀ rest, IsSeam rest -> lexFrom .between (text ++ rest) = read ++ lexFrom .between rest

/-- The text is read as the given lexemes whatever follows. -/
def Leads (text : Text) (read : List Lexeme) : Prop :=
  ∀ rest, lexFrom .between (text ++ rest) = read ++ lexFrom .between rest

variable {text other : Text} {read more : List Lexeme}

theorem Spells.lexemes_eq (spells : Spells text read) : lexemes text = read := by
  have whole := spells [] isSeam_nil
  rwa [List.append_nil, lexFrom, Reading.finish, List.append_nil] at whole

namespace Leads

theorem spells (leads : Leads text read) : Spells text read := fun rest _ => leads rest

theorem append (leads : Leads text read) (next : Spells other more) :
    Spells (text ++ other) (read ++ more) := by
  intro rest seam
  rw [List.append_assoc, leads, next rest seam, List.append_assoc]

end Leads

/-! ## Fixed texts -/

/-- The lexemes that are complete at the end of a text, and where it ends. -/
def readFrom : Reading -> Text -> List Lexeme × Reading
  | reading, [] => ([], reading)
  | reading, c :: rest =>
      ((reading.step c).1 ++ (readFrom (reading.step c).2 rest).1,
        (readFrom (reading.step c).2 rest).2)

theorem lexFrom_append (reading : Reading) (text rest : Text) :
    lexFrom reading (text ++ rest) =
      (readFrom reading text).1 ++ lexFrom (readFrom reading text).2 rest := by
  induction text generalizing reading with
  | nil => rfl
  | cons c text ih => rw [List.cons_append, lexFrom, ih, readFrom, List.append_assoc]

/-- A text that ends between lexemes leads on to whatever follows. -/
theorem leads_of_readFrom {text : Text} {read : List Lexeme}
    (complete : readFrom .between text = (read, .between)) : Leads text read := by
  intro rest
  rw [lexFrom_append, complete]

/-! ## Single lexemes -/

/-- The reading stands at the end of a lexeme. -/
structure Reading.Settles (reading : Reading) (lexeme : Lexeme) : Prop where
  finish : reading.finish = [lexeme]
  step : ∀ c, endsLexeme c = true -> reading.step c = Reading.after lexeme c

theorem lexFrom_of_settles {reading : Reading} {lexeme : Lexeme} (settles : reading.Settles lexeme)
    {rest : Text} (seam : IsSeam rest) :
    lexFrom reading rest = lexeme :: lexFrom .between rest := by
  cases rest with
  | nil => rw [lexFrom, settles.finish, lexFrom, Reading.finish]
  | cons c rest =>
      rw [lexFrom, settles.step c (seam c rfl), lexFrom]
      rfl

theorem not_isLetterOrDigit_of_endsLexeme {c : Char} (ends : endsLexeme c = true) :
    Text.isLetterOrDigit c = false := by
  refine Bool.eq_false_iff.mpr fun plain => ?_
  simp only [endsLexeme, Bool.or_eq_true, beq_iff_eq] at ends
  rcases ends with ((blank | rfl) | rfl) | rfl
  · rw [Text.not_isBlank_of_isLetterOrDigit plain] at blank
    exact Bool.noConfusion blank
  all_goals exact absurd plain (by decide)

theorem not_isDigit_of_endsLexeme {c : Char} (ends : endsLexeme c = true) :
    Decimal.isDigit c = false := by
  have plain := not_isLetterOrDigit_of_endsLexeme ends
  rw [Text.isLetterOrDigit_eq, Bool.or_eq_false_iff] at plain
  exact plain.2

theorem ne_closing_of_endsLexeme {c : Char} (ends : endsLexeme c = true) (delimiter : Delimiter) :
    c ≠ delimiter.closing := by
  rintro rfl
  cases delimiter <;> exact absurd ends (by decide)

theorem settles_inWord (name : Text) : (Reading.inWord name).Settles (.word name) := by
  refine ⟨rfl, fun c ends => ?_⟩
  rw [Reading.step, not_isLetterOrDigit_of_endsLexeme ends, if_neg Bool.false_ne_true]

theorem settles_inInteger (numeral : Text) :
    (Reading.inInteger numeral).Settles (.integer numeral) := by
  refine ⟨rfl, fun c ends => ?_⟩
  rw [Reading.step, not_isDigit_of_endsLexeme ends, if_neg Bool.false_ne_true]

theorem settles_atClosing (delimiter : Delimiter) (content : Text) :
    (Reading.atClosing delimiter content).Settles (.delimited delimiter content) := by
  refine ⟨rfl, fun c ends => ?_⟩
  rw [Reading.step, if_neg (ne_closing_of_endsLexeme ends delimiter)]

/-! ## Words and integers -/

theorem lexFrom_inWord (name word rest : Text)
    (plain : ∀ c ∈ word, Text.isLetterOrDigit c = true) :
    lexFrom (.inWord name) (word ++ rest) = lexFrom (.inWord (name ++ word)) rest := by
  induction word generalizing name with
  | nil => rw [List.append_nil]; rfl
  | cons c word ih =>
      rw [List.cons_append, lexFrom, Reading.step, if_pos (plain c List.mem_cons_self),
        ih _ fun other member => plain other (List.mem_cons_of_mem c member), List.append_assoc]
      rfl

theorem lexFrom_inInteger (numeral digits rest : Text)
    (isDigits : ∀ c ∈ digits, Decimal.isDigit c = true) :
    lexFrom (.inInteger numeral) (digits ++ rest) = lexFrom (.inInteger (numeral ++ digits)) rest := by
  induction digits generalizing numeral with
  | nil => rw [List.append_nil]; rfl
  | cons c digits ih =>
      rw [List.cons_append, lexFrom, Reading.step, if_pos (isDigits c List.mem_cons_self),
        ih _ fun other member => isDigits other (List.mem_cons_of_mem c member), List.append_assoc]
      rfl

theorem spells_word {name : Text} (plain : Text.isPlainName name = true) :
    Spells name [.word name] := by
  intro rest seam
  obtain ⟨first, others, rfl, letter, word⟩ := (Text.isPlainName_iff name).mp plain
  have begins : Reading.step .between first = ([], .inWord [first]) := by
    rw [Reading.step, Reading.start, Text.not_isBlank_of_isLetter letter,
      if_neg Bool.false_ne_true, if_pos letter]
  rw [List.cons_append, lexFrom, begins, List.nil_append, lexFrom_inWord _ _ _ word,
    lexFrom_of_settles (settles_inWord _) seam]
  rfl

theorem start_of_isDigit {c : Char} (digit : Decimal.isDigit c = true) :
    Reading.start c = ([], .inInteger [c]) := by
  have notLetter : Text.isLetter c = false := by
    have code := (Text.isDigit_iff c).mp digit
    rw [Bool.eq_false_iff, ne_eq, Text.isLetter_iff]
    omega
  rw [Reading.start, Text.not_isBlank_of_isDigit digit, if_neg Bool.false_ne_true, notLetter,
    if_neg Bool.false_ne_true, if_pos digit]

theorem spells_digits {digits : Text} (nonempty : digits ≠ [])
    (isDigits : ∀ c ∈ digits, Decimal.isDigit c = true) : Spells digits [.integer digits] := by
  intro rest seam
  obtain ⟨first, others, rfl⟩ := List.exists_cons_of_ne_nil nonempty
  rw [List.cons_append, lexFrom, Reading.step, start_of_isDigit (isDigits first List.mem_cons_self),
    List.nil_append, lexFrom_inInteger _ _ _ fun c member => isDigits c (List.mem_cons_of_mem _ member),
    lexFrom_of_settles (settles_inInteger _) seam]
  rfl

theorem spells_signed {sign : Char} (isSign : sign = '+' ∨ sign = '-') {digits : Text}
    (nonempty : digits ≠ []) (isDigits : ∀ c ∈ digits, Decimal.isDigit c = true) :
    Spells (sign :: digits) [.integer (sign :: digits)] := by
  intro rest seam
  obtain ⟨first, others, rfl⟩ := List.exists_cons_of_ne_nil nonempty
  have begins : Reading.start sign = ([], .atSign sign) := by
    rcases isSign with rfl | rfl <;> decide
  rw [List.cons_append, List.cons_append, lexFrom, Reading.step, begins, List.nil_append, lexFrom,
    Reading.step, if_pos (isDigits first List.mem_cons_self), List.nil_append,
    lexFrom_inInteger _ _ _ fun c member => isDigits c (List.mem_cons_of_mem _ member),
    lexFrom_of_settles (settles_inInteger _) seam]
  rfl

/-! ## Names and strings -/

/-- A doubled closing character is read as one. -/
theorem lexFrom_inside_doubling (delimiter : Delimiter) (content more rest : Text) :
    lexFrom (.inside delimiter content) (Text.doubling delimiter.closing more ++ rest) =
      lexFrom (.inside delimiter (content ++ more)) rest := by
  induction more generalizing content with
  | nil => rw [List.append_nil]; rfl
  | cons c more ih =>
      have whole : content ++ c :: more = (content ++ [c]) ++ more := by simp
      rw [Text.doubling_cons, whole, ← ih]
      by_cases closing : c = delimiter.closing
      · rw [if_pos closing, List.append_assoc]
        simp [lexFrom, Reading.step, closing]
      · rw [if_neg closing, List.append_assoc]
        simp [lexFrom, Reading.step, closing]

theorem lexFrom_inside_plain (delimiter : Delimiter) (content more rest : Text)
    (absent : delimiter.closing ∉ more) :
    lexFrom (.inside delimiter content) (more ++ rest) =
      lexFrom (.inside delimiter (content ++ more)) rest := by
  induction more generalizing content with
  | nil => rw [List.append_nil]; rfl
  | cons c more ih =>
      rw [List.mem_cons, not_or] at absent
      rw [List.cons_append, lexFrom, Reading.step, if_neg (Ne.symm absent.1), List.nil_append,
        ih _ absent.2, List.append_assoc]
      rfl

theorem lexFrom_inside_closing (delimiter : Delimiter) (content : Text) {rest : Text}
    (seam : IsSeam rest) :
    lexFrom (.inside delimiter content) (delimiter.closing :: rest) =
      .delimited delimiter content :: lexFrom .between rest := by
  rw [lexFrom, Reading.step, if_pos rfl, List.nil_append,
    lexFrom_of_settles (settles_atClosing delimiter content) seam]

/-- A name is one identifier, whatever its characters are. -/
theorem spells_identifier (name : Text) : Spells (identifier name) [.ofName name] := by
  rw [identifier, Lexeme.ofName]
  split
  · next plain => exact spells_word plain
  · intro rest seam
    have opening : Reading.start '[' = ([], .inside .bracket []) := by decide
    have inside := lexFrom_inside_doubling .bracket [] name (']' :: rest)
    rw [bracketed, List.cons_append, lexFrom, Reading.step, opening, List.nil_append,
      List.append_assoc]
    refine inside.trans ?_
    exact lexFrom_inside_closing .bracket name seam

/-- A string is one literal, whatever its characters are. -/
theorem spells_stringLiteral (content : Text) :
    Spells (stringLiteral content) [.delimited .quote content] := by
  intro rest seam
  have opening : Reading.start '\'' = ([], .inside .quote []) := by decide
  have inside := lexFrom_inside_doubling .quote [] content ('\'' :: rest)
  rw [stringLiteral, List.cons_append, lexFrom, Reading.step, opening, List.nil_append,
    List.append_assoc]
  refine inside.trans ?_
  exact lexFrom_inside_closing .quote content seam

/-- A text without quotes is one literal as it stands. -/
theorem spells_quoted {content : Text} (absent : '\'' ∉ content) :
    Spells ('\'' :: (content ++ ['\''])) [.delimited .quote content] := by
  intro rest seam
  have opening : Reading.start '\'' = ([], .inside .quote []) := by decide
  rw [List.cons_append, lexFrom, Reading.step, opening, List.nil_append, List.append_assoc,
    lexFrom_inside_plain .quote [] content _ absent]
  exact lexFrom_inside_closing .quote content seam

end Sql

end TabularModel
