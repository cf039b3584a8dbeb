import TabularModel.Sql.Reading

/-!
# Expressions

An expression is an operand, followed by operators with their right sides as long
as the operators bind tighter than the place of the expression asks for.

A word that begins a special form is tried as that form first. If that fails it
is taken as a name, unless it is reserved.
-/

set_option autoImplicit false

namespace TabularModel

namespace Sql

/-- The readers that nest, one level deeper. An expression is read as far as its
operators bind tighter than a given strength. -/
structure Level where
  expression : Nat -> Reader
  query : Reader
  tables : Reader

def startsQuery (tokens : List Token) : Bool :=
  startsWith (isOneOf ["SELECT", "WITH"]) tokens

/-- The parts of a name after its first word. -/
def nameParts : Tail :=
  whileStarting (startsWith (isMark ".")) <|
    both (mark ".") (one "an identifier or a '*' after '.'" isName)

def objectName : Reader :=
  followedBy name nameParts

/-- A name with an asterisk in the place of its last part. -/
def qualifiedAsterisk : Reader :=
  let continues := fun (tokens : List Token) =>
    startsWith (isMark ".") tokens && startsWith isName tokens.tail
  both (followedBy name (whileStarting continues (both (mark ".") name)))
    (both (mark ".") (mark "*"))

/-! ## Types -/

def plainTypes : List Text :=
  ["BIGINT", "BOOL", "BOOLEAN", "BYTEA", "DATE", "DATE32", "INT", "INTEGER", "JSON", "JSONB",
    "LONGTEXT", "MEDIUMTEXT", "REAL", "REGCLASS", "SMALLINT", "TEXT", "TINYINT", "TINYTEXT",
    "UUID"].map String.toList

def sizedTypes : List Text :=
  ["BIGDECIMAL", "BIGNUMERIC", "BINARY", "BIT", "BLOB", "CHAR", "CHARACTER", "CLOB", "DATETIME",
    "DEC", "DECIMAL", "DOUBLE", "FLOAT", "NUMERIC", "NVARCHAR", "STRING", "TIME", "TIMESTAMP",
    "TIMESTAMPTZ", "TIMETZ", "VARBINARY", "VARCHAR"].map String.toList

/-- The sizes of a type in parentheses. -/
def typeSizes : Tail :=
  whenStarting (startsWith (isMark "(")) <| inParentheses <|
    listOf (one "a size" fun token => isWord token || isNumber token || isString token)

def builtInType : Reader :=
  either (startsWith (isOneOf sizedTypes))
    (followedBy (one "a data type name" (isOneOf sizedTypes)) typeSizes)
    (one "a data type name" (isOneOf plainTypes))

def dataType : Reader := fun tokens =>
  if startsWith (isOneOf (plainTypes ++ sizedTypes)) tokens then builtInType tokens
  else if startsWith isWord tokens then followedBy objectName typeSizes tokens
  else expectedAt "a data type name" tokens

/-- A string with the name of its type in front of it. -/
def typedString : Reader :=
  both builtInType (one "literal string" isString)

/-! ## Strengths of operators -/

def comparisons : List Text :=
  ["=", "==", "<>", "!=", "<", ">", "<=", ">="].map String.toList

/-- The operators that are no comparisons and no words, by their strengths. -/
def markStrengths : List (Text × Nat) :=
  [("->", 16), ("->>", 16), ("<@", 16), ("@>", 16), ("@?", 16), ("@@", 16), ("#>", 16),
    ("#>>", 16), ("#-", 16), ("<=>", 20), ("~", 20), ("~*", 20), ("!~", 20), ("!~*", 20),
    ("~~", 20), ("~~*", 20), ("!~~", 20), ("!~~*", 20), ("|", 21), ("^", 22), ("&", 23),
    ("+", 30), ("-", 30), ("*", 40), ("/", 40), ("%", 40), ("||", 40), ("::", 50)].map
    fun (characters, strength) => (characters.toList, strength)

def wordStrengths : List (Text × Nat) :=
  [("OR", 5), ("AND", 10), ("IS", 17), ("LIKE", 19), ("ILIKE", 19), ("RLIKE", 19),
    ("REGEXP", 19), ("SIMILAR", 19), ("IN", 20), ("BETWEEN", 20), ("OPERATOR", 20), ("XOR", 24),
    ("DIV", 40)].map
    fun (characters, strength) => (characters.toList, strength)

/-- The operators that may be negated. -/
def isNegatable (token : Token) : Bool :=
  isOneOf ["LIKE", "ILIKE", "RLIKE", "REGEXP", "SIMILAR", "IN", "BETWEEN"] token

def strengthIn (strengths : List (Text × Nat)) (operator : Text) : Nat :=
  ((strengths.find? (·.1 == operator)).map (·.2)).getD 0

def strengthOfWord (word : Text) : Nat :=
  strengthIn wordStrengths word

/-- How strong the operator at the start of the tokens binds; zero if there is
none. -/
def strength : List Token -> Nat
  | [] => 0
  | token :: rest =>
      match token.symbol with
      | .mark characters =>
          if comparisons.contains characters then 20 else strengthIn markStrengths characters
      | _ =>
          if isKeyword "NOT" token then
            if startsWith isNegatable rest then
              ((rest.head?.bind keyword?).map strengthOfWord).getD 0
            else 0
          else if isKeyword "AT" token then
            if startsWithKeywords ["TIME", "ZONE"] rest then 41 else 0
          else ((keyword? token).map strengthOfWord).getD 0

namespace Level

variable (level : Level)

/-! ## Calls -/

/-- An expression, or an asterisk that stands for all columns. -/
def asteriskOrExpression : Reader := fun tokens =>
  if startsWith (isMark "*") tokens then mark "*" tokens
  else
    match qualifiedAsterisk tokens with
    | .ok rest => .ok rest
    | .error _ => level.expression 0 tokens

/-- An argument, which may have a name in front of it. -/
def argument : Reader :=
  let isNaming := fun token => isMark ":" token || isKeyword "VALUE" token
  followedBy level.asteriskOrExpression <|
    whenStarting (startsWith isNaming) (both (one "a naming" isNaming) level.asteriskOrExpression)

/-- The arguments of a call with the parentheses around them. -/
def call : Reader :=
  both (mark "(") <| either (startsWith (isMark ")")) (mark ")") <|
    both (precededBy (optionalToken (isOneOf ["ALL", "DISTINCT"])) (listOf level.argument))
      (mark ")")

/-- What follows the first word of a column or of a call. A plus sign alone in the
parentheses marks the column of an outer join. -/
def named : Tail :=
  let outer := fun (tokens : List Token) =>
    startsWith (isMark "+") tokens.tail && startsWith (isMark ")") tokens.tail.tail
  inTurn [nameParts, whenStarting (startsWith (isMark "(")) <|
    either outer (inParentheses (mark "+")) level.call]

/-! ## Forms that begin with a keyword -/

/-- A query in parentheses. -/
def existing : Reader :=
  inParentheses level.query

def cast : Reader :=
  inParentheses (both (level.expression 0) (both (keyword "AS") dataType))

def trim : Reader :=
  inParentheses <| precededBy (optionalToken (isOneOf ["BOTH", "LEADING", "TRAILING"])) <|
    followedBy (level.expression 0) (clause "FROM" (level.expression 0))

def caseBranch : Reader :=
  both (keyword "WHEN") (both (level.expression 0) (both (keyword "THEN") (level.expression 0)))

/-- What follows the first word of a distinction of cases. -/
def caseForm : Reader :=
  let isWhen := startsWith (isKeyword "WHEN")
  let distinguished := whenStarting (fun tokens => !isWhen tokens) (level.expression 0)
  both
    (followedBy (precededBy distinguished level.caseBranch)
      (inTurn [whileStarting isWhen level.caseBranch, clause "ELSE" (level.expression 0)]))
    (keyword "END")

def negation : Reader :=
  either (startsWith (isKeyword "EXISTS")) (both (keyword "EXISTS") level.existing)
    (level.expression 15)

def timeWords : List Text :=
  ["CURRENT_TIMESTAMP", "CURRENT_TIME", "CURRENT_DATE", "LOCALTIME", "LOCALTIMESTAMP"].map
    String.toList

def castWords : List Text :=
  ["CAST", "TRY_CAST", "SAFE_CAST"].map String.toList

/-- What follows the keyword of a special form. -/
def special? (keyword : Text) : Option Tail :=
  let always := fun (reader : Reader) => some (whenStarting (fun _ => true) reader)
  if keyword = "NULL" then some fun tokens => .ok (.same tokens)
  else if timeWords.contains keyword then
    some (whenStarting (startsWith (isMark "(")) level.call)
  else if keyword = "EXISTS" then always level.existing
  else if keyword = "NOT" then always level.negation
  else if keyword = "CASE" then always level.caseForm
  else if castWords.contains keyword then always level.cast
  else if keyword = "TRIM" then always level.trim
  else none

/-- The keywords that are never taken as names where their form fails. -/
def isReserved (keyword : Text) : Bool :=
  keyword = "EXISTS" || keyword = "TRIM"

/-- What follows a word at the start of an expression. -/
def afterWord (token : Token) : Tail := fun rest =>
  match (keyword? token).bind fun keyword => (level.special? keyword).map (keyword, ·) with
  | none => level.named rest
  | some (keyword, form) =>
      match form rest with
      | .ok left => .ok left
      | .error fault =>
          if isReserved keyword then .error fault
          else
            match level.named rest with
            | .ok left => .ok left
            | .error _ => .error fault

/-! ## Operands -/

/-- Calls that are chained behind an operand, and the order of its texts. -/
def suffix : Tail :=
  let method := both (mark ".") (both (one "identifier" isWord) level.call)
  inTurn
    [attempt (followedBy method (whileStarting (startsWith (isMark ".")) method)),
      clause "COLLATE" objectName]

/-- What stands in parentheses, with the part that is taken of it. -/
def enclosed : Reader :=
  let inner := either startsQuery level.query (listOf (level.expression 0))
  let part := both (mark ".") (one "identifier" isWord)
  followedBy (inParentheses inner) <|
    inTurn [level.suffix, whenStarting (startsWith (isMark ".")) part]

def units : List Text :=
  ["YEAR", "QUARTER", "MONTH", "WEEK", "DAY", "HOUR", "MINUTE", "SECOND"].map String.toList

/-- An expression without infix operators. -/
def operand (tokens : List Token) : Except Fault (Shorter tokens) :=
  match typedString tokens with
  | .ok rest => .ok rest
  | .error _ =>
      match tokens with
      | [] => .error (.expected "an expression" none)
      | token :: rest =>
          let taken : Shorter (token :: rest) := ⟨rest, Nat.lt_succ_self _⟩
          match token.symbol with
          | .word _ | .quotedWord _ _ _ =>
              if isKeyword "INTERVAL" token then
                match operand rest with
                | .error fault => .error fault
                | .ok amount =>
                    (optionalToken (isOneOf units) amount.val).map fun left =>
                      taken.extend (amount.weaken.extend left)
              else
                (inTurn [level.afterWord token, level.suffix] rest).map taken.extend
          | .number _ | .string _ | .constant _ => (level.suffix rest).map taken.extend
          | .mark characters =>
              if characters = "(" then level.enclosed (token :: rest)
              else if characters = "-" ∨ characters = "+" then
                taken.continueWith (level.expression 40)
              else .error (.expected "an expression" (some token))
termination_by tokens.length

/-! ## Operators -/

def isQuantifier (token : Token) : Bool :=
  isOneOf ["ANY", "ALL", "SOME"] token

/-- The right side of a comparison with all or some of several values. -/
def quantified (binding : Nat) : Reader :=
  both (one "ANY" isQuantifier) fun tokens =>
    if startsQuery tokens.tail then level.expression binding tokens
    else inParentheses (level.expression binding) tokens

/-- The right side of a symmetrical operator. -/
def rightSide (isComparison : Bool) (binding : Nat) : Reader := fun tokens =>
  if startsWith isQuantifier tokens then
    if isComparison then level.quantified binding tokens
    else expectedAt "an expression" tokens
  else level.expression binding tokens

/-- What follows the word that tests for a constant. -/
def afterIs : Reader :=
  precededBy (optionalKeyword "NOT") <|
    either (startsWithKeywords ["DISTINCT", "FROM"])
      (both (keyword "DISTINCT") (both (keyword "FROM") (level.expression 0)))
      (one "[NOT] NULL or TRUE|FALSE or [NOT] DISTINCT FROM after IS"
        (isOneOf ["NULL", "TRUE", "FALSE", "UNKNOWN"]))

def afterLike : Reader :=
  followedBy (precededBy (optionalKeyword "ANY") (level.expression 19))
    (clause "ESCAPE" (one "literal string" isName))

def afterSimilar : Reader :=
  both (keyword "TO")
    (followedBy (level.expression 19) (clause "ESCAPE" (one "literal string" isName)))

def afterBetween : Reader :=
  both (level.expression 20) (both (keyword "AND") (level.expression 20))

def afterIn : Reader :=
  either (startsWith (isKeyword "UNNEST"))
    (both (keyword "UNNEST") (inParentheses (level.expression 0)))
    (inParentheses (either startsQuery level.query (listOf (level.expression 0))))

/-- What follows an operator that may be negated. -/
def afterNegatable (operator : Token) : Reader :=
  if isKeyword "IN" operator then level.afterIn
  else if isKeyword "BETWEEN" operator then level.afterBetween
  else if isOneOf ["LIKE", "ILIKE"] operator then level.afterLike
  else if isKeyword "SIMILAR" operator then level.afterSimilar
  else level.expression 19

/-- What follows an operator of a given strength. -/
def afterOperator (operator : Token) (binding : Nat) : Reader :=
  match operator.symbol with
  | .mark characters =>
      if characters = "::" then dataType
      else level.rightSide (comparisons.contains characters) binding
  | _ =>
      if isKeyword "NOT" operator then fun tokens =>
        match tokens with
        | [] => .error (.expected "IN or BETWEEN after NOT" none)
        | negated :: rest =>
            let taken : Shorter (negated :: rest) := ⟨rest, Nat.lt_succ_self _⟩
            taken.continueWith (level.afterNegatable negated)
      else if isNegatable operator then level.afterNegatable operator
      else if isKeyword "IS" operator then level.afterIs
      else if isKeyword "AT" operator then
        both (keyword "TIME") (both (keyword "ZONE") (level.expression binding))
      else if isOneOf ["AND", "OR", "XOR"] operator then level.rightSide false binding
      else fun tokens => expectedAt "an operator" tokens

/-- The operator at the start of the tokens with what follows it. -/
def operation : Reader := fun tokens =>
  match tokens with
  | [] => .error (.expected "an expression" none)
  | operator :: rest =>
      let taken : Shorter (operator :: rest) := ⟨rest, Nat.lt_succ_self _⟩
      taken.continueWith (level.afterOperator operator (strength (operator :: rest)))

/-- An expression whose operators bind tighter than `loosest`. -/
def expressionWith (loosest : Nat) : Reader :=
  followedBy level.operand <|
    whileStarting (fun tokens => loosest < strength tokens) level.operation

end Level

end Sql

end TabularModel
