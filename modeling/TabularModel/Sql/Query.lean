import TabularModel.Sql.Expression

/-!
# Queries

A query selects items from tables, perhaps under conditions and in groups. It may
define names for other queries in front, combine several selections, and say in
which order and how many rows it gives.
-/

set_option autoImplicit false

namespace TabularModel

namespace Sql

/-- The words that are no names of items where no word announces a name. -/
def notColumnAliases : List Text :=
  ["WITH", "EXPLAIN", "ANALYZE", "SELECT", "WHERE", "GROUP", "SORT", "HAVING", "ORDER", "TOP",
    "LATERAL", "VIEW", "LIMIT", "OFFSET", "FETCH", "UNION", "EXCEPT", "INTERSECT", "CLUSTER",
    "DISTRIBUTE", "RETURNING", "FROM", "INTO", "END"].map String.toList

/-- The words that are no names of tables where no word announces a name. -/
def notTableAliases : List Text :=
  ["WITH", "EXPLAIN", "ANALYZE", "SELECT", "WHERE", "GROUP", "SORT", "HAVING", "ORDER", "PIVOT",
    "UNPIVOT", "TOP", "LATERAL", "VIEW", "LIMIT", "OFFSET", "FETCH", "UNION", "EXCEPT",
    "INTERSECT", "ON", "JOIN", "INNER", "CROSS", "FULL", "LEFT", "RIGHT", "NATURAL", "USING",
    "CLUSTER", "DISTRIBUTE", "GLOBAL", "ANTI", "SEMI", "RETURNING", "ASOF", "MATCH_CONDITION",
    "OUTER", "SET", "QUALIFY", "WINDOW", "END", "FOR", "PARTITION", "PREWHERE", "SETTINGS",
    "FORMAT", "START", "CONNECT", "MATCH_RECOGNIZE", "SAMPLE", "TABLESAMPLE"].map String.toList

/-- An alias, with or without the word that announces it. -/
def optionalAlias (refused : List Text) : Tail := fun tokens =>
  if startsWith (isKeyword "AS") tokens then
    (both (keyword "AS") (one "an identifier after AS" isName) tokens).map Shorter.weaken
  else optionalToken (fun token => isName token && !(keyword? token).any refused.contains) tokens

/-- Names in parentheses. -/
def nameList : Reader :=
  inParentheses (listOf name)

/-- The alias of a table, which may name the columns. -/
def tableAlias : Tail := fun tokens =>
  match optionalAlias notTableAliases tokens with
  | .error fault => .error fault
  | .ok ⟨rest, shorter⟩ =>
      if rest.length < tokens.length then
        (whenStarting (startsWith (isMark "(")) nameList rest).map fun left =>
          ⟨left.val, Nat.le_trans left.property shorter⟩
      else .ok ⟨rest, shorter⟩

namespace Level

variable (level : Level)

/-! ## Items -/

/-- Whether an expression that leaves the given rest is a name with a value. -/
def isNaming (tokens rest : List Token) : Bool :=
  match tokens with
  | word :: equals :: value =>
      let isValueWord := isKeyword "NULL" word || isOneOf timeWords word
      isWord word && !isValueWord && (isMark "=" equals || isMark "==" equals) &&
        !startsWith isQuantifier value &&
        match level.expression 20 value with
        | .ok left => left.val.length == rest.length
        | .error _ => false
  | _ => false

/-- An item of a selection. The word that announces the tables is none by itself,
and a name with a value takes no other name. -/
def item : Reader := fun tokens =>
  if startsWith (isMark "*") tokens then mark "*" tokens
  else
    match qualifiedAsterisk tokens with
    | .ok rest => .ok rest
    | .error _ =>
        match level.expression 0 tokens with
        | .error fault => .error fault
        | .ok rest =>
            if startsWith (isKeyword "FROM") tokens && rest.val.length == tokens.tail.length then
              expectedAt "an expression" tokens
            else if level.isNaming tokens rest.val then .ok rest
            else (optionalAlias notColumnAliases rest.val).map rest.extend

/-- How many rows are taken from the start. -/
def top : Reader :=
  followedBy (both (keyword "TOP") <|
      either (startsWith (isMark "(")) (inParentheses (level.expression 0))
        (one "literal int" isNumber)) <|
    inTurn [optionalKeyword "PERCENT",
      whenStarting (startsWithKeywords ["WITH", "TIES"]) (both (keyword "WITH") (keyword "TIES"))]

/-- What stands between the first word of a selection and its items. -/
def quantity : Tail := fun tokens =>
  if startsWithKeywords ["ALL", "DISTINCT"] tokens then
    .error (.expected "either all or distinct" tokens.head?)
  else
    inTurn
      [optionalKeyword "ALL",
        whenStarting (startsWith (isKeyword "DISTINCT")) <|
          followedBy (keyword "DISTINCT") <|
            clause "ON" (inParentheses (listOf (level.expression 0))),
        whenStarting (startsWith (isKeyword "TOP")) level.top] tokens

/-! ## Tables -/

/-- A query or tables with joins in parentheses. -/
def enclosedTables : Reader := fun tokens =>
  match followedBy (inParentheses level.query) tableAlias tokens with
  | .ok rest => .ok rest
  | .error .tooDeep => .error .tooDeep
  | .error _ => followedBy (inParentheses level.tables) tableAlias tokens

/-- A table with its alias. Two words announce other forms, which need a
parenthesis. -/
def table : Reader := fun tokens =>
  if startsWith (isKeyword "LATERAL") tokens then
    both (keyword "LATERAL")
      (followedBy
        (either (startsWith (isMark "(")) (inParentheses level.query) (both objectName level.call))
        tableAlias)
      tokens
  else if startsWith (isKeyword "TABLE") tokens then
    both (keyword "TABLE") (followedBy (inParentheses (level.expression 0)) tableAlias) tokens
  else if startsWith (isMark "(") tokens then level.enclosedTables tokens
  else
    followedBy objectName
      (inTurn [whenStarting (startsWith (isMark "(")) level.call, tableAlias,
        whenStarting (fun rest => startsWith (isKeyword "WITH") rest &&
            startsWith (isMark "(") rest.tail)
          (both (keyword "WITH") (inParentheses (listOf (level.expression 0))))])
      tokens

def joinWords : List Text :=
  ["JOIN", "INNER", "CROSS", "LEFT", "RIGHT", "FULL", "OUTER"].map String.toList

/-- The words that announce a joined table. -/
def joinKind : Reader := fun tokens =>
  if startsWith (isKeyword "CROSS") tokens then
    both (keyword "CROSS") (one "JOIN or APPLY after CROSS" (isOneOf ["JOIN", "APPLY"])) tokens
  else if startsWith (isKeyword "OUTER") tokens then
    both (keyword "OUTER") (keyword "APPLY") tokens
  else if startsWith (isOneOf ["LEFT", "RIGHT"]) tokens then
    both (one "LEFT" (isOneOf ["LEFT", "RIGHT"]))
      (precededBy (optionalToken (isOneOf ["OUTER", "SEMI", "ANTI"])) (keyword "JOIN")) tokens
  else if startsWith (isKeyword "FULL") tokens then
    both (keyword "FULL") (precededBy (optionalKeyword "OUTER") (keyword "JOIN")) tokens
  else precededBy (optionalKeyword "INNER") (keyword "JOIN") tokens

/-- Another table that is joined, with the condition of the join. -/
def join : Reader := fun tokens =>
  let isUnconditional := startsWith (isOneOf ["CROSS", "OUTER"]) tokens
  followedBy (both joinKind level.table)
    (if isUnconditional then inTurn []
      else inTurn [clause "ON" (level.expression 0), clause "USING" nameList]) tokens

def joinedTables : Reader :=
  followedBy level.table (whileStarting (startsWith (isOneOf joinWords)) level.join)

/-- Tables in parentheses of their own have to be joined. -/
def tablesWith : Reader := fun tokens =>
  if startsWith (isMark "(") tokens then level.joinedTables tokens
  else followedBy (both level.table level.join)
    (whileStarting (startsWith (isOneOf joinWords)) level.join) tokens

/-! ## Selections -/

def expressions : Reader :=
  listOf (level.expression 0)

/-- An expression by which rows are ordered. -/
def orderKey : Reader :=
  followedBy (level.expression 0) <| inTurn
    [optionalToken (isOneOf ["ASC", "DESC"]),
      clause "NULLS" (one "FIRST or LAST" (isOneOf ["FIRST", "LAST"]))]

def selection : Reader :=
  followedBy (both (keyword "SELECT") (precededBy level.quantity (listOf level.item))) <| inTurn
    [clause "INTO" objectName,
      clause "FROM" (listOf level.joinedTables),
      clause "WHERE" (level.expression 0),
      clause "GROUP" (both (keyword "BY") level.expressions),
      clause "HAVING" (level.expression 0)]

def valueRow : Reader :=
  inParentheses level.expressions

/-- A selection, a query in parentheses, or rows of values. -/
def body : Reader := fun tokens =>
  if startsWith (isKeyword "SELECT") tokens then level.selection tokens
  else if startsWith (isMark "(") tokens then inParentheses level.query tokens
  else if startsWith (isKeyword "VALUES") tokens then
    both (keyword "VALUES") (listOf level.valueRow) tokens
  else expectedAt "SELECT, VALUES, or a subquery in the query body" tokens

def isCombination (token : Token) : Bool :=
  isOneOf ["UNION", "EXCEPT", "INTERSECT"] token

/-- Another selection whose rows are combined with those before it. -/
def combination : Reader :=
  both (one "UNION" isCombination)
    (precededBy (optionalToken (isOneOf ["ALL", "DISTINCT"])) level.body)

/-- A name for a query in parentheses. -/
def definition : Reader :=
  both (followedBy name (whenStarting (startsWith (isMark "(")) nameList))
    (both (keyword "AS") (inParentheses level.query))

/-- How many rows a query gives. -/
def fetch : Reader :=
  both (followedBy (one "FIRST or NEXT" (isOneOf ["FIRST", "NEXT"])) <| inTurn
      [whenStarting (fun tokens => !startsWith (isOneOf ["ROW", "ROWS"]) tokens)
        (one "a value" isNumber), optionalKeyword "PERCENT"])
    (both (one "ROW or ROWS" (isOneOf ["ROW", "ROWS"]))
      (either (startsWith (isKeyword "ONLY")) (keyword "ONLY")
        (both (keyword "WITH") (keyword "TIES"))))

def queryWith : Reader :=
  followedBy
    (precededBy
      (clause "WITH" (precededBy (optionalKeyword "RECURSIVE") (listOf level.definition)))
      level.body) <| inTurn
    [whileStarting (startsWith isCombination) level.combination,
      clause "ORDER" (both (keyword "BY") (listOf level.orderKey)),
      clause "LIMIT" (level.expression 0),
      clause "OFFSET" (followedBy (level.expression 0) (optionalToken (isOneOf ["ROW", "ROWS"]))),
      clause "FETCH" fetch]

end Level

end Sql

end TabularModel
