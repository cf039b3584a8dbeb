import TabularModel.Definition.Line
import TabularModel.Text.Blank

/-!
# Blocks of a definition file

A definition file is read as a forest of blocks by the tabs in front of its
lines: a line that is indented deeper than an earlier one belongs to its block.
A blank line belongs to the last block that has begun, and lines with three
slashes belong to the block that follows them. Nothing else about the lines is
interpreted, so that unknown content survives.
-/

set_option autoImplicit false

namespace TabularModel

/-- A line as it is written, the documentation lines in front of it, and the
blocks inside it. -/
structure Block where
  docs : List Text
  line : Text
  children : List Block
deriving Repr

namespace Block

instance : Inhabited Block := ⟨⟨[], [], []⟩⟩

def ofLine (line : Text) : Block := ⟨[], line, []⟩

def depthOf (line : Text) : Nat :=
  (line.takeWhile (· == '\t')).length

def depth (block : Block) : Nat :=
  depthOf block.line

def isBlank (block : Block) : Bool :=
  Text.allBlank block.line

/-- The line without the blanks around it. -/
def text (block : Block) : Text :=
  Text.trim block.line

/-- What follows a keyword at the start of the line, if it stands there as a
word. -/
def header? (block : Block) (keyword : Text) : Option Text :=
  match Text.dropStart? keyword block.text with
  | some [] => some []
  | some (c :: rest) => if TabularModel.isBlank c then some (Text.trimLeft (c :: rest)) else none
  | none => none

def hasHeader (keyword : Text) (block : Block) : Bool :=
  (block.header? keyword).isSome

/-- The value of a line of the form `name: value`. -/
def valueOf? (name : Text) (block : Block) : Option Text :=
  match Text.dropStart? name block.text with
  | some rest =>
      match Text.trimLeft rest with
      | ':' :: value => some (Text.trim value)
      | _ => none
  | none => none

def isProperty (name : Text) (block : Block) : Bool :=
  (block.valueOf? name).isSome

/-- The value of the first property with the given name. -/
def property? (block : Block) (name : Text) : Option Text :=
  block.children.findSome? (valueOf? name)

def hasFlag (block : Block) (name : Text) : Bool :=
  block.children.any (·.text == name)

def childrenWith (block : Block) (keyword : Text) : List Block :=
  block.children.filter (hasHeader keyword)

/-- Changes the first element that satisfies a test. -/
def changeFirst (test : Block -> Bool) (change : Block -> Block) : List Block -> List Block
  | [] => []
  | block :: rest =>
      if test block then change block :: rest else block :: changeFirst test change rest

def propertyLine (depth : Nat) (name value : Text) : Text :=
  Line.tabs depth ++ name ++ ": " ++ value

/-- Gives the first property of that name a new value. A block without the
property stays as it is. -/
def setProperty (block : Block) (name value : Text) : Block :=
  { block with
    children := changeFirst (isProperty name)
      (fun child => { child with line := propertyLine child.depth name value }) block.children }

/-- Puts a block behind the first one that satisfies a test, or in front of all
of them. -/
def insertAfter (test : Block -> Bool) (added : Block) (blocks : List Block) : List Block :=
  match blocks.findIdx? test with
  | some position => blocks.take (position + 1) ++ added :: blocks.drop (position + 1)
  | none => added :: blocks

/-- Adds a property behind the one named `anchor`, or in front of all children. -/
def insertProperty (block : Block) (anchor name value : Text) : Block :=
  let added := ofLine (propertyLine (block.depth + 1) name value)
  { block with children := insertAfter (isProperty anchor) added block.children }

/-- Changes the children with a keyword. -/
def changeWith (block : Block) (keyword : Text) (change : Block -> Block) : Block :=
  { block with
    children := block.children.map fun child =>
      if hasHeader keyword child then change child else child }

/-- The block at a path of positions, of which the first is one among the given
blocks and each other one is among the children. -/
def at? : (blocks : List Block) -> (path : List Nat) -> Option Block
  | _, [] => none
  | blocks, [position] => blocks[position]?
  | blocks, position :: path => blocks[position]?.bind fun block => at? block.children path

/-- Changes the block at a path of positions. -/
def changeAt (change : Block -> Block) : (path : List Nat) -> (blocks : List Block) -> List Block
  | [], blocks => blocks
  | [position], blocks => blocks.modify position change
  | position :: path, blocks =>
      blocks.modify position fun block =>
        { block with children := changeAt change path block.children }

mutual

/-- The lines of a block in their order. -/
def lines : Block -> List Text
  | ⟨docs, line, children⟩ => docs ++ line :: linesOfEach children

def linesOfEach : List Block -> List Text
  | [] => []
  | block :: blocks => block.lines ++ linesOfEach blocks

end

def textOfLines (lines : List Text) : Text :=
  lines.flatMap (· ++ ['\n'])

def render (block : Block) : Text :=
  textOfLines block.lines

end Block

/-- The blocks of a file, and whether its last line is ended. -/
structure Document where
  blocks : List Block
  isEnded : Bool
deriving Repr

namespace Document

/-- A line that begins a block, with the documentation lines in front of it and
the blank lines behind it. -/
structure Entry where
  docs : List Text
  line : Text
  blanks : List Text
deriving DecidableEq, Repr

/-- The lines of a file grouped into entries. Blank lines may come before the
first entry, and documentation lines after the last one. -/
structure Entries where
  blanks : List Text
  entries : List Entry
  docs : List Text
deriving DecidableEq, Repr

def isDoc (line : Text) : Bool :=
  "///".toList.isPrefixOf (Text.trimLeft line)

/-- Groups lines, with `pending` documentation lines in front of them. -/
def group (pending : List Text) : List Text -> Entries
  | [] => ⟨[], [], pending⟩
  | line :: lines =>
      if Text.allBlank line then
        let rest := group pending lines
        { rest with blanks := line :: rest.blanks }
      else if isDoc line then group (pending ++ [line]) lines
      else
        let rest := group [] lines
        ⟨[], ⟨pending, line, rest.blanks⟩ :: rest.entries, rest.docs⟩

/-- Puts an entry in front of the blocks of the later lines, and takes those in
front that are deeper as its children. -/
def attach (entry : Entry) (later : List Block) : List Block :=
  let isDeeper := fun (block : Block) => Block.depthOf entry.line < block.depth
  ⟨entry.docs, entry.line, entry.blanks.map Block.ofLine ++ later.takeWhile isDeeper⟩ ::
    later.dropWhile isDeeper

def blocksOfLines (lines : List Text) : List Block :=
  let grouped := group [] lines
  grouped.blanks.map Block.ofLine ++ grouped.entries.foldr attach [] ++
    grouped.docs.map Block.ofLine

/-- A file without blocks, to which blocks may be added. -/
def empty : Document := ⟨[], true⟩

def ofText (text : Text) : Document :=
  if text = [] then ⟨[], false⟩
  else if text.getLast? = some '\n' then
    ⟨blocksOfLines (Text.fields '\n' text.dropLast), true⟩
  else ⟨blocksOfLines (Text.fields '\n' text), false⟩

def lines (document : Document) : List Text :=
  Block.linesOfEach document.blocks

def render (document : Document) : Text :=
  let text := Block.textOfLines document.lines
  if document.isEnded then text else text.dropLast

def blocksWith (document : Document) (keyword : Text) : List Block :=
  document.blocks.filter (Block.hasHeader keyword)

def changeWith (document : Document) (keyword : Text) (change : Block -> Block) : Document :=
  { document with
    blocks := document.blocks.map fun block =>
      if Block.hasHeader keyword block then change block else block }

end Document

end TabularModel
