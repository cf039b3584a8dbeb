import TabularModel.Decimal.Double
import TabularModel.Filter.Conversion

/-!
# Arguments

Options are written as `--name value`, `--name=value`, `-n value`, `-nvalue` or
`-n=value`, flags as `--name`, and all else is positional, as is everything
behind two hyphens. No option and no flag may be given twice. A value may not
look like an option, unless the option takes such values.
-/

set_option autoImplicit false

namespace TabularModel

namespace CommandLine

/-- An option or a flag. -/
structure Switch where
  name : Text
  letter : Option Char
  takesValue : Bool
  takesHyphens : Bool
deriving DecidableEq, Repr

namespace Switch

def option (name : Text) (letter : Option Char) : Switch := ⟨name, letter, true, false⟩

def flag (name : Text) : Switch := ⟨name, none, false, false⟩

end Switch

/-- The options and flags that were given, with the values of the options, and
the positional arguments. -/
structure Given where
  switches : List (Text × Text)
  positional : List Text
deriving DecidableEq, Repr

namespace Given

def empty : Given := ⟨[], []⟩

def has (given : Given) (name : Text) : Bool :=
  given.switches.any (·.1 == name)

def value? (given : Given) (name : Text) : Option Text :=
  (given.switches.find? (·.1 == name)).map (·.2)

def add? (given : Given) (switch : Switch) (value : Text) : Option Given :=
  if given.has switch.name then none
  else some { given with switches := given.switches ++ [(switch.name, value)] }

end Given

def looksLikeSwitch (argument : Text) : Bool :=
  argument.head? == some '-' && 1 < argument.length

/-- What an argument says by itself: all that follows is positional, it is a
switch that is complete or waits for a value, or it is positional. -/
inductive Reading where
  | rest
  | complete (switch : Switch) (value : Text)
  | waiting (switch : Switch)
  | positional
deriving DecidableEq, Repr

def readLong? (switches : List Switch) (text : Text) : Option Reading :=
  let name := text.takeWhile (· != '=')
  match switches.find? (·.name == name), text.dropWhile (· != '=') with
  | none, _ => none
  | some switch, [] => some (if switch.takesValue then .waiting switch else .complete switch [])
  | some switch, _ :: value => if switch.takesValue then some (.complete switch value) else none

def readShort? (switches : List Switch) (letter : Char) (text : Text) : Option Reading :=
  match switches.find? (·.letter == some letter), text with
  | none, _ => none
  | some switch, [] => some (.waiting switch)
  | some switch, '=' :: value => some (.complete switch value)
  | some switch, value => some (.complete switch value)

def read? (switches : List Switch) (argument : Text) : Option Reading :=
  match argument with
  | ['-', '-'] => some .rest
  | '-' :: '-' :: text => readLong? switches text
  | '-' :: letter :: text => readShort? switches letter text
  | _ => some .positional

/-- The arguments sorted out, unless they do not fit the switches. -/
def sortOut? (switches : List Switch) (given : Given) : List Text -> Option Given
  | [] => some given
  | argument :: arguments =>
      match read? switches argument with
      | none => none
      | some .rest => some { given with positional := given.positional ++ arguments }
      | some .positional =>
          sortOut? switches { given with positional := given.positional ++ [argument] } arguments
      | some (.complete switch value) =>
          (given.add? switch value).bind fun extended => sortOut? switches extended arguments
      | some (.waiting switch) =>
          match arguments with
          | [] => none
          | value :: others =>
              if looksLikeSwitch value && !switch.takesHyphens then none
              else (given.add? switch value).bind fun extended => sortOut? switches extended others

/-- What to generate, where the earlier definitions are and the new ones go, and
whether changes are applied. -/
structure GenerateArguments where
  input : Text
  out : Text
  config : Option Text
  dryRun : Bool
  force : Bool
deriving DecidableEq, Repr

structure FilterArguments where
  file : Text
  offsetHours : Float
  tableAlias : Text
  environment : Filter.Environment
deriving Repr

inductive Command where
  | generate (arguments : GenerateArguments)
  | filter (arguments : FilterArguments)
deriving Repr

namespace Command

def generateSwitches : List Switch :=
  [.option "input" (some 'i'), .option "config" (some 'c'), .option "out" (some 'o'),
    .flag "dry-run", .flag "force"]

def filterSwitches : List Switch :=
  [⟨"utc-offset", none, true, true⟩, .option "alias" none, .flag "fabric-link",
    .flag "import-mode"]

/-- A path is never empty. -/
def path? (value : Option Text) : Option Text :=
  value.filter (!·.isEmpty)

/-- The path behind an option that may be left out. -/
def optionalPath? (value : Option Text) : Option (Option Text) :=
  match value with
  | none => some none
  | some [] => none
  | some path => some (some path)

def generateOf? (given : Given) : Option Command := do
  guard given.positional.isEmpty
  return .generate {
    input := <- path? (given.value? "input")
    out := <- path? (given.value? "out")
    config := <- optionalPath? (given.value? "config")
    dryRun := given.has "dry-run"
    force := given.has "force" }

def offsetOf? (value : Option Text) : Option Float :=
  match value with
  | none => some 0
  | some text => Decimal.double? text

def filterOf? (given : Given) : Option Command :=
  match given.positional with
  | [file] => do
      return .filter {
        file := <- path? (some file)
        offsetHours := <- offsetOf? (given.value? "utc-offset")
        tableAlias := (given.value? "alias").getD "Base"
        environment := ⟨given.has "fabric-link", given.has "import-mode"⟩ }
  | _ => none

/-- The command that some arguments ask for, unless they ask for none. -/
def ofArguments? : List Text -> Option Command
  | [] => none
  | name :: arguments =>
      if name = ("generate" : Text) then
        (sortOut? generateSwitches .empty arguments).bind generateOf?
      else if name = ("filter" : Text) then
        (sortOut? filterSwitches .empty arguments).bind filterOf?
      else none

end Command

end CommandLine

end TabularModel
