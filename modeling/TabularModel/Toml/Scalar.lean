import TabularModel.Decimal.Numeral
import TabularModel.Toml.Basic

/-!
# Numbers, flags and moments of a settings document

Underscores may stand between digits. Integers are written in base ten without
leading zeros, or in another base behind a mark of it. A number with a point or
an exponent is a float, read to the nearest one.
-/

set_option autoImplicit false

namespace TabularModel

namespace Toml

/-- The digits of a text in which single underscores separate groups. -/
def ungrouped? (isDigit : Char -> Bool) (text : Text) : Option Text :=
  let groups := Text.fields '_' text
  if groups.all fun group => !group.isEmpty && group.all isDigit then some groups.flatten
  else none

/-- The digits of a whole number in base ten. -/
def wholeDigits? (text : Text) : Option Text :=
  match ungrouped? Decimal.isDigit text with
  | some ['0'] => some ['0']
  | some ('0' :: _) => none
  | digits => digits

def hexValue? (c : Char) : Option Nat :=
  if '0' ≤ c ∧ c ≤ '9' then some (c.toNat - '0'.toNat)
  else if 'a' ≤ c ∧ c ≤ 'f' then some (c.toNat - 'a'.toNat + 10)
  else if 'A' ≤ c ∧ c ≤ 'F' then some (c.toNat - 'A'.toNat + 10)
  else none

def isDigitBelow (base : Nat) (c : Char) : Bool :=
  (hexValue? c).any (· < base)

/-- The value of digits in a base, with underscores between them. -/
def inBase? (base : Nat) (text : Text) : Option Nat :=
  (ungrouped? (isDigitBelow base) text).map fun digits =>
    digits.foldl (fun total c => total * base + (hexValue? c).getD 0) 0

def signed? : Text -> Option Int
  | '-' :: digits => (wholeDigits? digits).map fun written => -(Decimal.value written : Int)
  | '+' :: digits => (wholeDigits? digits).map fun written => (Decimal.value written : Int)
  | digits => (wholeDigits? digits).map fun written => (Decimal.value written : Int)

/-- Integers that cannot be represented in 128 bits are refused. -/
def isRepresentable (n : Int) : Bool :=
  -(Nat.pow 2 127 : Nat) ≤ n && n < (Nat.pow 2 128 : Nat)

def integer? (text : Text) : Option Int :=
  (match text with
    | '0' :: 'x' :: digits => (inBase? 16 digits).map Int.ofNat
    | '0' :: 'o' :: digits => (inBase? 8 digits).map Int.ofNat
    | '0' :: 'b' :: digits => (inBase? 2 digits).map Int.ofNat
    | _ => signed? text).filter isRepresentable

def exponent? (text : Text) : Option Int :=
  let digits := fun (text : Text) => (ungrouped? Decimal.isDigit text).map Decimal.value
  match text with
  | '-' :: rest => (digits rest).map fun n => -(n : Int)
  | '+' :: rest => (digits rest).map fun n => (n : Int)
  | rest => (digits rest).map fun n => (n : Int)

/-- The parts of a text before and after a mark, of which the second may be
absent. -/
def splitOptional (isMark : Char -> Bool) (text : Text) : Text × Option Text :=
  match text.dropWhile (!isMark ·) with
  | [] => (text, none)
  | _ :: after => (text.takeWhile (!isMark ·), some after)

/-- An optional part that has to be readable if it is there. -/
def optional? {α : Type} (read : Text -> Option α) : Option Text -> Option (Option α)
  | none => some none
  | some text => (read text).map some

def magnitude? (text : Text) : Option Float := do
  let (mantissa, exponent) := splitOptional (fun c => c == 'e' || c == 'E') text
  let (whole, fraction) := splitOptional (· == '.') mantissa
  guard (fraction.isSome || exponent.isSome)
  let numeral : Decimal.Numeral :=
    { negative := false
      whole := <- wholeDigits? whole
      fraction := <- optional? (ungrouped? Decimal.isDigit) fraction
      exponent := <- optional? exponent? exponent }
  let x := numeral.nearest
  if x.isInf then none else some x

def unsignedFloat? (text : Text) : Option Float :=
  if text = ("inf" : Text) then some (1 / 0)
  else if text = ("nan" : Text) then some (0 / 0)
  else magnitude? text

def float? : Text -> Option Float
  | '-' :: rest => (unsignedFloat? rest).map fun x => -x
  | '+' :: rest => unsignedFloat? rest
  | rest => unsignedFloat? rest

/-- The value of a word that is no string. -/
def scalar? (text : Text) : Option Toml :=
  if text = ("true" : Text) then some (.boolean true)
  else if text = ("false" : Text) then some (.boolean false)
  else
    ((integer? text).map .integer <|> (float? text).map .float) <|>
      (moment? text).map .moment

end Toml

end TabularModel
