import TabularModel.Decimal.Numeral

/-!
# Doubles as arguments

A double is written as an optional sign and a numeral with at least one digit,
or as the name of infinity or of what is not a number, in any letter case. A
numeral is read to the nearest double.
-/

set_option autoImplicit false

namespace TabularModel

namespace Decimal

/-- The exponent behind a mantissa; nothing at all is no exponent. -/
def exponentPart? : Text -> Option (Option Int)
  | [] => some none
  | mark :: digits => if mark = 'e' ∨ mark = 'E' then (integer? digits).map some else none

/-- The fraction behind the whole digits, and what follows it. -/
def fractionPart : Text -> Option Text × Text
  | '.' :: rest => (some (rest.takeWhile isDigit), rest.dropWhile isDigit)
  | rest => (none, rest)

def unsignedNumeral? (text : Text) : Option Numeral :=
  let whole := text.takeWhile isDigit
  let (fraction, rest) := fractionPart (text.dropWhile isDigit)
  if whole.isEmpty && (fraction.getD []).isEmpty then none
  else (exponentPart? rest).map fun exponent => ⟨false, whole, fraction, exponent⟩

def unsignedDouble? (text : Text) : Option Float :=
  if [("inf" : Text), "infinity"].contains (Text.lower text) then some (1 / 0)
  else if Text.lower text = "nan" then some (0 / 0)
  else (unsignedNumeral? text).map Numeral.nearest

def double? : Text -> Option Float
  | '-' :: rest => (unsignedDouble? rest).map fun x => -x
  | '+' :: rest => unsignedDouble? rest
  | text => unsignedDouble? text

end Decimal

end TabularModel
