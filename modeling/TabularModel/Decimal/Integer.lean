import TabularModel.Text.Basic

/-!
# Decimal integers

Numerals in base ten. A numeral is read as an optional sign and at least one
ASCII digit; leading zeros are allowed.
-/

set_option autoImplicit false

namespace TabularModel

namespace Decimal

def natural (n : Nat) : Text :=
  Nat.toDigits 10 n

def integer : Int -> Text
  | .ofNat n => natural n
  | .negSucc n => '-' :: natural (n + 1)

def isDigit (c : Char) : Bool :=
  '0' ≤ c && c ≤ '9'

def digitValue (c : Char) : Nat :=
  c.toNat - '0'.toNat

/-- The value of a list of digits. -/
def value (digits : Text) : Nat :=
  digits.foldl (fun total c => total * 10 + digitValue c) 0

def natural? (text : Text) : Option Nat :=
  if text ≠ [] ∧ text.all isDigit then some (value text) else none

def integer? : Text -> Option Int
  | '-' :: digits => (natural? digits).map fun n => -(n : Int)
  | '+' :: digits => (natural? digits).map fun n => (n : Int)
  | digits => (natural? digits).map fun n => (n : Int)

/-- The signed integers of 32 bits. -/
def fits32 (n : Int) : Bool :=
  -2147483648 ≤ n && n ≤ 2147483647

/-- The signed integers of 64 bits. -/
def fits64 (n : Int) : Bool :=
  -9223372036854775808 ≤ n && n ≤ 9223372036854775807

end Decimal

end TabularModel
