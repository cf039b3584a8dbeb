import TabularModel.Decimal.Integer

/-!
# Decimal numerals and doubles

A numeral as it is written in a document, and the double it stands for. Two
readings are needed. The exact one gives the nearest double. The scaled one
collects as many digits as fit into 64 bits, takes the nearest double of that
integer, and multiplies or divides it by one power of ten; it fails where the
result would be infinite.
-/

set_option autoImplicit false

namespace TabularModel

namespace Decimal

/-- A sign, whole digits, fraction digits and an exponent. A numeral without a
point or without an exponent differs from one with an empty one. -/
structure Numeral where
  negative : Bool
  whole : Text
  fraction : Option Text
  exponent : Option Int
deriving DecidableEq, Repr

namespace Numeral

def ofInt (n : Int) : Numeral :=
  ⟨n < 0, natural n.natAbs, none, none⟩

/-- The value of a numeral without point and exponent; a negative zero is not an
integer. -/
def integer? (numeral : Numeral) : Option Int :=
  match numeral.fraction, numeral.exponent with
  | none, none =>
      let magnitude := value numeral.whole
      if numeral.negative then (if magnitude = 0 then none else some (-(magnitude : Int)))
      else some magnitude
  | _, _ => none

/-- Takes up digits while the number stays within 64 bits. Gives the number and
how many digits were taken. -/
def absorb (total count : Nat) : Text -> Nat × Nat
  | [] => (total, count)
  | c :: rest =>
      let next := total * 10 + digitValue c
      if next < 18446744073709551616 then absorb next (count + 1) rest else (total, count)

def powerOfTen (power : Nat) : Float :=
  Float.ofScientific 1 false power

/-- The greatest power of ten that is a double. -/
def greatestPower : Nat := 308

/-- Divides by a power of ten, in steps where that is not a double. -/
def divideByPower (x : Float) (power : Nat) : Float :=
  if greatestPower < power then
    if x == 0 then x
    else divideByPower (x / powerOfTen greatestPower) (power - greatestPower)
  else x / powerOfTen power
termination_by power
decreasing_by
  simp only [greatestPower] at *
  omega

def scaledMagnitude? (numeral : Numeral) : Option Float :=
  let fraction := numeral.fraction.getD []
  let (whole, wholeTaken) := absorb 0 0 numeral.whole
  let (digits, fractionTaken) := absorb whole 0 fraction
  let shift : Int := (numeral.whole.length : Int) - wholeTaken - fractionTaken
  let exponent := shift + numeral.exponent.getD 0
  let x := Float.ofNat digits
  if digits = 0 then some x
  else if exponent < 0 then some (divideByPower x (-exponent).toNat)
  else if (greatestPower : Int) < exponent then none
  else
    let scaled := x * powerOfTen exponent.toNat
    if scaled.isInf then none else some scaled

/-- The scaled reading. -/
def scaled? (numeral : Numeral) : Option Float :=
  numeral.scaledMagnitude?.map fun x => if numeral.negative then -x else x

/-- The exact reading, infinite where the numeral is beyond all doubles. -/
def nearest (numeral : Numeral) : Float :=
  let fraction := numeral.fraction.getD []
  let digits := value (numeral.whole ++ fraction)
  let exponent := numeral.exponent.getD 0 - fraction.length
  let magnitude := exponent + (natural digits).length
  let x :=
    if digits = 0 ∨ magnitude < -400 then 0
    else if 400 < magnitude then 1 / 0
    else Float.ofScientific digits (exponent < 0) exponent.natAbs
  if numeral.negative then -x else x

end Numeral

end Decimal

end TabularModel
