import TabularModel.Decimal.Integer

/-!
# Shortest decimal text of a double

A finite double is m · 2^q. All reals closer to it than to its neighbours read
back as the same double; the ends of that interval do so exactly if m is even.
The digits written are those of the coarsest decimal grid that has a point in
the interval, and of two such points the nearer one. They are written in
positional notation, without an exponent and without a final `.0`.
-/

set_option autoImplicit false

namespace TabularModel

namespace Decimal

/-- The value `coefficient · 2 ^ power` of a positive double, and whether the
gap below it is only half of the gap above. -/
structure Dyadic where
  coefficient : Nat
  power : Int
  narrowBelow : Bool
deriving DecidableEq, Repr

/-- The digits `digits · 10 ^ power`. -/
structure Digits where
  digits : Nat
  power : Int
deriving DecidableEq, Repr

namespace Dyadic

/-- Four times the value, its two borders and a grid point, scaled to whole
numbers. -/
def scaled (value : Dyadic) (power : Int) (quarters : Nat) : Nat :=
  quarters * Nat.pow 2 (value.power - 2).toNat * Nat.pow 10 (-power).toNat

def scaledPoint (value : Dyadic) (power : Int) (point : Nat) : Nat :=
  point * Nat.pow 10 power.toNat * Nat.pow 2 (2 - value.power).toNat

def readsBack (value : Dyadic) (power : Int) (point : Nat) : Bool :=
  let lower := value.scaled power (4 * value.coefficient - (if value.narrowBelow then 1 else 2))
  let upper := value.scaled power (4 * value.coefficient + 2)
  let here := value.scaledPoint power point
  if value.coefficient % 2 = 0 then lower ≤ here && here ≤ upper
  else lower < here && here < upper

/-- The grid point that is nearest to the value among those that read back. -/
def onGrid? (value : Dyadic) (power : Int) : Option Digits :=
  let whole := value.scaled power (4 * value.coefficient)
  let unit := value.scaledPoint power 1
  let below := whole / unit
  let nearer := if 2 * (whole % unit) < unit then below else below + 1
  let farther := if nearer = below then below + 1 else below
  if nearer ≠ 0 ∧ value.readsBack power nearer then some ⟨nearer, power⟩
  else if farther ≠ 0 ∧ value.readsBack power farther then some ⟨farther, power⟩
  else none

/-- The power of ten of the leading digit. -/
def magnitude (value : Dyadic) : Int :=
  let numerator := value.coefficient * Nat.pow 2 value.power.toNat
  let denominator := Nat.pow 2 (-value.power).toNat
  let guess : Int := (natural numerator).length - (natural denominator).length
  if denominator * Nat.pow 10 guess.toNat ≤ numerator * Nat.pow 10 (-guess).toNat then guess
  else guess - 1

/-- Seventeen digits always read back. The first grid is coarser than the leading
digit, since the value may be closest to the next power of ten. -/
def shortest (value : Dyadic) : Digits :=
  let found := (List.range 19).findSome? fun (finer : Nat) =>
    value.onGrid? (value.magnitude + 1 - finer)
  found.getD ⟨0, 0⟩

end Dyadic

namespace Digits

/-- Positional notation. -/
def render (number : Digits) : Text :=
  let written := natural number.digits
  if 0 ≤ number.power then written ++ List.replicate number.power.toNat '0'
  else
    let places := (-number.power).toNat
    if places < written.length then
      written.take (written.length - places) ++ '.' :: written.drop (written.length - places)
    else "0." ++ List.replicate (places - written.length) '0' ++ written

end Digits

/-- The text of a nonnegative double with the given exponent and fraction
fields. -/
def magnitudeText (exponent fraction : Nat) : Text :=
  if exponent = 0x7FF then (if fraction = 0 then "inf" else "NaN")
  else if exponent = 0 then
    if fraction = 0 then "0"
    else (Dyadic.shortest ⟨fraction, -1074, false⟩).render
  else
    let narrow := fraction == 0 && exponent != 1
    (Dyadic.shortest ⟨0x10000000000000 + fraction, (exponent : Int) - 1075, narrow⟩).render

/-- The shortest text that reads back as the given double. -/
def double (x : Float) : Text :=
  let bits := x.toBits.toNat
  let negative := 0x8000000000000000 ≤ bits
  let exponent := bits / 0x10000000000000 % 0x800
  let fraction := bits % 0x10000000000000
  let text := magnitudeText exponent fraction
  if negative ∧ text ≠ "NaN" then '-' :: text else text

end Decimal

end TabularModel
