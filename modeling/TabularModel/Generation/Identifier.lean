import TabularModel.Digest.Sha256
import TabularModel.Generation.Basic

/-!
# Identifiers from a seed

Identifiers in the form of random unique identifiers. They are digests of a
seed and a slot, so that a fresh seed gives fresh identifiers, which differ from
slot to slot.
-/

set_option autoImplicit false

namespace TabularModel

namespace Generation

/-- Writes 32 hexadecimal digits in groups, with the digits that mark a random
identifier in their places. -/
def grouped (digits : Text) : Text :=
  Text.joined "-"
    [ digits.take 8, (digits.drop 8).take 4, '4' :: (digits.drop 13).take 3,
      'a' :: (digits.drop 17).take 3, (digits.drop 20).take 12 ]

def seeded (seed : Text) : Supply := fun slot =>
  grouped (Digest.sha256 (seed ++ ':' :: slot.key))

end Generation

end TabularModel
