import TabularModel.Text.Basic

/-!
# SHA-256

The digest of the UTF-8 bytes of a text, in lower-case hexadecimal digits. The
bytes are followed by one set bit, by zeros and by their number in bits, and are
then taken in blocks of sixteen words of 32 bits.
-/

set_option autoImplicit false

namespace TabularModel

namespace Digest

def utf8Bytes (text : Text) : List UInt8 :=
  text.flatMap String.utf8EncodeChar

/-- The bytes of a number, the most significant first. -/
def bigEndian (count n : Nat) : List UInt8 :=
  (List.range count).reverse.map fun place => UInt8.ofNat (n >>> (8 * place))

/-- How many zero bytes bring a message to whole blocks. -/
def paddingLength (length : Nat) : Nat :=
  (119 - length % 64) % 64

def padded (bytes : List UInt8) : List UInt8 :=
  bytes ++ 0x80 :: List.replicate (paddingLength bytes.length) 0 ++ bigEndian 8 (8 * bytes.length)

def word (bytes : List UInt8) : UInt32 :=
  bytes.foldl (fun total byte => total * 256 + byte.toUInt32) 0

/-- Pieces of a fixed positive length; the last one may be shorter. -/
def chunks {α : Type} (length : Nat) : List α -> List (List α)
  | [] => []
  | item :: items =>
      (item :: items.take (length - 1)) :: chunks length (items.drop (length - 1))
termination_by items => items.length
decreasing_by
  simp only [List.length_drop, List.length_cons]
  omega

def rotateRight (x : UInt32) (count : UInt32) : UInt32 :=
  (x >>> count) ||| (x <<< (32 - count))

def constants : List UInt32 :=
  [ 0x428a2f98, 0x71374491, 0xb5c0fbcf, 0xe9b5dba5, 0x3956c25b, 0x59f111f1, 0x923f82a4, 0xab1c5ed5,
    0xd807aa98, 0x12835b01, 0x243185be, 0x550c7dc3, 0x72be5d74, 0x80deb1fe, 0x9bdc06a7, 0xc19bf174,
    0xe49b69c1, 0xefbe4786, 0x0fc19dc6, 0x240ca1cc, 0x2de92c6f, 0x4a7484aa, 0x5cb0a9dc, 0x76f988da,
    0x983e5152, 0xa831c66d, 0xb00327c8, 0xbf597fc7, 0xc6e00bf3, 0xd5a79147, 0x06ca6351, 0x14292967,
    0x27b70a85, 0x2e1b2138, 0x4d2c6dfc, 0x53380d13, 0x650a7354, 0x766a0abb, 0x81c2c92e, 0x92722c85,
    0xa2bfe8a1, 0xa81a664b, 0xc24b8b70, 0xc76c51a3, 0xd192e819, 0xd6990624, 0xf40e3585, 0x106aa070,
    0x19a4c116, 0x1e376c08, 0x2748774c, 0x34b0bcb5, 0x391c0cb3, 0x4ed8aa4a, 0x5b9cca4f, 0x682e6ff3,
    0x748f82ee, 0x78a5636f, 0x84c87814, 0x8cc70208, 0x90befffa, 0xa4506ceb, 0xbef9a3f7, 0xc67178f2 ]

structure State where
  a : UInt32
  b : UInt32
  c : UInt32
  d : UInt32
  e : UInt32
  f : UInt32
  g : UInt32
  h : UInt32
deriving DecidableEq, Repr

namespace State

def initial : State :=
  ⟨0x6a09e667, 0xbb67ae85, 0x3c6ef372, 0xa54ff53a, 0x510e527f, 0x9b05688c, 0x1f83d9ab, 0x5be0cd19⟩

def add (left right : State) : State :=
  ⟨left.a + right.a, left.b + right.b, left.c + right.c, left.d + right.d,
    left.e + right.e, left.f + right.f, left.g + right.g, left.h + right.h⟩

def words (state : State) : List UInt32 :=
  [state.a, state.b, state.c, state.d, state.e, state.f, state.g, state.h]

def round (state : State) (input : UInt32) : State :=
  let spread := rotateRight state.e 6 ^^^ rotateRight state.e 11 ^^^ rotateRight state.e 25
  let choice := (state.e &&& state.f) ^^^ (~~~state.e &&& state.g)
  let first := state.h + spread + choice + input
  let mixed := rotateRight state.a 2 ^^^ rotateRight state.a 13 ^^^ rotateRight state.a 22
  let majority :=
    (state.a &&& state.b) ^^^ (state.a &&& state.c) ^^^ (state.b &&& state.c)
  ⟨first + mixed + majority, state.a, state.b, state.c, state.d + first, state.e, state.f, state.g⟩

end State

/-- The word that follows sixteen words of the schedule, which come in reverse
order. -/
def nextWord (latest : List UInt32) : UInt32 :=
  let nearby := latest.getD 14 0
  let distant := latest.getD 1 0
  let small := rotateRight nearby 7 ^^^ rotateRight nearby 18 ^^^ (nearby >>> 3)
  let large := rotateRight distant 17 ^^^ rotateRight distant 19 ^^^ (distant >>> 10)
  latest.getD 15 0 + small + latest.getD 6 0 + large

/-- The sixteen words of a block followed by 48 more. -/
def schedule (block : List UInt32) : List UInt32 :=
  ((List.range 48).foldl (fun latest _ => nextWord latest :: latest) block.reverse).reverse

def compress (state : State) (block : List UInt32) : State :=
  state.add
    (((schedule block).zipWith (· + ·) constants).foldl State.round state)

def hexDigit (n : Nat) : Char :=
  if n < 10 then Char.ofNat ('0'.toNat + n) else Char.ofNat ('a'.toNat + (n - 10))

def wordText (x : UInt32) : Text :=
  (List.range 8).reverse.map fun place => hexDigit (x.toNat >>> (4 * place) % 16)

/-- The digest of a text. -/
def sha256 (text : Text) : Text :=
  let blocks := (chunks 64 (padded (utf8Bytes text))).map fun block => (chunks 4 block).map word
  (blocks.foldl compress State.initial).words.flatMap wordText

end Digest

end TabularModel
