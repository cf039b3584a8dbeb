import TabularModel.Text.Basic

/-!
# Blank characters

The Unicode property White_Space, and trimming by it. A zero-width space and a
byte order mark are not blank.
-/

set_option autoImplicit false

namespace TabularModel

def isBlank (c : Char) : Bool :=
  let code := c.toNat
  (9 ≤ code && code ≤ 13) || code == 0x20 || code == 0x85 || code == 0xA0 ||
    code == 0x1680 || (0x2000 ≤ code && code ≤ 0x200A) || code == 0x2028 ||
    code == 0x2029 || code == 0x202F || code == 0x205F || code == 0x3000

namespace Text

def trimLeft (text : Text) : Text :=
  text.dropWhile isBlank

def trimRight (text : Text) : Text :=
  dropRightWhile isBlank text

def trim (text : Text) : Text :=
  trimRight (trimLeft text)

/-- A blank text has nothing but blank characters. -/
def allBlank (text : Text) : Bool :=
  text.all isBlank

/-- An absent text where the given one is blank. -/
def unlessBlank (text : Text) : Option Text :=
  if allBlank text then none else some text

end Text

end TabularModel
