import TabularModel.Decimal.Integer

/-!
# Faults of a markup document

Why a document, an attribute list or a character reference cannot be read.
Positions count bytes: inside the tag for attributes, inside the written value
for references.
-/

set_option autoImplicit false

namespace TabularModel

namespace Markup

inductive ReferenceFault where
  | signed
  | noDigits
  | invalidDigit
  | tooLarge
  | notACharacter (code : Nat)
  | zero
deriving DecidableEq, Repr

namespace ReferenceFault

def message : ReferenceFault -> Text
  | .signed => "unexpected number sign"
  | .noDigits => "cannot parse integer from empty string"
  | .invalidDigit => "invalid digit found in string"
  | .tooLarge => "number too large to fit in target type"
  | .notACharacter code => "`" ++ Decimal.natural code ++ "` is not a valid codepoint"
  | .zero => "0x0 character is not permitted in XML"

end ReferenceFault

inductive Fault where
  | tagNotClosed
  | commentNotClosed
  | characterDataNotClosed
  | documentTypeNotClosed
  | instructionNotClosed
  | unknownMarkup
  | mismatchedEnd (expected found : Text)
  | unmatchedEnd (found : Text)
  | documentTypeWithoutName
  | expectedEquals (position : Nat)
  | expectedValue (position : Nat)
  | unquotedValue (position : Nat)
  | unclosedQuote (position : Nat) (quote : Char)
  | duplicated (position previous : Nat)
  | unrecognizedEntity (first past : Nat) (name : Text)
  | unterminatedEntity (first past : Nat)
  | reference (fault : ReferenceFault)
deriving DecidableEq, Repr

namespace Fault

def span (first past : Nat) : Text :=
  Decimal.natural first ++ ".." ++ Decimal.natural past

def atPosition (position : Nat) (problem : Text) : Text :=
  "position " ++ Decimal.natural position ++ ": " ++ problem

def notClosed (what closing : Text) : Text :=
  "syntax error: " ++ what ++ " not closed: `" ++ closing ++ "` not found before end of input"

def message : Fault -> Text
  | .tagNotClosed => notClosed "tag" ">"
  | .commentNotClosed => notClosed "comment" "-->"
  | .characterDataNotClosed => notClosed "CDATA" "]]>"
  | .documentTypeNotClosed => notClosed "DOCTYPE" ">"
  | .instructionNotClosed => notClosed "processing instruction or xml declaration" "?>"
  | .unknownMarkup => "syntax error: unknown or missed symbol in markup"
  | .mismatchedEnd expected found =>
      "ill-formed document: expected `</" ++ expected ++ ">`, but `</" ++ found ++ ">` was found"
  | .unmatchedEnd found =>
      "ill-formed document: close tag `</" ++ found ++ ">` does not match any open tag"
  | .documentTypeWithoutName =>
      "ill-formed document: `<!DOCTYPE>` declaration does not contain a name of a document type"
  | .expectedEquals position =>
      atPosition position "attribute key must be directly followed by `=` or space"
  | .expectedValue position =>
      atPosition position "`=` must be followed by an attribute value"
  | .unquotedValue position =>
      atPosition position "attribute value must be enclosed in `\"` or `'`"
  | .unclosedQuote position quote =>
      atPosition position ("missing closing quote `" ++ [quote] ++ "` in attribute value")
  | .duplicated position previous =>
      atPosition position
        ("duplicated attribute, previous declaration at position " ++ Decimal.natural previous)
  | .unrecognizedEntity first past name =>
      "at " ++ span first past ++ ": unrecognized entity `" ++ name ++ "`"
  | .unterminatedEntity first past =>
      "Error while escaping character at range " ++ span first past ++
        ": Cannot find ';' after '&'"
  | .reference fault => "invalid character reference: " ++ fault.message

end Fault

end Markup

end TabularModel
