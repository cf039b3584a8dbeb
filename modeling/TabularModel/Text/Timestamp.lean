import TabularModel.Text.Blank
import TabularModel.Decimal.Integer

/-!
# Timestamps

Which texts denote a calendar date or a date with a time. A layout is a list of
parts, read from the left and used up exactly. Numbers in a layout may be
preceded by blanks, and only a year may carry a sign; a signed year may have
any number of digits. The interchange form has fixed widths, no signs and an
explicit zone.
-/

set_option autoImplicit false

namespace TabularModel

open Decimal (isDigit)

structure Moment where
  year : Int
  month : Nat
  day : Nat
  hour : Nat
  minute : Nat
  second : Nat
deriving DecidableEq, Repr

namespace Moment

/-- The start of the day before any part has been read. -/
def unread : Moment := ⟨0, 1, 1, 0, 0, 0⟩

def isLeapYear (year : Int) : Bool :=
  year % 4 == 0 && (year % 100 != 0 || year % 400 == 0)

def daysInMonth (year : Int) (month : Nat) : Nat :=
  if month = 2 then (if isLeapYear year then 29 else 28)
  else if month = 4 ∨ month = 6 ∨ month = 9 ∨ month = 11 then 30
  else 31

/-- Whether the moment is in the calendar. A second may be the sixtieth of any
minute. -/
def isValid (moment : Moment) : Bool :=
  -262143 ≤ moment.year && moment.year ≤ 262142 &&
    1 ≤ moment.month && moment.month ≤ 12 &&
    1 ≤ moment.day && moment.day ≤ daysInMonth moment.year moment.month &&
    moment.hour ≤ 23 && moment.minute ≤ 59 && moment.second ≤ 60

end Moment

namespace Timestamp

inductive Part where
  | year
  | month
  | day
  | hour
  | minute
  | second
  | fraction
  | gap
  | mark (c : Char)
deriving DecidableEq, Repr

abbrev Layout := List Part

/-- Reads at least one and at most `most` digits. -/
def upTo (most : Nat) (text : Text) : Option (Nat × Text) :=
  let digits := (text.take most).takeWhile isDigit
  if digits.isEmpty then none
  else some (Decimal.value digits, text.drop digits.length)

/-- Reads exactly `width` digits. -/
def exactly (width : Nat) (text : Text) : Option (Nat × Text) :=
  let digits := text.take width
  if digits.length = width ∧ digits.all isDigit then
    some (Decimal.value digits, text.drop width)
  else none

def signedYear : Text -> Option (Int × Text)
  | '-' :: rest => (upTo rest.length rest).map fun (n, rest) => (-(n : Int), rest)
  | '+' :: rest => (upTo rest.length rest).map fun (n, rest) => ((n : Int), rest)
  | text => (upTo 4 text).map fun (n, rest) => ((n : Int), rest)

def mark (c : Char) : Text -> Option Text
  | first :: rest => if first = c then some rest else none
  | [] => none

/-- A point and at least one digit, or nothing at all. -/
def fraction : Text -> Option Text
  | '.' :: rest =>
      match rest with
      | digit :: _ => if isDigit digit then some (rest.dropWhile isDigit) else none
      | [] => none
  | text => some text

def readPart (moment : Moment) (text : Text) : Part -> Option (Moment × Text)
  | .year => (signedYear (Text.trimLeft text)).map fun (n, rest) =>
      ({ moment with year := n }, rest)
  | .month => (upTo 2 (Text.trimLeft text)).map fun (n, rest) =>
      ({ moment with month := n }, rest)
  | .day => (upTo 2 (Text.trimLeft text)).map fun (n, rest) =>
      ({ moment with day := n }, rest)
  | .hour => (upTo 2 (Text.trimLeft text)).map fun (n, rest) =>
      ({ moment with hour := n }, rest)
  | .minute => (upTo 2 (Text.trimLeft text)).map fun (n, rest) =>
      ({ moment with minute := n }, rest)
  | .second => (upTo 2 (Text.trimLeft text)).map fun (n, rest) =>
      ({ moment with second := n }, rest)
  | .fraction => (fraction text).map fun rest => (moment, rest)
  | .gap => some (moment, Text.trimLeft text)
  | .mark c => (mark c text).map fun rest => (moment, rest)

def readParts (moment : Moment) (text : Text) : Layout -> Option (Moment × Text)
  | [] => some (moment, text)
  | part :: layout =>
      match readPart moment text part with
      | some (next, rest) => readParts next rest layout
      | none => none

/-- Whether the whole text is a moment of the calendar in the given layout. -/
def follows (text : Text) (layout : Layout) : Bool :=
  match readParts Moment.unread text layout with
  | some (moment, []) => moment.isValid
  | _ => false

def date : Layout :=
  [.year, .mark '-', .month, .mark '-', .day]

def hourAndMinute : Layout :=
  [.hour, .mark ':', .minute]

def hourToSecond : Layout :=
  hourAndMinute ++ [.mark ':', .second]

/-- The layouts besides the interchange form: a date alone, or a date and a
time with a `T` or blanks between them. -/
def layouts : List Layout :=
  [ date,
    date ++ [Part.mark 'T'] ++ hourToSecond,
    date ++ [Part.mark 'T'] ++ hourToSecond ++ [Part.fraction],
    date ++ [Part.gap] ++ hourToSecond,
    date ++ [Part.gap] ++ hourToSecond ++ [Part.fraction],
    date ++ [Part.mark 'T'] ++ hourAndMinute,
    date ++ [Part.gap] ++ hourAndMinute ]

/-- The zone of the interchange form: `Z`, or a signed offset below one day. -/
def isZone (text : Text) : Bool :=
  match text with
  | ['Z'] | ['z'] => true
  | sign :: rest =>
      if sign = '+' ∨ sign = '-' ∨ sign = '\u2212' then
        match exactly 2 rest with
        | some (hours, ':' :: rest) =>
            match exactly 2 rest with
            | some (minutes, []) => hours ≤ 23 && minutes ≤ 59
            | _ => false
        | _ => false
      else false
  | [] => false

/-- The interchange form, as in `2024-01-15T08:30:00.5+02:00`. -/
def isInterchange (text : Text) : Bool :=
  let read := do
    let (year, text) <- exactly 4 text
    let text <- mark '-' text
    let (month, text) <- exactly 2 text
    let text <- mark '-' text
    let (day, text) <- exactly 2 text
    let text <- mark 'T' text <|> mark 't' text <|> mark ' ' text
    let (hour, text) <- exactly 2 text
    let text <- mark ':' text
    let (minute, text) <- exactly 2 text
    let text <- mark ':' text
    let (second, text) <- exactly 2 text
    let zone <- fraction text
    some ((⟨year, month, day, hour, minute, second⟩ : Moment), zone)
  match read with
  | some (moment, zone) => moment.isValid && isZone zone
  | none => false

end Timestamp

/-- Whether a text is a date or timestamp in one of the known layouts. -/
def isTimestamp (text : Text) : Bool :=
  Timestamp.layouts.any (Timestamp.follows text) || Timestamp.isInterchange text

end TabularModel
