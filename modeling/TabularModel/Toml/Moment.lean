import TabularModel.Text.Timestamp

/-!
# Moments in a settings document

A moment is a day, a time of day, or both; with both it may say how far its clock
is from universal time. Seconds may be left out, and a second may be the sixtieth
of any minute. Of the fraction of a second nine digits are kept.

Every moment has one written form, with seconds, with the capital mark between
day and time, and without zeros at the end of a fraction.
-/

set_option autoImplicit false

namespace TabularModel

namespace Toml

structure Day where
  year : Nat
  month : Nat
  day : Nat
deriving DecidableEq, Repr

structure Clock where
  hour : Nat
  minute : Nat
  second : Nat
  nanosecond : Nat
deriving DecidableEq, Repr

/-- How many minutes a clock is ahead of universal time. -/
inductive Zone where
  | universal
  | ahead (minutes : Int)
deriving DecidableEq, Repr

inductive Moment where
  | day (date : Day)
  | clock (time : Clock)
  | both (date : Day) (time : Clock) (zone : Option Zone)
deriving DecidableEq, Repr

/-! ## Writing -/

/-- A number with zeros in front up to a width. -/
def ofWidth (width n : Nat) : Text :=
  (Decimal.natural n).leftpad width '0'

def Day.render (day : Day) : Text :=
  ofWidth 4 day.year ++ '-' :: ofWidth 2 day.month ++ '-' :: ofWidth 2 day.day

def Clock.render (clock : Clock) : Text :=
  ofWidth 2 clock.hour ++ ':' :: ofWidth 2 clock.minute ++ ':' :: ofWidth 2 clock.second ++
    (if clock.nanosecond = 0 then []
      else '.' :: Text.dropRightWhile (· == '0') (ofWidth 9 clock.nanosecond))

def Zone.render : Zone -> Text
  | .universal => ['Z']
  | .ahead minutes =>
      (if minutes < 0 then '-' else '+') :: ofWidth 2 (minutes.natAbs / 60) ++
        ':' :: ofWidth 2 (minutes.natAbs % 60)

def Moment.render : Moment -> Text
  | .day date => date.render
  | .clock time => time.render
  | .both date time none => date.render ++ 'T' :: time.render
  | .both date time (some zone) => date.render ++ 'T' :: time.render ++ zone.render

/-! ## Reading -/

/-- The value of exactly two digits that is not greater than `limit`. -/
def twoDigits? (limit : Nat) (text : Text) : Option Nat :=
  if text.length = 2 then (Decimal.natural? text).filter (· ≤ limit) else none

def isInCalendar (day : Day) : Bool :=
  1 ≤ day.month && 1 ≤ day.day &&
    day.day ≤ TabularModel.Moment.daysInMonth day.year day.month

def day? (text : Text) : Option Day :=
  match Text.fields '-' text with
  | [year, month, day] =>
      if year.length = 4 then do
        let written : Day :=
          ⟨<- Decimal.natural? year, <- twoDigits? 12 month, <- twoDigits? 31 day⟩
        if isInCalendar written then some written else none
      else none
  | _ => none

/-- The nanoseconds that a fraction of a second begins with. -/
def nanoseconds? (digits : Text) : Option Nat :=
  if digits ≠ [] ∧ digits.all Decimal.isDigit then
    some (Decimal.value ((digits ++ List.replicate 9 '0').take 9))
  else none

/-- A second with its fraction. -/
def second? (text : Text) : Option (Nat × Nat) :=
  match text.drop 2 with
  | [] => (twoDigits? 60 text).map fun second => (second, 0)
  | '.' :: digits => do
      let second <- twoDigits? 60 (text.take 2)
      return (second, <- nanoseconds? digits)
  | _ => none

/-- Hours and minutes, and perhaps seconds with a fraction. -/
def clock? (text : Text) : Option Clock :=
  match Text.fields ':' text with
  | [hour, minute] => do
      return ⟨<- twoDigits? 23 hour, <- twoDigits? 59 minute, 0, 0⟩
  | [hour, minute, rest] => do
      let (second, nanosecond) <- second? rest
      return ⟨<- twoDigits? 23 hour, <- twoDigits? 59 minute, second, nanosecond⟩
  | _ => none

/-- Hours and minutes as minutes. -/
def minutes? (text : Text) : Option Nat :=
  match Text.fields ':' text with
  | [hour, minute] => do return (<- twoDigits? 23 hour) * 60 + (<- twoDigits? 59 minute)
  | _ => none

/-- A zone, which may be absent. -/
def zone? : Text -> Option (Option Zone)
  | [] => some none
  | ['Z'] | ['z'] => some (some .universal)
  | '+' :: rest => (minutes? rest).map fun minutes => some (.ahead minutes)
  | '-' :: rest => (minutes? rest).map fun minutes => some (.ahead (-minutes))
  | _ => none

def isClockCharacter (c : Char) : Bool :=
  Decimal.isDigit c || c == ':' || c == '.'

def isSeparator (c : Char) : Bool :=
  c == 'T' || c == 't' || c == ' '

/-- A day with a time of day behind it. -/
def both? (text : Text) : Option Moment := do
  let day <- day? (text.take 10)
  match text.drop 10 with
  | separator :: rest =>
      if isSeparator separator then
        return .both day (<- clock? (rest.takeWhile isClockCharacter))
          (<- zone? (rest.dropWhile isClockCharacter))
      else none
  | [] => none

def moment? (text : Text) : Option Moment :=
  ((day? text).map .day <|> (clock? text).map .clock) <|> both? text

end Toml

end TabularModel
