import TemplateLint.Text

/-!
# Dates and times

Days of the common calendar, times of day down to microseconds, and moments
with or without an offset from universal time.
-/

namespace TemplateLint

structure Date where
  year : Nat
  month : Nat
  day : Nat
  deriving DecidableEq, Repr

structure TimeOfDay where
  hour : Nat
  minute : Nat
  second : Nat
  microsecond : Nat
  deriving DecidableEq, Repr

/-- A day and a time of day, with the offset from universal time in minutes if
it is known. -/
structure Moment where
  date : Date
  time : TimeOfDay
  offset : Option Int
  deriving DecidableEq, Repr

def isLeapYear (year : Nat) : Bool :=
  year % 4 = 0 && (year % 100 ≠ 0 || year % 400 = 0)

def daysInMonth (year month : Nat) : Nat :=
  if month = 2 then (if isLeapYear year then 29 else 28)
  else if month = 4 ∨ month = 6 ∨ month = 9 ∨ month = 11 then 30
  else 31

namespace Date

/-- A day of the years 1 to 9999. -/
def isValid (date : Date) : Bool :=
  1 ≤ date.year && date.year ≤ 9999 && 1 ≤ date.month && date.month ≤ 12
    && 1 ≤ date.day && date.day ≤ daysInMonth date.year date.month

/-- Days since the end of the year zero. -/
def dayNumber (date : Date) : Nat :=
  let before := date.year - 1
  before * 365 + before / 4 - before / 100 + before / 400
    + (List.range (date.month - 1)).foldl
        (fun days earlier => days + daysInMonth date.year (earlier + 1)) 0
    + date.day

def text (date : Date) : Text :=
  Text.padded 4 date.year ++ ['-'] ++ Text.padded 2 date.month ++ ['-']
    ++ Text.padded 2 date.day

end Date

namespace TimeOfDay

def isValid (time : TimeOfDay) : Bool :=
  time.hour ≤ 23 && time.minute ≤ 59 && time.second ≤ 59
    && time.microsecond ≤ 999999

/-- Microseconds since midnight. -/
def microseconds (time : TimeOfDay) : Nat :=
  ((time.hour * 60 + time.minute) * 60 + time.second) * 1000000
    + time.microsecond

/-- A fraction of a second is written with six digits, if there is one. -/
def text (time : TimeOfDay) : Text :=
  Text.padded 2 time.hour ++ [':'] ++ Text.padded 2 time.minute ++ [':']
    ++ Text.padded 2 time.second
    ++ (if time.microsecond = 0 then [] else '.' :: Text.padded 6 time.microsecond)

/-- The parts without zeros at the end, but at least hour and minute. -/
def parts (time : TimeOfDay) : List Nat :=
  [time.hour, time.minute]
    ++ (if time.microsecond ≠ 0 then [time.second, time.microsecond]
        else if time.second ≠ 0 then [time.second]
        else [])

end TimeOfDay

namespace Moment

/-- The hours and minutes of an offset after its sign. -/
def offsetText (offset : Int) : Text :=
  (if offset < 0 then '-' else '+') :: Text.padded 2 (offset.natAbs / 60)
    ++ [':'] ++ Text.padded 2 (offset.natAbs % 60)

def text (moment : Moment) : Text :=
  moment.date.text ++ ['T'] ++ moment.time.text
    ++ (match moment.offset with
        | none => []
        | some offset => offsetText offset)

/-- Microseconds of local time since the end of the year zero. -/
def localTime (moment : Moment) : Int :=
  (moment.date.dayNumber * 86400000000 + moment.time.microseconds : Nat)

/-- Moments with an offset are equal when they are the same instant; one with
and one without an offset never are. -/
def equal (first second : Moment) : Bool :=
  match first.offset, second.offset with
  | none, none => first.localTime = second.localTime
  | some left, some right =>
      first.localTime - left * 60000000 = second.localTime - right * 60000000
  | _, _ => false

end Moment

end TemplateLint
