import TemplateLint.Toml.Problem

/-!
# Numbers, dates and times of TOML documents

Each function reads the longest scalar of its kind from the beginning of a
text.  Digits of numbers may be separated by single underscores.
-/

namespace TemplateLint.Toml

/-- Digits after the first one, each perhaps after an underscore. -/
def moreDigits (isDigit : Char → Bool) : Text → Text × Text
  | '_' :: c :: rest =>
      if isDigit c then
        let more := moreDigits isDigit rest
        (c :: more.1, more.2)
      else ([], '_' :: c :: rest)
  | c :: rest =>
      if isDigit c then
        let more := moreDigits isDigit rest
        (c :: more.1, more.2)
      else ([], c :: rest)
  | [] => ([], [])

/-- At least one digit; underscores are left out. -/
def digitGroup? (isDigit : Char → Bool) : Text → Option (Text × Text)
  | c :: rest =>
      if isDigit c then
        let more := moreDigits isDigit rest
        some (c :: more.1, more.2)
      else none
  | [] => none

/-- The number that digits of a base stand for. -/
def valueInBase (base : Nat) (digits : Text) : Nat :=
  digits.foldl (fun value c =>
    value * base + (Text.hexadecimalValue? c).getD 0) 0

/-- A number in base sixteen, two or eight after its mark. -/
def basedNumber? : Text → Option (Value × Text)
  | '0' :: 'x' :: rest => read 16 (fun c => (Text.hexadecimalValue? c).isSome) rest
  | '0' :: 'b' :: rest => read 2 (fun c => c = '0' || c = '1') rest
  | '0' :: 'o' :: rest => read 8 (fun c => '0' ≤ c && c ≤ '7') rest
  | _ => none
where
  read (base : Nat) (isDigit : Char → Bool) (text : Text) :
      Option (Value × Text) :=
    (digitGroup? isDigit text).map fun digits =>
      (.int (valueInBase base digits.1), digits.2)

/-- A sign, if there is one. -/
def signPart : Text → Text × Text
  | '+' :: rest => (['+'], rest)
  | '-' :: rest => (['-'], rest)
  | rest => ([], rest)

/-- The whole part of a decimal number: zero, or digits without a zero in
front. -/
def wholePart? : Text → Option (Text × Text)
  | '0' :: rest => some (['0'], rest)
  | text => digitGroup? Char.isDigit text

/-- A point with digits, or nothing. -/
def fractionPart : Text → Text × Text
  | '.' :: rest =>
      match digitGroup? Char.isDigit rest with
      | some (digits, after) => ('.' :: digits, after)
      | none => ([], '.' :: rest)
  | text => ([], text)

/-- An exponent, or nothing. -/
def exponentPart : Text → Text × Text
  | c :: rest =>
      if c = 'e' ∨ c = 'E' then
        let (sign, afterSign) := signPart rest
        match digitGroup? Char.isDigit afterSign with
        | some (digits, after) => ('e' :: sign ++ digits, after)
        | none => ([], c :: rest)
      else ([], c :: rest)
  | [] => ([], [])

/-- A decimal number; with a fraction or an exponent it is a float. -/
def decimalNumber? (text : Text) : Option (Except Failure (Parsed Value)) := do
  let (sign, afterSign) := signPart text
  let (whole, afterWhole) ← wholePart? afterSign
  let (fraction, afterFraction) := fractionPart afterWhole
  let (exponent, rest) := exponentPart afterFraction
  if !fraction.isEmpty || !exponent.isEmpty then
    return .ok
      (.float (.ofLiteral (sign ++ whole ++ fraction ++ exponent)), rest)
  else if digitLimit < whole.length then
    return stop (.tooManyDigits whole.length) text
  else
    return .ok (.int (Binary64.signedValue (sign ++ whole)), rest)

/-- A number of any base. -/
def number? (text : Text) : Option (Except Failure (Parsed Value)) :=
  match basedNumber? text with
  | some result => some (.ok result)
  | none => decimalNumber? text

/-- Infinity, or a value that is not a number and is known by its place. -/
def specialNumber? (document : Nat) (text : Text) : Option (Value × Text) :=
  let (sign, afterSign) := signPart text
  match afterSign with
  | 'i' :: 'n' :: 'f' :: rest =>
      some (.float (.infinite (sign = ['-'])), rest)
  | 'n' :: 'a' :: 'n' :: rest => some (.float (.nan document text.length), rest)
  | _ => none

/-- A number of two digits within bounds. -/
def twoDigits? (low high : Nat) : Text → Option (Nat × Text)
  | a :: b :: rest =>
      let value := Text.digitsValue [a, b]
      if a.isDigit && b.isDigit && low ≤ value && value ≤ high then
        some (value, rest)
      else none
  | _ => none

/-- A certain character. -/
def mark? (expected : Char) : Text → Option Text
  | c :: rest => if c = expected then some rest else none
  | [] => none

/-- Microseconds after a point; digits behind the sixth are dropped. -/
def microseconds : Text → Nat × Text
  | '.' :: rest =>
      let digits := rest.takeWhile Char.isDigit
      if digits.isEmpty then (0, '.' :: rest)
      else
        (Text.digitsValue ((digits ++ List.replicate 6 '0').take 6),
          rest.dropWhile Char.isDigit)
  | text => (0, text)

def time? (text : Text) : Option (TimeOfDay × Text) := do
  let (hour, afterHour) ← twoDigits? 0 23 text
  let (minute, afterMinute) ← twoDigits? 0 59 (← mark? ':' afterHour)
  let (second, afterSecond) ← twoDigits? 0 59 (← mark? ':' afterMinute)
  let (fraction, rest) := microseconds afterSecond
  return (⟨hour, minute, second, fraction⟩, rest)

/-- A date whose day may be missing in its month. -/
def date? : Text → Option (Date × Text)
  | a :: b :: c :: d :: rest => do
      if ([a, b, c, d].any fun digit => !digit.isDigit) then none
      let (month, afterMonth) ← twoDigits? 1 12 (← mark? '-' rest)
      let (day, afterDay) ← twoDigits? 1 31 (← mark? '-' afterMonth)
      return (⟨Text.digitsValue [a, b, c, d], month, day⟩, afterDay)
  | _ => none

/-- An offset in hours and minutes after its sign. -/
def signedOffset? (negative : Bool) (text : Text) : Option (Int × Text) := do
  let (hours, afterHours) ← twoDigits? 0 23 text
  let (minutes, rest) ← twoDigits? 0 59 (← mark? ':' afterHours)
  let total : Int := hours * 60 + minutes
  return (if negative then -total else total, rest)

/-- An offset from universal time, or nothing. -/
def offset (text : Text) : Option Int × Text :=
  let found := match text with
    | 'Z' :: rest | 'z' :: rest => some (0, rest)
    | '+' :: rest => signedOffset? false rest
    | '-' :: rest => signedOffset? true rest
    | _ => none
  match found with
  | some (minutes, rest) => (some minutes, rest)
  | none => (none, text)

/-- The time of day after a date and a separator. -/
def timeAfterDate? : Text → Option (TimeOfDay × Text)
  | c :: rest => if c = 'T' ∨ c = 't' ∨ c = ' ' then time? rest else none
  | [] => none

/-- A date, alone or with a time of day. -/
def dateOrMoment? (text : Text) : Option (Except Failure (Parsed Value)) :=
  (date? text).map fun (date, afterDate) =>
    if !date.isValid then stop .invalidDate text
    else
      match timeAfterDate? afterDate with
      | none => .ok (.date date, afterDate)
      | some (time, afterTime) =>
          let (minutes, rest) := offset afterTime
          .ok (.moment ⟨date, time, minutes⟩, rest)

end TemplateLint.Toml
