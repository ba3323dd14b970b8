import TemplateLint.Text.Quoted
import TemplateLint.Value
import TemplateLint.Value.Shortest

/-!
# Written form of values

The form in which messages and dumps show a value: quoted texts, lists in
brackets, tuples in parentheses and tables in braces.
-/

namespace TemplateLint.Value

/-- Numbers between commas. -/
def writtenNumbers (numbers : List Nat) : Text :=
  Text.join ", " (numbers.map Text.ofNat)

/-- An offset from universal time in whole days and the seconds above them. -/
def writtenOffset (offset : Int) : Text :=
  if offset = 0 then "datetime.timezone.utc"
  else
    let seconds := offset * 60
    "datetime.timezone(datetime.timedelta("
      ++ (if offset < 0 then "days=-1, " else "") ++ "seconds="
      ++ Text.ofInt (if offset < 0 then seconds + 86400 else seconds) ++ "))"

def writtenMoment (moment : Moment) : Text :=
  "datetime.datetime("
    ++ writtenNumbers ([moment.date.year, moment.date.month, moment.date.day]
        ++ moment.time.parts)
    ++ (match moment.offset with
        | none => []
        | some offset => ", tzinfo=" ++ writtenOffset offset)
    ++ ")"

mutual

def written : Value → Text
  | null => "None"
  | bool true => "True"
  | bool false => "False"
  | int number => Text.ofInt number
  | float number => number.text
  | text content => Quoted.encode content.toList
  | date day =>
      "datetime.date(" ++ writtenNumbers [day.year, day.month, day.day] ++ ")"
  | time clock => "datetime.time(" ++ writtenNumbers clock.parts ++ ")"
  | moment instant => writtenMoment instant
  | list items => '[' :: writtenItems items ++ [']']
  | tuple [item] => '(' :: written item ++ [',', ')']
  | tuple items => '(' :: writtenItems items ++ [')']
  | table entries | mapping entries => '\x7b' :: writtenEntries entries ++ ['\x7d']

def writtenItems : List Value → Text
  | [] => []
  | [item] => written item
  | item :: later => written item ++ ", " ++ writtenItems later

def writtenEntries : List (Value × Value) → Text
  | [] => []
  | [(key, value)] => written key ++ ": " ++ written value
  | (key, value) :: later =>
      written key ++ ": " ++ written value ++ ", " ++ writtenEntries later

end

/-- The text of a value by itself: a text is not quoted. -/
def label : Value → String
  | text content => content
  | value => String.ofList value.written

end TemplateLint.Value
