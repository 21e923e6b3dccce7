import Joinery.Text.Basic
import Joinery.Yaml.Fault

/-!
# Dates and moments of YAML documents

A date has a year, a month and a day. A moment has a time of day too, and perhaps an
offset of its time zone. Two moments with offsets are the same if they are at one
time, whatever their clocks show.
-/

namespace Joinery
namespace Yaml

/-- A day of the calendar. -/
structure Date where
  year : Nat
  month : Nat
  day : Nat
  deriving DecidableEq

/-- A time of a day. -/
structure Moment where
  date : Date
  hour : Nat
  minute : Nat
  second : Nat
  microsecond : Nat
  /-- Minutes by which the clock is ahead of the common one, if that is known. -/
  offset : Option Int
  deriving DecidableEq

namespace Date

/-- Whether a year has a leap day. -/
def isLeap (year : Nat) : Bool := year % 4 == 0 && (year % 100 != 0 || year % 400 == 0)

/-- Count of the days of a month. -/
def monthLength (year month : Nat) : Nat :=
  if month = 2 then if isLeap year then 29 else 28
  else if month ∈ [4, 6, 9, 11] then 30
  else 31

/-- Whether the calendar has a date. -/
def isPossible (date : Date) : Bool :=
  1 ≤ date.year && 1 ≤ date.month && date.month ≤ 12 && 1 ≤ date.day &&
    date.day ≤ monthLength date.year date.month

/-- Count of the days from the start of the calendar. -/
def dayCount (date : Date) : Nat :=
  let years := date.year - 1
  365 * years + years / 4 - years / 100 + years / 400 +
    ((List.range (date.month - 1)).map fun month => monthLength date.year (month + 1)).foldl
      (· + ·) 0 + date.day

/-- A number with at least a count of digits. -/
def padded (width number : Nat) : Text := (Text.ofNat number).leftpad width '0'

/-- Text of a date. -/
def text (date : Date) : Text :=
  padded 4 date.year ++ '-' :: padded 2 date.month ++ '-' :: padded 2 date.day

/-- Numbers of a date in the order in which it is written. -/
def parts (date : Date) : List Nat := [date.year, date.month, date.day]

/-- A date as an expression. -/
def expression (date : Date) : Text :=
  "datetime.date(".toList ++ [',', ' '].intercalate (date.parts.map Text.ofNat) ++ [')']

end Date

namespace Moment

/-- Whether there is a moment. -/
def isPossible (moment : Moment) : Bool :=
  moment.date.isPossible && moment.hour < 24 && moment.minute < 60 && moment.second < 60 &&
    moment.offset.all fun minutes => minutes.natAbs < 24 * 60

/-- Microseconds from the start of the calendar. -/
def instant (moment : Moment) : Int :=
  let minutes : Int := (moment.date.dayCount * 24 + moment.hour) * 60 + moment.minute
  ((minutes - moment.offset.getD 0) * 60 + moment.second) * 1000000 + moment.microsecond

/-- Whether two moments are at one time. A moment without offset is at no time of
the common clock. -/
def isSame (left right : Moment) : Bool :=
  left.offset.isSome == right.offset.isSome && left.instant == right.instant

/-- Text of an offset. -/
def offsetText (minutes : Int) : Text :=
  (if minutes < 0 then '-' else '+') :: Date.padded 2 (minutes.natAbs / 60) ++
    ':' :: Date.padded 2 (minutes.natAbs % 60)

/-- Text of a moment. -/
def text (moment : Moment) : Text :=
  moment.date.text ++ ' ' :: Date.padded 2 moment.hour ++ ':' :: Date.padded 2 moment.minute ++
    ':' :: Date.padded 2 moment.second ++
    (if moment.microsecond = 0 then [] else '.' :: Date.padded 6 moment.microsecond) ++
    ((moment.offset.map offsetText).getD [])

/-- A time zone as an expression. Its offset has days and seconds that are not
negative. -/
def zoneExpression (minutes : Int) : Text :=
  if minutes = 0 then "datetime.timezone.utc".toList
  else
    let day := if minutes < 0 then "days=-1, ".toList else []
    "datetime.timezone(datetime.timedelta(".toList ++ day ++ "seconds=".toList ++
      Text.ofInt ((minutes * 60).emod 86400) ++ "))".toList

/-- Numbers of a moment in the order in which it is written, without zeros for
seconds and microseconds at the end. -/
def parts (moment : Moment) : List Nat :=
  moment.date.parts ++ [moment.hour, moment.minute] ++
    if moment.microsecond ≠ 0 then [moment.second, moment.microsecond]
    else if moment.second ≠ 0 then [moment.second]
    else []

/-- A moment as an expression. -/
def expression (moment : Moment) : Text :=
  "datetime.datetime(".toList ++ [',', ' '].intercalate (moment.parts.map Text.ofNat) ++
    (moment.offset.map fun minutes => ", tzinfo=".toList ++ zoneExpression minutes).getD [] ++
    [')']

end Moment

/-- A date or a moment as it is written, whether there is one or not. -/
inductive Timestamp
  /-- A date, and whether its month and its day have two digits. -/
  | date (date : Date) (isFull : Bool)
  | moment (moment : Moment)

namespace Timestamp

/-- The number that decimal digits of ASCII write. -/
def digitsValue (digits : Text) : Nat :=
  digits.foldl (fun value digit => 10 * value + (digit.toNat - 48)) 0

/-- At least and at most a count of digits, and the text behind them. -/
def digits? (least most : Nat) (text : Text) : Option (Text × Text) :=
  let digits := (text.take most).takeWhile Char.isDigit
  if least ≤ digits.length then some (digits, text.drop digits.length) else none

/-- The text behind a character. -/
def behind? (character : Char) : Text → Option Text
  | first :: rest => if first = character then some rest else none
  | [] => none

/-- A blank. -/
def isBlank (character : Char) : Bool := character == ' ' || character == '\t'

/-- The text behind the letter or the blanks between a date and a time. -/
def behindSeparator? : Text → Option Text
  | 'T' :: rest | 't' :: rest => some rest
  | first :: rest => if isBlank first then some (rest.dropWhile isBlank) else none
  | [] => none

/-- Microseconds of a fraction of a second. Further digits are cut off. -/
def microseconds (digits : Text) : Nat := digitsValue ((digits ++ "000000".toList).take 6)

/-- Fraction of a second, and the text behind it. -/
def fraction : Text → Nat × Text
  | '.' :: rest =>
      let digits := rest.takeWhile Char.isDigit
      (microseconds digits, rest.drop digits.length)
  | text => (0, text)

/-- Minutes of an offset behind its sign. -/
def offsetMinutes? (text : Text) : Option Nat := do
  let (hours, rest) ← digits? 1 2 text
  match rest with
  | [] => return 60 * digitsValue hours
  | _ =>
      let (minutes, last) ← digits? 2 2 (← behind? ':' rest)
      if last = [] then return 60 * digitsValue hours + digitsValue minutes else none

/-- The offset at the end of a moment, if the text is one. -/
def offset? (text : Text) : Option (Option Int) :=
  if text = [] then some none
  else match text.dropWhile isBlank with
  | ['Z'] => some (some 0)
  | '+' :: rest => (offsetMinutes? rest).map fun minutes => some minutes
  | '-' :: rest => (offsetMinutes? rest).map fun minutes => some (-minutes)
  | _ => none

/-- The time of a day at the end of a text. -/
def moment? (date : Date) (text : Text) : Option Timestamp := do
  let (hour, rest) ← digits? 1 2 (← behindSeparator? text)
  let (minute, rest) ← digits? 2 2 (← behind? ':' rest)
  let (second, rest) ← digits? 2 2 (← behind? ':' rest)
  let (microsecond, rest) := fraction rest
  let offset ← offset? rest
  return .moment ⟨date, digitsValue hour, digitsValue minute, digitsValue second, microsecond,
    offset⟩

/-- The date or moment that a text writes. -/
def read? (text : Text) : Option Timestamp := do
  let (year, rest) ← digits? 4 4 text
  let (month, rest) ← digits? 1 2 (← behind? '-' rest)
  let (day, rest) ← digits? 1 2 (← behind? '-' rest)
  let date : Date := ⟨digitsValue year, digitsValue month, digitsValue day⟩
  if rest = [] then return .date date (month.length == 2 && day.length == 2)
  else moment? date rest

/-- Whether a text without quotes has the form of a date or a moment. -/
def isForm (text : Text) : Bool :=
  match read? text with
  | some (.date _ isFull) => isFull
  | some (.moment _) => true
  | none => false

end Timestamp
end Yaml
end Joinery
