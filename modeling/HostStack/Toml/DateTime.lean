/-!
# Dates and times

A date is a year, a month and a day that the month has in that year; a time is an hour, a minute
and a second, with as many digits after the point as wanted. A date may be followed by a time,
and only then by the distance from universal time. Nothing here looks at what a date means; a
literal is accepted or not, and a value keeps it as it was written.
-/

namespace HostStack.Toml

/-- A number of exactly two digits. -/
def twoDigits? : List Char → Option (Nat × List Char)
  | a :: b :: rest =>
    if a.isDigit && b.isDigit then
      some (10 * (a.toNat - '0'.toNat) + (b.toNat - '0'.toNat), rest)
    else none
  | _ => none

/-- What follows one given character at the front. -/
def after? (expected : Char) : List Char → Option (List Char)
  | c :: rest => if c = expected then some rest else none
  | [] => none

/-- Every fourth year is a leap year, of the full centuries only every fourth. -/
def isLeapYear (year : Nat) : Bool :=
  year % 4 = 0 && (year % 100 ≠ 0 || year % 400 = 0)

/-- The number of days of a month; zero for a number that names no month. -/
def daysInMonth (year month : Nat) : Nat :=
  if month = 2 then if isLeapYear year then 29 else 28
  else if month = 4 ∨ month = 6 ∨ month = 9 ∨ month = 11 then 30
  else if 1 ≤ month ∧ month ≤ 12 then 31
  else 0

def skipDate? (text : List Char) : Option (List Char) := do
  let (century, text) ← twoDigits? text
  let (year, text) ← twoDigits? text
  let (month, text) ← twoDigits? (← after? '-' text)
  let (day, text) ← twoDigits? (← after? '-' text)
  if 1 ≤ day ∧ day ≤ daysInMonth (100 * century + year) month then some text else none

/-- What follows a point and at least one digit at the front; without a point, everything. -/
def skipFraction? : List Char → Option (List Char)
  | '.' :: c :: rest => if c.isDigit then some (rest.dropWhile Char.isDigit) else none
  | '.' :: [] => none
  | text => some text

/-- What follows an hour and a minute at the front. -/
def skipHourMinute? (text : List Char) : Option (List Char) := do
  let (hour, text) ← twoDigits? text
  let (minute, text) ← twoDigits? (← after? ':' text)
  if hour ≤ 23 ∧ minute ≤ 59 then some text else none

/-- What follows a time at the front. A minute may have a leap second. -/
def skipTime? (text : List Char) : Option (List Char) := do
  let (second, text) ← twoDigits? (← after? ':' (← skipHourMinute? text))
  if second ≤ 60 then skipFraction? text else none

/-- What follows the distance from universal time at the front, if it is given at all. -/
def skipOffset? : List Char → Option (List Char)
  | 'Z' :: rest => some rest
  | 'z' :: rest => some rest
  | '+' :: rest => skipHourMinute? rest
  | '-' :: rest => skipHourMinute? rest
  | text => some text

def isDate (text : List Char) : Bool :=
  skipDate? text = some []

def isTime (text : List Char) : Bool :=
  skipTime? text = some []

/-- Whether the text is a time with or without a distance from universal time. -/
def isOffsetTime (text : List Char) : Bool :=
  (skipTime? text).bind skipOffset? = some []

/-- Whether the text is a date and a time with the letter `T` between them. -/
def isDateWithTime (text : List Char) : Bool :=
  match skipDate? text with
  | some (c :: rest) => (c = 'T' || c = 't') && isOffsetTime rest
  | _ => false

end HostStack.Toml
