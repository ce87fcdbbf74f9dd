import ContractBinding.Text.Cut
import ContractBinding.Text.Digits

/-!
# Moments

A moment is a second of a day of the Gregorian calendar, extended to all years of four digits
and their negatives, without an offset. Its text is `YYYY-MM-DDTHH:MM:SS`.
-/

namespace ContractBinding.Time

/-- A year with a 29th of February. -/
def isLeapYear (year : Int) : Bool := year % 4 = 0 && (year % 100 ≠ 0 || year % 400 = 0)

/-- The number of days of a month; there are no others. -/
def daysInMonth (year : Int) (month : Nat) : Nat :=
  if month = 2 then (if isLeapYear year then 29 else 28)
  else if month = 4 ∨ month = 6 ∨ month = 9 ∨ month = 11 then 30
  else if 1 ≤ month ∧ month ≤ 12 then 31
  else 0

/-- A day of the calendar and a time of the day. -/
def isMoment (year : Int) (month day hour minute second : Nat) : Bool :=
  1 ≤ day && day ≤ daysInMonth year month && hour < 24 && minute < 60 && second < 60

/-- A moment in time, to the second. -/
structure Moment where
  year : Int
  month : Nat
  day : Nat
  hour : Nat
  minute : Nat
  second : Nat
  legal : isMoment year month day hour minute second = true
  deriving DecidableEq, Repr

namespace Moment

/-- The moment of its parts, if there is one. -/
def make? (year : Int) (month day hour minute second : Nat) : Option Moment :=
  if h : isMoment year month day hour minute second = true then
    some ⟨year, month, day, hour, minute, second, h⟩
  else none

/-- The four characters of a year; a minus sign counts as one of them. -/
def yearChars (year : Int) : List Char :=
  if year < 0 then '-' :: Text.zeroPadded 3 year.natAbs else Text.zeroPadded 4 year.natAbs

/-- The characters of a moment. -/
def chars (m : Moment) : List Char :=
  yearChars m.year ++ '-' :: Text.zeroPadded 2 m.month ++ '-' :: Text.zeroPadded 2 m.day ++
    'T' :: Text.zeroPadded 2 m.hour ++ ':' :: Text.zeroPadded 2 m.minute ++
    ':' :: Text.zeroPadded 2 m.second

/-- The text of a moment. -/
def text (m : Moment) : String := String.ofList m.chars

/-- Read a text without sign and fraction. -/
def parseUnsigned? (negative : Bool) : List Char → Option Moment
  | [y1, y2, y3, y4, '-', o1, o2, '-', d1, d2, 'T', h1, h2, ':', i1, i2, ':', s1, s2] => do
    let year ← Text.natural? [y1, y2, y3, y4]
    let month ← Text.natural? [o1, o2]
    let day ← Text.natural? [d1, d2]
    let hour ← Text.natural? [h1, h2]
    let minute ← Text.natural? [i1, i2]
    let second ← Text.natural? [s1, s2]
    make? (if negative then -(year : Int) else year) month day hour minute second
  | _ => none

/-- Read a text without fraction; the year may have a sign. -/
def parseWhole? : List Char → Option Moment
  | '-' :: rest => parseUnsigned? true rest
  | '+' :: rest => parseUnsigned? false rest
  | cs => parseUnsigned? false cs

/-- Read the text of a moment; a fraction of a second is dropped. -/
def parse? (s : String) : Option Moment :=
  match Text.cut? '.' s.toList with
  | none => parseWhole? s.toList
  | some (whole, fraction) =>
    if (Text.natural? fraction).isSome then parseWhole? whole else none

end Moment

end ContractBinding.Time
