import FormulaEdit.Number.Bounded
import FormulaEdit.Text.Blank

/-!
# Timestamps

A timestamp is written in one of three forms.

* A day, `year-month-day`.
* A local time, `year-month-dayThour:minute:second`.
* An internet time: the same with digits of fixed width, an optional fraction of a second and an
  offset from universal time.

In the first two forms blanks may stand before a number, a number may have fewer digits than usual,
and a year may carry a sign, which frees it from the limit of four digits. A minute may have a
sixtieth second, the leap second. Days are those of the Gregorian calendar, extended to all years
from -262143 to 262142.
-/

namespace FormulaEdit.Timestamp

open FormulaEdit.Text FormulaEdit.Number

/-! ## Days -/

/-- A day of the calendar. -/
structure Day where
  /-- The year, counted with a year zero. -/
  year : Int
  /-- The month, from one. -/
  month : Nat
  /-- The day of the month, from one. -/
  day : Nat
  deriving DecidableEq, Repr

/-- Whether February has a twenty-ninth day in a year. -/
def isLeapYear (year : Int) : Bool :=
  year % 4 == 0 && (year % 100 != 0 || year % 400 == 0)

/-- The number of days of a month. -/
def daysInMonth (year : Int) (month : Nat) : Nat :=
  match month with
  | 2 => if isLeapYear year then 29 else 28
  | 4 | 6 | 9 | 11 => 30
  | _ => 31

/-- Whether the calendar has this day. -/
def Day.isValid (d : Day) : Bool :=
  -262143 ≤ d.year && d.year ≤ 262142 && 1 ≤ d.month && d.month ≤ 12 &&
    1 ≤ d.day && d.day ≤ daysInMonth d.year d.month

/-! ## Reading -/

/-- A reader takes the text it recognises off the front of its input. -/
abbrev Reader := StateT (List Char) Option

/-- Take one given character. -/
def char (c : Char) : Reader Unit := do
  match ← get with
  | d :: rest => if d = c then set rest else failure
  | [] => failure

/-- Take from `least` to `most` digits. -/
def number (least most : Nat) : Reader Nat := do
  let cs ← get
  let digits := (cs.take most).takeWhile Char.isDigit
  if digits.length < least then failure
  set (cs.drop digits.length)
  return digitsValue digits

/-- Take a number of at most `most` digits and the blanks before it. -/
def loose (most : Nat) : Reader Nat := do
  modify trimStart
  number 1 most

/-- Take a year and the blanks before it: up to four digits, or a sign and any number of them. -/
def year : Reader Int := do
  modify trimStart
  match ← get with
  | '-' :: rest =>
    set rest
    return -((← number 1 rest.length) : Int)
  | '+' :: rest =>
    set rest
    return ((← number 1 rest.length) : Int)
  | _ => return ((← number 1 4) : Int)

/-- Take a day written loosely. -/
def day : Reader Day := do
  let year ← year
  char '-'
  let month ← loose 2
  char '-'
  let day ← loose 2
  let d : Day := { year, month, day }
  if d.isValid then return d else failure

/-- Check the parts of a time of day. -/
def guardTime (hour minute second : Nat) : Reader Unit :=
  if hour ≤ 23 && minute ≤ 59 && second ≤ 60 then pure () else failure

/-- Take a local time written loosely. -/
def localTime : Reader Unit := do
  let _ ← day
  char 'T'
  let hour ← loose 2
  char ':'
  let minute ← loose 2
  char ':'
  let second ← loose 2
  guardTime hour minute second

/-- Take the mark between the day and the time of an internet time. -/
def divider : Reader Unit := do
  match ← get with
  | c :: rest => if c = 'T' || c = 't' || c = ' ' then set rest else failure
  | [] => failure

/-- Take an optional fraction of a second. -/
def fraction : Reader Unit := do
  match ← get with
  | '.' :: rest =>
    set rest
    let _ ← number 1 rest.length
  | _ => pure ()

/-- Take an offset from universal time: the letter Z, or a sign with hours below a day and
minutes. -/
def offset : Reader Unit := do
  match ← get with
  | c :: rest =>
    set rest
    if c = 'Z' || c = 'z' then pure ()
    else if c = '+' || c = '-' || c = '\u2212' then
      let hours ← number 2 2
      char ':'
      let minutes ← number 2 2
      if hours ≤ 23 && minutes ≤ 59 then pure () else failure
    else failure
  | [] => failure

/-- Take an internet time. -/
def internetTime : Reader Unit := do
  let year ← number 4 4
  char '-'
  let month ← number 2 2
  char '-'
  let day ← number 2 2
  let d : Day := { year, month, day }
  if !d.isValid then failure
  divider
  let hour ← number 2 2
  char ':'
  let minute ← number 2 2
  char ':'
  let second ← number 2 2
  guardTime hour minute second
  fraction
  offset

/-- Whether a reader recognises a text to its end. -/
def recognises {α : Type} (r : Reader α) (cs : List Char) : Bool :=
  match r.run cs with
  | some (_, []) => true
  | _ => false

/-- Whether a text is a timestamp in one of the three forms. -/
def isTimestamp (cs : List Char) : Bool :=
  recognises day cs || recognises localTime cs || recognises internetTime cs

end FormulaEdit.Timestamp
