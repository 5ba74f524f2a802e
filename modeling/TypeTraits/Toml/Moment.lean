import TypeTraits.Toml.Text

/-!
# `TypeTraits.Toml.Moment`: dates and times of TOML

A `Moment` is a date, a time of day, or both, and then perhaps with the distance
from universal time. It is read from exactly the characters given
(`Moment.ofChars?`); between a date and a time stands `T`, in either case, or one
blank.

Dates are those of the calendar. A minute may have a sixty-first second.
-/

set_option autoImplicit false

namespace TypeTraits.Toml

/-- A day of the calendar. -/
structure Date where
  year : Nat
  month : Nat
  day : Nat
deriving DecidableEq, Repr

/-- A time of day; the fraction of the second is kept as its digits. -/
structure Time where
  hour : Nat
  minute : Nat
  second : Nat
  fraction : List Char
deriving DecidableEq, Repr

/-- A date, a time, or both with perhaps the minutes ahead of universal time. -/
inductive Moment where
  | date (d : Date)
  | time (t : Time)
  | dateTime (d : Date) (t : Time) (ahead : Option Int)
deriving DecidableEq, Repr

/-- Reads so many digits as a number. -/
def readDigits (size : Nat) (cs : List Char) : Option (Nat × List Char) := do
  let digits := cs.take size
  if digits.length = size ∧ digits.all Char.isDigit then
    return (← natOfDigits? 10 digits, cs.drop size)
  else none

/-- Reads a character. -/
def readMark (mark : Char) : List Char → Option (List Char)
  | c :: cs => if c == mark then some cs else none
  | [] => none

/-- Whether the year has a twenty-ninth of February. -/
def isLeapYear (year : Nat) : Bool := year % 4 == 0 && (year % 100 != 0 || year % 400 == 0)

/-- The number of days of a month. -/
def daysInMonth (year month : Nat) : Nat :=
  if month == 2 then if isLeapYear year then 29 else 28
  else if month == 4 || month == 6 || month == 9 || month == 11 then 30
  else 31

/-- Reads a date. -/
def readDate (cs : List Char) : Option (Date × List Char) := do
  let (year, cs) ← readDigits 4 cs
  let (month, cs) ← readDigits 2 (← readMark '-' cs)
  let (day, cs) ← readDigits 2 (← readMark '-' cs)
  if 1 ≤ month ∧ month ≤ 12 ∧ 1 ≤ day ∧ day ≤ daysInMonth year month then
    return (⟨year, month, day⟩, cs)
  else none

/-- Reads hours and minutes. -/
def readHourMinute (cs : List Char) : Option ((Nat × Nat) × List Char) := do
  let (hour, cs) ← readDigits 2 cs
  let (minute, cs) ← readDigits 2 (← readMark ':' cs)
  if hour ≤ 23 ∧ minute ≤ 59 then return ((hour, minute), cs) else none

/-- Reads a time of day. -/
def readTime (cs : List Char) : Option (Time × List Char) := do
  let ((hour, minute), cs) ← readHourMinute cs
  let (second, cs) ← readDigits 2 (← readMark ':' cs)
  -- A minute may have a leap second.
  if 60 < second then none
  else
    match cs with
    | '.' :: rest =>
      match rest.takeWhile Char.isDigit with
      | [] => none
      | fraction => return (⟨hour, minute, second, fraction⟩, rest.dropWhile Char.isDigit)
    | cs => return (⟨hour, minute, second, []⟩, cs)

/-- The distance from universal time of the characters; none if there are none. -/
def ahead? : List Char → Option (Option Int)
  | [] => some none
  | c :: cs =>
    if c == 'Z' || c == 'z' then if cs.isEmpty then some (some 0) else none
    else if c == '+' || c == '-' then
      match readHourMinute cs with
      | some ((hour, minute), []) =>
        let minutes := Int.ofNat (hour * 60 + minute)
        some (some (if c == '-' then -minutes else minutes))
      | _ => none
    else none

/-- Whether the character stands between a date and a time. -/
def isTimeMark (c : Char) : Bool := c == 'T' || c == 't' || c == ' '

/-- The moment of the characters. -/
def Moment.ofChars? (cs : List Char) : Option Moment :=
  match readDate cs with
  | some (d, []) => some (.date d)
  | some (d, c :: cs) => do
    if isTimeMark c then
      let (t, cs) ← readTime cs
      return .dateTime d t (← ahead? cs)
    else none
  | none =>
    match readTime cs with
    | some (t, []) => some (.time t)
    | _ => none

end TypeTraits.Toml
