import Overlay.Text.Hexadecimal

/-!
# Dates and times

A date, a time of day, or both, with or without an offset from universal time.
A date names a day that the calendar has, and a time may name a leap second.
Written out, a date-time has one spelling only: `T` between date and time, `Z` or
a signed offset, and a fraction without trailing zeros.
-/

namespace Overlay.Toml

/-- A day of the calendar. -/
structure Date where
  year : Nat
  month : Nat
  day : Nat
  deriving DecidableEq, Inhabited

/-- A time of day. -/
structure Time where
  hour : Nat
  minute : Nat
  second : Nat
  nanosecond : Nat
  deriving DecidableEq, Inhabited

/-- How far a time is from universal time. -/
inductive Offset where
  | universal
  | minutes (count : Int)
  deriving DecidableEq, Inhabited

/-- A date, a time, or both. -/
structure Datetime where
  date : Option Date
  time : Option Time
  offset : Option Offset
  deriving DecidableEq, Inhabited

/-- A number in base ten with leading zeros up to a width. -/
def padded (width value : Nat) : String :=
  let digits := Nat.toDigits 10 value
  String.ofList (List.replicate (width - digits.length) '0' ++ digits)

namespace Date

/-- Whether a year has a 29th of February. -/
def isLeap (year : Nat) : Bool :=
  year % 4 == 0 && (year % 100 != 0 || year % 400 == 0)

/-- The number of days in a month. -/
def daysIn (year month : Nat) : Nat :=
  match month with
  | 2 => if isLeap year then 29 else 28
  | 4 | 6 | 9 | 11 => 30
  | _ => 31

/-- The date as year, month and day. -/
def text (date : Date) : String :=
  padded 4 date.year ++ "-" ++ padded 2 date.month ++ "-" ++ padded 2 date.day

end Date

namespace Time

/-- A fraction of a second, without trailing zeros. -/
def fractionText (nanosecond : Nat) : String :=
  if nanosecond = 0 then ""
  else
    String.ofList
      ('.' :: ((padded 9 nanosecond).toList.reverse.dropWhile (· = '0')).reverse)

/-- The time as hour, minute, second and fraction. -/
def text (time : Time) : String :=
  padded 2 time.hour ++ ":" ++ padded 2 time.minute ++ ":" ++ padded 2 time.second ++
    fractionText time.nanosecond

end Time

/-- The offset as a sign, hours and minutes. -/
def Offset.text : Offset → String
  | .universal => "Z"
  | .minutes count =>
      (if count < 0 then "-" else "+") ++ padded 2 (count.natAbs / 60) ++ ":" ++
        padded 2 (count.natAbs % 60)

namespace Datetime

/-- The one spelling of a date-time. -/
def text (datetime : Datetime) : String :=
  (datetime.date.map Date.text).getD "" ++
    (if datetime.date.isSome && datetime.time.isSome then "T" else "") ++
    (datetime.time.map Time.text).getD "" ++ (datetime.offset.map Offset.text).getD ""

/-- The value of a decimal digit. -/
def digit? (char : Char) : Option Nat :=
  if char.isDigit then some (char.toNat - '0'.toNat) else none

/-- Reads a number of exactly two digits. -/
def twoDigits : List Char → Option (Nat × List Char)
  | first :: second :: rest => do
      some (10 * (← digit? first) + (← digit? second), rest)
  | _ => none

/-- Reads a number of two digits that is not above a limit. -/
def twoDigitsUpTo (limit : Nat) (chars : List Char) : Option (Nat × List Char) := do
  let (value, rest) ← twoDigits chars
  if value ≤ limit then some (value, rest) else none

/-- Takes one character that has to be there. -/
def expect (char : Char) : List Char → Option (List Char)
  | other :: rest => if other = char then some rest else none
  | [] => none

/-- Reads a date. -/
def readDate (chars : List Char) : Option (Date × List Char) := do
  let (century, rest) ← twoDigits chars
  let (year, rest) ← twoDigits rest
  let year := 100 * century + year
  let rest ← expect '-' rest
  let (month, rest) ← twoDigitsUpTo 12 rest
  let rest ← expect '-' rest
  let (day, rest) ← twoDigits rest
  if 1 ≤ month ∧ 1 ≤ day ∧ day ≤ Date.daysIn year month then
    some (⟨year, month, day⟩, rest)
  else none

/-- Reads the fraction of a second, if there is one; digits beyond the ninth are
dropped. -/
def readFraction : List Char → Option (Nat × List Char)
  | '.' :: rest =>
      match rest.span Char.isDigit with
      | ([], _) => none
      | (digits, rest) => do
          let values ← ((digits ++ List.replicate 9 '0').take 9).mapM digit?
          some (Text.ofDigits 10 values, rest)
  | chars => some (0, chars)

/-- Reads a time of day. -/
def readTime (chars : List Char) : Option (Time × List Char) := do
  let (hour, rest) ← twoDigitsUpTo 23 chars
  let rest ← expect ':' rest
  let (minute, rest) ← twoDigitsUpTo 59 rest
  let rest ← expect ':' rest
  let (second, rest) ← twoDigitsUpTo 60 rest
  let (nanosecond, rest) ← readFraction rest
  some (⟨hour, minute, second, nanosecond⟩, rest)

/-- Reads a signed offset after its sign. -/
def readMinutes (sign : Int) (chars : List Char) : Option (Option Offset × List Char) := do
  let (hours, rest) ← twoDigitsUpTo 23 chars
  let rest ← expect ':' rest
  let (minutes, rest) ← twoDigitsUpTo 59 rest
  some (some (.minutes (sign * (60 * hours + minutes : Nat))), rest)

/-- Reads an offset, if there is one. -/
def readOffset : List Char → Option (Option Offset × List Char)
  | 'Z' :: rest => some (some .universal, rest)
  | 'z' :: rest => some (some .universal, rest)
  | '+' :: rest => readMinutes 1 rest
  | '-' :: rest => readMinutes (-1) rest
  | chars => some (none, chars)

/-- Reads a date and, when a time follows, the time. -/
def readFromDate (chars : List Char) : Option (Datetime × List Char) := do
  let (date, rest) ← readDate chars
  match rest with
  | delimiter :: after =>
      if delimiter = 'T' ∨ delimiter = 't' ∨ delimiter = ' ' then
        match readTime after with
        | some (time, rest) => do
            let (offset, rest) ← readOffset rest
            some (⟨some date, some time, offset⟩, rest)
        | none => some (⟨some date, none, none⟩, rest)
      else some (⟨some date, none, none⟩, rest)
  | [] => some (⟨some date, none, none⟩, [])

/-- Reads a date-time of any kind. -/
def read (chars : List Char) : Option (Datetime × List Char) :=
  match readFromDate chars with
  | some found => some found
  | none => do
      let (time, rest) ← readTime chars
      some (⟨none, some time, none⟩, rest)

/-- The date-time that a whole text spells. -/
def ofText? (text : String) : Option Datetime :=
  match read text.toList with
  | some (datetime, []) => some datetime
  | _ => none

end Datetime

end Overlay.Toml
