import AccessPolicy.Text.Digits
import AccessPolicy.Toml.Scanner

/-!
# Dates and times

Dates of the Gregorian calendar, times of the day up to a leap second, and
offsets from universal time.  Only dates and times that exist are read.
-/

namespace AccessPolicy.Toml

structure Date where
  year : Nat
  month : Nat
  day : Nat
  deriving DecidableEq, Repr

structure Time where
  hour : Nat
  minute : Nat
  second : Nat
  /-- The digits of the fraction of a second. -/
  fraction : List Char
  deriving DecidableEq, Repr

/-- The distance from universal time, in minutes. -/
structure Offset where
  minutes : Int
  deriving DecidableEq, Repr

/-- A date, a time, or both, and perhaps an offset. -/
inductive DateTime where
  | dateOnly (date : Date)
  | timeOnly (time : Time)
  | both (date : Date) (time : Time) (offset : Option Offset)
  deriving DecidableEq, Repr

namespace Date

/-- A year is a leap year when 4 divides it, and 100 does not unless 400
does. -/
def isLeapYear (year : Nat) : Bool :=
  year % 4 == 0 && (year % 100 != 0 || year % 400 == 0)

/-- The number of days of a month. -/
def daysIn (year month : Nat) : Nat :=
  if month = 2 then if isLeapYear year then 29 else 28
  else if month ∈ [4, 6, 9, 11] then 30
  else 31

/-- Whether the calendar has a date. -/
def Exists (date : Date) : Prop :=
  1 ≤ date.month ∧ date.month ≤ 12 ∧ 1 ≤ date.day ∧
    date.day ≤ daysIn date.year date.month

instance (date : Date) : Decidable date.Exists :=
  inferInstanceAs (Decidable (_ ∧ _))

end Date

/-- Whether a day has a time. -/
def Time.Exists (time : Time) : Prop :=
  time.hour < 24 ∧ time.minute < 60 ∧ time.second ≤ 60

instance (time : Time) : Decidable time.Exists :=
  inferInstanceAs (Decidable (_ ∧ _))

namespace DateTime

open Scanner

/-- Take a number of exactly so many digits. -/
def fixedDigits (count : Nat) : Scanner Nat := do
  let digits ← exactly (Text.isDigit 10) count
  pure ((Text.number? 10 digits).getD 0)

def scanDate : Scanner Date := do
  let year ← fixedDigits 4
  char '-'
  let month ← fixedDigits 2
  char '-'
  let day ← fixedDigits 2
  let date : Date := { year, month, day }
  guard date.Exists
  pure date

/-- Take the fraction of a second. -/
def scanFraction : Scanner (List Char) := do
  char '.'
  nonemptyRunOf (Text.isDigit 10)

def scanTime : Scanner Time := do
  let hour ← fixedDigits 2
  char ':'
  let minute ← fixedDigits 2
  char ':'
  let second ← fixedDigits 2
  let fraction ← optional scanFraction
  let time : Time := { hour, minute, second, fraction := fraction.getD [] }
  guard time.Exists
  pure time

/-- Take an offset of hours and minutes. -/
def numericOffset : Scanner Offset := do
  let negative ← (char '-' *> pure true) <|> (char '+' *> pure false)
  let hours ← fixedDigits 2
  char ':'
  let minutes ← fixedDigits 2
  guard (hours < 24 ∧ minutes < 60)
  let distance : Int := 60 * hours + minutes
  pure { minutes := if negative then -distance else distance }

/-- Take an offset; the letter stands for universal time itself. -/
def scanOffset : Scanner Offset :=
  (do char 'Z' <|> char 'z'; pure { minutes := 0 }) <|> numericOffset

/-- Take the time behind a date, and an offset if there is one. -/
def timeBehindDate : Scanner (Time × Option Offset) := do
  let _ ← satisfying fun c => c == 'T' || c == 't' || c == ' '
  let time ← scanTime
  let offset ← optional scanOffset
  pure (time, offset)

/-- Take a date, a time or both. -/
def scan : Scanner DateTime :=
  (do
    let date ← scanDate
    match ← optional timeBehindDate with
    | some (time, offset) => pure (.both date time offset)
    | none => pure (.dateOnly date)) <|>
  (.timeOnly <$> scanTime)

end DateTime

end AccessPolicy.Toml
