import SchemaBaseline.Decimal.Layout
import SchemaBaseline.Time.Calendar

/-!
# Date-times

A `Stamp` is a civil date and time of day with microseconds, of the years 1 to 9999, optionally
with an offset from UTC in whole minutes below a day. The bounds are part of the type.
`Stamp.text` is the form in which stamps are stored; `Stamp.display` and `Stamp.toSecond` are the
forms shown to people, which write the offset zero in digits.
-/

namespace SchemaBaseline.Time

open Decimal (padded)

/-- Whether an offset in minutes stays below a day. -/
def validOffset : Option Int → Bool
  | none => true
  | some minutes => -1440 < minutes && minutes < 1440

/-- Whether a date exists in the years 1 to 9999. -/
def validDate (year month day : Nat) : Bool :=
  1 ≤ year && year ≤ 9999 && 1 ≤ month && month ≤ 12 && 1 ≤ day && day ≤ monthLength year month

/-- Whether a time of day exists. -/
def validTime (hour minute second micro : Nat) : Bool :=
  hour < 24 && minute < 60 && second < 60 && micro < 1000000

/-- A date-time, with or without an offset from UTC in minutes. -/
structure Stamp where
  year : Nat
  month : Nat
  day : Nat
  hour : Nat
  minute : Nat
  second : Nat
  micro : Nat
  offset : Option Int
  date_valid : validDate year month day = true := by decide
  time_valid : validTime hour minute second micro = true := by decide
  offset_valid : validOffset offset = true := by decide
deriving Repr, DecidableEq

instance : Inhabited Stamp :=
  ⟨{ year := 1, month := 1, day := 1, hour := 0, minute := 0, second := 0, micro := 0,
     offset := none }⟩

namespace Stamp

/-- The stamp with the given parts, if they are in range. -/
def of? (year month day hour minute second micro : Nat) (offset : Option Int) : Option Stamp :=
  if hd : validDate year month day = true then
    if ht : validTime hour minute second micro = true then
      if ho : validOffset offset = true then
        some ⟨year, month, day, hour, minute, second, micro, offset, hd, ht, ho⟩
      else none
    else none
  else none

def secondsPerDay : Int := 86400

/-- The stamp in UTC that lies the given seconds and microseconds after 1 January 1970. -/
def ofUnix? (seconds : Int) (micros : Nat) : Option Stamp :=
  let seconds := seconds + (micros / 1000000 : Nat)
  let (year, month, day) := dateOfDay (Int.fdiv seconds secondsPerDay)
  let rest := (Int.fmod seconds secondsPerDay).toNat
  if 0 < year then
    of? year.toNat month day (rest / 3600) (rest / 60 % 60) (rest % 60)
      (micros % 1000000) (some 0)
  else none

/-- The hours and minutes of an offset, with their sign. -/
def offsetDigits (minutes : Int) : String :=
  (if minutes < 0 then "-" else "+") ++ padded 2 (minutes.natAbs / 60) ++ ":" ++
    padded 2 (minutes.natAbs % 60)

/-- Date and time of day up to the second. -/
def base (t : Stamp) : String :=
  padded 4 t.year ++ "-" ++ padded 2 t.month ++ "-" ++ padded 2 t.day ++ "T" ++
    padded 2 t.hour ++ ":" ++ padded 2 t.minute ++ ":" ++ padded 2 t.second

/-- The fraction of a second, left out when it is zero. -/
def fraction (t : Stamp) : String :=
  if t.micro = 0 then "" else "." ++ padded 6 t.micro

/-- The stored form: the offset zero is written `Z`. -/
def text (t : Stamp) : String :=
  t.base ++ t.fraction ++
    match t.offset with
    | none => ""
    | some minutes => if minutes = 0 then "Z" else offsetDigits minutes

/-- The form shown in reports on a validation. -/
def display (t : Stamp) : String :=
  t.base ++ t.fraction ++ (t.offset.map offsetDigits).getD ""

/-- The form shown in schema texts: the fraction of a second is dropped. -/
def toSecond (t : Stamp) : String :=
  t.base ++ (t.offset.map offsetDigits).getD ""

end Stamp

end SchemaBaseline.Time
