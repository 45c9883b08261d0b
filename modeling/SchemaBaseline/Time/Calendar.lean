/-!
# The civil calendar

Days and civil dates of the proleptic Gregorian calendar. `dateOfDay` counts days from 1 January
1970 and works on eras of four hundred years, each of which has the same number of days.
-/

namespace SchemaBaseline.Time

/-- Whether a year has a 29 February. -/
def isLeap (year : Nat) : Bool :=
  year % 4 == 0 && (year % 100 != 0 || year % 400 == 0)

def monthLength (year month : Nat) : Nat :=
  match month with
  | 2 => if isLeap year then 29 else 28
  | 4 | 6 | 9 | 11 => 30
  | _ => 31

def daysPerEra : Int := 146097

/-- The day that begins the first era, 1 March of year 0, lies this many days before 1 January
1970. -/
def eraOffset : Int := 719468

/-- The year, month and day of a day counted from 1 January 1970. The era's year begins in March,
so that the leap day is its last one. -/
def dateOfDay (day : Int) : Int × Nat × Nat :=
  let shifted := day + eraOffset
  let era := Int.fdiv shifted daysPerEra
  let dayOfEra := (Int.fmod shifted daysPerEra).toNat
  let yearOfEra := (dayOfEra - dayOfEra / 1460 + dayOfEra / 36524 - dayOfEra / 146096) / 365
  let dayOfYear := dayOfEra - (365 * yearOfEra + yearOfEra / 4 - yearOfEra / 100)
  let marchMonth := (5 * dayOfYear + 2) / 153
  let day := dayOfYear - (153 * marchMonth + 2) / 5 + 1
  let month := if marchMonth < 10 then marchMonth + 3 else marchMonth - 9
  let year : Int := yearOfEra + era * 400 + if month ≤ 2 then 1 else 0
  (year, month, day)

end SchemaBaseline.Time
