import SchemaBaseline.Time.Stamp

/-!
# Reading date-times

`readText` reads a date, a date and a time, or a plain decimal number of seconds since 1970;
`readInt` and `readFloat` read the same from numbers. A count whose magnitude exceeds `watershed`
is one of milliseconds. `StampProblem` tells apart texts of no known form, values that denote no
representable time, and values of no suitable kind.
-/

namespace SchemaBaseline.Time

/-- Why a value is no date-time. -/
inductive StampProblem
  | unreadable
  | unrepresentable
  | unsuitable
deriving Repr, DecidableEq

/-- Counts of larger magnitude are milliseconds. -/
def watershed : Int := 20000000000

/-- Takes a number of exactly `n` decimal digits off the front. -/
def takeDigits (n : Nat) (cs : List Char) : Option (Nat × List Char) :=
  let digits := cs.take n
  if digits.length = n && digits.all Char.isDigit then
    some (Decimal.natOfDigits digits, cs.drop n)
  else none

/-- Takes one given character off the front. -/
def takeChar (c : Char) : List Char → Option (List Char)
  | [] => none
  | d :: rest => if c = d then some rest else none

/-- Year, month and day of a front `YYYY-MM-DD`, which must exist; year 0 is let through. -/
def takeDate (cs : List Char) : Option ((Nat × Nat × Nat) × List Char) := do
  let (year, cs) ← takeDigits 4 cs
  let cs ← takeChar '-' cs
  let (month, cs) ← takeDigits 2 cs
  let cs ← takeChar '-' cs
  let (day, cs) ← takeDigits 2 cs
  if 1 ≤ month && month ≤ 12 && 1 ≤ day && day ≤ monthLength year month then
    some ((year, month, day), cs)
  else none

/-- Microseconds from the digits of a fraction: digits after the sixth are cut off. -/
def microsOfDigits (digits : List Char) : Nat :=
  Decimal.natOfDigits ((digits ++ List.replicate 6 '0').take 6)

/-- Seconds with an optional fraction, if a colon follows; otherwise zero. -/
def takeSeconds (cs : List Char) : Option ((Nat × Nat) × List Char) :=
  match cs with
  | ':' :: rest => do
    let (second, rest) ← takeDigits 2 rest
    match rest with
    | mark :: tail =>
      if mark = '.' || mark = ',' then
        let digits := tail.takeWhile Char.isDigit
        if digits.isEmpty then none
        else some ((second, microsOfDigits digits), tail.dropWhile Char.isDigit)
      else some ((second, 0), rest)
    | [] => some ((second, 0), rest)
  | _ => some ((0, 0), cs)

/-- An offset at the end of a text: nothing, `Z`, or a sign with hours and minutes, a colon
between them being optional. -/
def readOffset (cs : List Char) : Option (Option Int) :=
  match cs with
  | [] => some none
  | ['Z'] => some (some 0)
  | ['z'] => some (some 0)
  | sign :: rest =>
    if sign = '+' || sign = '-' then do
      let (hours, rest) ← takeDigits 2 rest
      let (minutes, rest) ← takeDigits 2 ((takeChar ':' rest).getD rest)
      if rest.isEmpty && hours < 24 && minutes < 60 then
        let total : Int := 60 * hours + minutes
        some (some (if sign = '-' then -total else total))
      else none
    else none

/-- A text of the form date, or date and time. The outer option is for texts of another form, the
inner one for year 0. -/
def readCivil (cs : List Char) : Option (Option Stamp) := do
  let ((year, month, day), cs) ← takeDate cs
  match cs with
  | [] => some (Stamp.of? year month day 0 0 0 0 none)
  | separator :: cs =>
    if separator = 'T' || separator = 't' || separator = '_' || separator = ' ' then
      let (hour, cs) ← takeDigits 2 cs
      let cs ← takeChar ':' cs
      let (minute, cs) ← takeDigits 2 cs
      let ((second, micro), cs) ← takeSeconds cs
      let offset ← readOffset cs
      if validTime hour minute second micro then
        some (Stamp.of? year month day hour minute second micro offset)
      else none
    else none

/-- An integral count of seconds or milliseconds. -/
def ofCount (count : Int) (micros : Nat) : Option Stamp :=
  if count.natAbs ≤ watershed.natAbs then Stamp.ofUnix? count micros
  else Stamp.ofUnix? (Int.fdiv count 1000) (1000 * (Int.fmod count 1000).toNat + micros)

/-- A JSON integer as a date-time; integers of more than 64 bits are no counts at all. -/
def readInt (n : Int) : Except StampProblem Stamp :=
  if n < -Int.pow 2 63 || Int.pow 2 63 ≤ n then .error .unsuitable
  else match ofCount n 0 with
    | some t => .ok t
    | none => .error .unrepresentable

/-- The fraction of a finite number, away from zero, in millionths. -/
def fractionMicros (x : Float) : Nat :=
  let size := Decimal.magnitude x
  if 0 ≤ size.exponent then 0
  else
    let den := Nat.pow 2 (-size.exponent).toNat
    Decimal.roundQuotient (size.significand % den * 1000000) den

/-- A JSON number with a fraction or an exponent as a date-time. -/
def readFloat (x : Float) : Except StampProblem Stamp :=
  if x.isNaN || x.isInf then .error .unrepresentable
  else match ofCount (Decimal.floor x) (fractionMicros x) with
    | some t => .ok t
    | none => .error .unrepresentable

/-- A plain decimal number: an optional minus sign, digits, and optionally a point and more
digits. -/
def readPlainNumber (cs : List Char) : Option (Option Stamp) :=
  let negative := cs.head? = some '-'
  let body := if negative then cs.drop 1 else cs
  let whole := body.takeWhile Char.isDigit
  if whole.isEmpty then none
  else
    let signed : Int := Decimal.natOfDigits whole
    match body.dropWhile Char.isDigit with
    | [] => some (ofCount (if negative then -signed else signed) 0)
    | '.' :: digits =>
      if digits.isEmpty || !digits.all Char.isDigit then none
      else
        let size := Decimal.natOfDigits (whole ++ digits)
        let den := Nat.pow 10 digits.length
        let inMillis := watershed.natAbs * den < size
        let den := if inMillis then 1000 * den else den
        let num : Int := if negative then -(size : Int) else size
        let seconds := Int.fdiv num den
        some (Stamp.ofUnix? seconds (Decimal.roundQuotient
          ((num - seconds * den).toNat * 1000000) den))
    | _ => none

/-- A text as a date-time. -/
def readText (s : String) : Except StampProblem Stamp :=
  match readCivil s.toList with
  | some (some t) => .ok t
  | some none => .error .unrepresentable
  | none =>
    match readPlainNumber s.toList with
    | some (some t) => .ok t
    | _ => .error .unreadable

end SchemaBaseline.Time
