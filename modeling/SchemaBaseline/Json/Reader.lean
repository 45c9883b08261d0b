import SchemaBaseline.Json.Problem
import SchemaBaseline.Text.Utf8
import SchemaBaseline.Text.Wide
import SchemaBaseline.Value.Basic

/-!
# Reading JSON

A recursive-descent reader. Each reader takes the rest of the text and gives what it read together
with what is left; a `Stop` names the fault by how many characters were left where it lies, so
that no position has to be carried along. Beyond the standard, `NaN`, `Infinity` and `-Infinity`
are numbers, and of two entries with one name the later one counts.

A body may spell surrogates that stand alone, which are no characters. The text that is read has a
replacement for each of them, and `codeOf` tells the readers which code is meant at the front of a
rest: for a text of characters that is `frontCode`.
-/

namespace SchemaBaseline.Json

/-- Where and why reading stops; `left` counts the characters from the fault to the end of the
text. -/
inductive Stop
  | malformed (problem : Problem) (left : Nat)
  | tooManyDigits (count : Nat)

/-- The blanks between the tokens of JSON. -/
def isBlank (c : Char) : Bool :=
  c == ' ' || c == '\t' || c == '\n' || c == '\r'

def skipBlanks (cs : List Char) : List Char :=
  cs.dropWhile isBlank

/-- Stops at the front of the given rest. -/
def stop {α : Type} (problem : Problem) (cs : List Char) : Except Stop α :=
  .error (.malformed problem cs.length)

/-! ## Texts -/

/-- The value of a hexadecimal digit. -/
def hexValue? (c : Char) : Option Nat :=
  if '0' ≤ c && c ≤ '9' then some (c.toNat - '0'.toNat)
  else if 'a' ≤ c && c ≤ 'f' then some (c.toNat - 'a'.toNat + 10)
  else if 'A' ≤ c && c ≤ 'F' then some (c.toNat - 'A'.toNat + 10)
  else none

/-- The value of four hexadecimal digits at the front. -/
def hex4? : List Char → Option Nat
  | a :: b :: c :: d :: _ => do
    some ((((← hexValue? a) * 16 + (← hexValue? b)) * 16 + (← hexValue? c)) * 16 +
      (← hexValue? d))
  | _ => none

/-- The character of a two-character escape. -/
def shortEscape? (c : Char) : Option Char :=
  match c with
  | '"' => some '"'
  | '\\' => some '\\'
  | '/' => some '/'
  | 'b' => some '\x08'
  | 'f' => some '\x0c'
  | 'n' => some '\n'
  | 'r' => some '\r'
  | 't' => some '\t'
  | _ => none

/-- A `\u` escape whose `u` comes first in `cs`: its code, and how many characters it takes after
the `u`. Another character must follow the digits. A high surrogate joins the low one that is
escaped directly behind it, unless the text ends with that. -/
def unicodeEscape (cs : List Char) : Except Stop (Nat × Nat) :=
  let digits := cs.drop 1
  if digits.length ≤ 4 then stop .invalidUnicodeEscape cs
  else match hex4? digits with
    | none => stop .invalidUnicodeEscape cs
    | some code =>
      match digits.drop 4 with
      | '\\' :: 'u' :: more =>
        if Text.isHighSurrogate code && 4 < more.length then
          match hex4? more with
          | none => stop .invalidUnicodeEscape ('u' :: more)
          | some low =>
            .ok (if Text.isLowSurrogate low then (Text.joinSurrogates code low, 10)
              else (code, 4))
        else .ok (code, 4)
      | _ => .ok (code, 4)

/-- The code of the character at the front. -/
def frontCode : List Char → Nat
  | c :: _ => c.toNat
  | [] => 0

/-- The code at the front of a rest of the text that some codes spell. -/
def frontCodeAmong (codes : List Nat) (rest : List Char) : Nat :=
  codes.getD (codes.length - rest.length) 0

variable (codeOf : List Char → Nat)

/-- The codes of a text up to the closing quote. `opening` is the rest of the text that begins
with the opening quote. -/
def readCodes (opening : List Char) :
    Nat → List Char → List Nat → Except Stop (List Nat × List Char)
  | _, [], _ => stop .unterminatedText opening
  | 0, _ :: _, _ => stop .unterminatedText opening
  | fuel + 1, c :: cs, acc =>
    if c = '"' then .ok (acc.reverse, cs)
    else if c = '\\' then
      match cs with
      | [] => stop .unterminatedText opening
      | 'u' :: _ =>
        match unicodeEscape cs with
        | .error e => .error e
        | .ok (code, size) => readCodes opening fuel (cs.drop (size + 1)) (code :: acc)
      | e :: rest =>
        match shortEscape? e with
        | none => stop .invalidEscape (c :: cs)
        | some plain => readCodes opening fuel rest (plain.toNat :: acc)
    else if c.toNat < 0x20 then stop .controlCharacter (c :: cs)
    else readCodes opening fuel cs (codeOf (c :: cs) :: acc)

/-! ## Numbers -/

/-- An exponent at the front, if there is a complete one. -/
def readExponent (cs : List Char) : Option (Int × List Char) :=
  match cs with
  | e :: rest =>
    if e = 'e' || e = 'E' then
      let negative := rest.head? = some '-'
      let body := if negative || rest.head? = some '+' then rest.drop 1 else rest
      let digits := body.takeWhile Char.isDigit
      if digits.isEmpty then none
      else
        let size : Int := Decimal.natOfDigits digits
        some (if negative then -size else size, body.dropWhile Char.isDigit)
    else none
  | [] => none

/-- A fraction at the front, if a digit follows the point. -/
def readFraction (cs : List Char) : Option (List Char × List Char) :=
  match cs with
  | '.' :: rest =>
    let digits := rest.takeWhile Char.isDigit
    if digits.isEmpty then none else some (digits, rest.dropWhile Char.isDigit)
  | _ => none

/-- The digits of a whole number: a zero stands alone. -/
def wholeDigits : List Char → List Char
  | '0' :: _ => ['0']
  | cs => cs.takeWhile Char.isDigit

/-- A number. A fraction or an exponent that is not complete is left in the text. -/
def readNumber (cs : List Char) : Except Stop (Value × List Char) :=
  let negative := cs.head? = some '-'
  let body := if negative then cs.drop 1 else cs
  let whole := wholeDigits body
  if whole.isEmpty then stop .expectingValue cs
  else
    let rest := body.drop whole.length
    let fraction := readFraction rest
    let afterFraction := (fraction.map Prod.snd).getD rest
    let exponent := readExponent afterFraction
    match fraction, exponent with
    | none, none =>
      if Decimal.maxDigits < whole.length then .error (.tooManyDigits whole.length)
      else
        let size : Int := Decimal.natOfDigits whole
        .ok (.int (if negative then -size else size), rest)
    | _, _ =>
      let digits := (fraction.map Prod.fst).getD []
      .ok (.float (Decimal.ofLiteral negative whole digits ((exponent.map Prod.fst).getD 0)),
        (exponent.map Prod.snd).getD afterFraction)

/-! ## Values -/

/-- The literals that are words, with their values. -/
def words : List (List Char × Value) := [
  ("null".toList, .null), ("true".toList, .bool true), ("false".toList, .bool false),
  ("NaN".toList, .float (0.0 / 0.0)), ("Infinity".toList, .float (1.0 / 0.0)),
  ("-Infinity".toList, .float (-1.0 / 0.0))]

/-- A word at the front of the text. -/
def readWord (cs : List Char) : Option (Value × List Char) :=
  (words.find? fun entry => entry.1.isPrefixOf cs).map fun entry =>
    (entry.2, cs.drop entry.1.length)

mutual

/-- A value at the front of the text. -/
def readValue : Nat → List Char → Except Stop (Value × List Char)
  | 0, cs => stop .expectingValue cs
  | fuel + 1, cs =>
    match cs with
    | '"' :: rest => do
      let (codes, rest) ← readCodes codeOf cs rest.length rest []
      .ok (Value.ofCodes codes, rest)
    | '[' :: rest =>
      match skipBlanks rest with
      | ']' :: rest => .ok (.list [], rest)
      | rest => readItems fuel rest []
    | '\x7b' :: rest =>
      match skipBlanks rest with
      | '\x7d' :: rest => .ok (.object [], rest)
      | rest => readEntries fuel rest []
    | _ =>
      match readWord cs with
      | some found => .ok found
      | none => readNumber cs

/-- The items of a list up to the closing bracket; `acc` holds those before, last first. -/
def readItems : Nat → List Char → List Value → Except Stop (Value × List Char)
  | 0, cs, _ => stop .expectingValue cs
  | fuel + 1, cs, acc => do
    let (item, rest) ← readValue fuel cs
    match skipBlanks rest with
    | ']' :: rest => .ok (.list (item :: acc).reverse, rest)
    | ',' :: rest => readItems fuel (skipBlanks rest) (item :: acc)
    | rest => stop .expectingComma rest

/-- The entries of an object up to the closing brace; `acc` holds those before. -/
def readEntries : Nat → List Char → Entries → Except Stop (Value × List Char)
  | 0, cs, _ => stop .expectingValue cs
  | fuel + 1, cs, acc =>
    match cs with
    | '"' :: rest => do
      let (codes, rest) ← readCodes codeOf cs rest.length rest []
      match skipBlanks rest with
      | ':' :: rest => do
        let (v, rest) ← readValue fuel (skipBlanks rest)
        let entries := Entries.put acc (Value.nameOfCodes codes) v
        match skipBlanks rest with
        | '\x7d' :: rest => .ok (.object entries, rest)
        | ',' :: rest => readEntries fuel (skipBlanks rest) entries
        | rest => stop .expectingComma rest
      | rest => stop .expectingColon rest
    | _ => stop .expectingName cs

end

/-- A whole text: a value with nothing but blanks around it. Every character opens at most two
calls, the one for a value and the one for its first item. -/
def readAll (cs : List Char) : Except Stop Value := do
  let (v, rest) ← readValue codeOf (2 * cs.length + 2) (skipBlanks cs)
  match skipBlanks rest with
  | [] => .ok v
  | rest => stop .extraData rest

/-- The value of a JSON text, without regard to a byte-order mark. -/
def readUnmarked (s : String) : Except Fault Value :=
  let cs := s.toList
  match readAll codeOf cs with
  | .ok v => .ok v
  | .error (.malformed problem left) => .error (Fault.at cs problem (cs.length - left))
  | .error (.tooManyDigits count) => .error (.tooManyDigits count)

/-- The value of a JSON text, which must not begin with a byte-order mark. -/
def read (s : String) : Except Fault Value :=
  if s.toList.head? = some '\ufeff' then .error (Fault.at [] .byteOrderMark 0)
  else readUnmarked frontCode s

/-- Why a body holds no JSON value. -/
inductive BodyFault
  | undecodable (e : Text.DecodeError)
  | json (fault : Fault)

def BodyFault.message : BodyFault → String
  | .undecodable e => e.message
  | .json fault => fault.message

/-- The value of the JSON text that some codes spell. -/
def readCoded (codes : List Nat) : Except Fault Value :=
  -- Only codes that are no characters have to be looked up.
  let codeOf := if codes.all (·.isValidChar) then frontCode else frontCodeAmong codes
  readUnmarked codeOf (Value.nameOfCodes codes)

/-- The value of a body in UTF-8, UTF-16 or UTF-32. -/
def readBody (bytes : List UInt8) : Except BodyFault Value :=
  match Text.decodeBody bytes with
  | .error e => .error (.undecodable e)
  | .ok codes =>
    match readCoded codes with
    | .ok v => .ok v
    | .error fault => .error (.json fault)

end SchemaBaseline.Json
