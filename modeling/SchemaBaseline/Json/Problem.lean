import SchemaBaseline.Decimal.Reader

/-!
# Faults of JSON texts

What can be wrong with a JSON text, and how it is reported: the fault in words, then line, column
and character position, the first two counted from one and the last from zero.
-/

namespace SchemaBaseline.Json

open Decimal (maxDigits)

/-- What is wrong at a place of a JSON text. -/
inductive Problem
  | extraData
  | expectingValue
  | expectingName
  | expectingColon
  | expectingComma
  | unterminatedText
  | invalidEscape
  | invalidUnicodeEscape
  | controlCharacter
  | byteOrderMark
deriving Repr, DecidableEq

/-- Why a JSON text has no value: it breaks the grammar at a position, or an integer has too many
digits. -/
inductive Fault
  | malformed (problem : Problem) (line column position : Nat)
  | tooManyDigits (count : Nat)
deriving Repr, DecidableEq

/-- What is wrong, in words. -/
def Problem.message : Problem → String
  | .extraData => "Extra data"
  | .expectingValue => "Expecting value"
  | .expectingName => "Expecting property name enclosed in double quotes"
  | .expectingColon => "Expecting ':' delimiter"
  | .expectingComma => "Expecting ',' delimiter"
  | .unterminatedText => "Unterminated string starting at"
  | .invalidEscape => "Invalid \\escape"
  | .invalidUnicodeEscape => "Invalid \\uXXXX escape"
  | .controlCharacter => "Invalid control character at"
  | .byteOrderMark => "Unexpected UTF-8 BOM (decode using utf-8-sig)"

/-- The complaint about an integer of too many digits. -/
def tooManyDigitsMessage (count : Nat) : String :=
  s!"Exceeds the limit ({maxDigits} digits) for integer string conversion: " ++
    s!"value has {count} digits; " ++
    "use sys.set_int_max_str_digits() to increase the limit"

def Fault.message : Fault → String
  | .malformed problem line column position =>
    s!"{problem.message}: line {line} column {column} (char {position})"
  | .tooManyDigits count => tooManyDigitsMessage count

def Fault.at (text : List Char) (problem : Problem) (position : Nat) : Fault :=
  let before := text.take position
  let line := before.count '\n' + 1
  let column := (before.reverse.takeWhile (· != '\n')).length + 1
  .malformed problem line column position

end SchemaBaseline.Json
