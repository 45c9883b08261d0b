import SchemaBaseline.Text.Quoted
import SchemaBaseline.Value.Basic

/-!
# Values inside messages

How a value reads when a message quotes it. `Value.literal` writes a value so that its kind can be
told: texts are quoted, lists stand in brackets and objects in braces. `Value.display` is the
same, except that a text stands for itself.
-/

namespace SchemaBaseline

open Text (quoted quotedCodes escapeCode)

def joined (separator : String) (parts : List String) : String :=
  separator.intercalate parts

namespace Value

/-- One byte of binary data inside quotes. -/
def byteLiteral (quote : Char) (b : UInt8) : List Char :=
  let c := Char.ofNat b.toNat
  if c = '\\' || c = quote then ['\\', c]
  else if c = '\n' then ['\\', 'n']
  else if c = '\r' then ['\\', 'r']
  else if c = '\t' then ['\\', 't']
  else if 0x20 ≤ b && b < 0x7f then [c]
  else escapeCode b.toNat

mutual

def literal : Value → String
  | .null => "None"
  | .bool true => "True"
  | .bool false => "False"
  | .int n => toString n
  | .float x => Decimal.display x
  | .text s => quoted s
  | .brokenText codes => quotedCodes codes
  | .bytes data =>
    let quote := Text.quoteFor (data.map fun b => Char.ofNat b.toNat)
    String.ofList ('b' :: quote :: data.flatMap (byteLiteral quote) ++ [quote])
  | .stamp t => t.display
  | .list items => "[" ++ joined ", " (literals items) ++ "]"
  | .object entries => "\x7b" ++ joined ", " (entryLiterals entries) ++ "\x7d"

def literals : List Value → List String
  | [] => []
  | v :: rest => literal v :: literals rest

/-- Entries as a quoted name, a colon and a literal. -/
def entryLiterals : List (String × Value) → List String
  | [] => []
  | (name, v) :: rest => (quoted name ++ ": " ++ literal v) :: entryLiterals rest

end

/-- A value as it reads in running text. -/
def display : Value → String
  | .text s => s
  | v => v.literal

end Value

end SchemaBaseline
