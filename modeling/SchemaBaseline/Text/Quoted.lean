import SchemaBaseline.Text.Printable

/-!
# Quoted texts

A text in quotes, as it appears inside messages. Single quotes are used unless the text holds a
single quote and no double quote. The backslash, the quote in use, the line feed, the carriage
return and the tab have two-character escapes; other unprintable characters are escaped by their
code in two, four or eight hexadecimal digits.
-/

namespace SchemaBaseline.Text

/-- Lowercase hexadecimal digits, with zeros in front up to a width. -/
def hexDigits (width n : Nat) : List Char :=
  let digits := Nat.toDigits 16 n
  List.replicate (width - digits.length) '0' ++ digits

/-- The escape of a character code by its number. -/
def escapeCode (code : Nat) : List Char :=
  if code < 0x100 then '\\' :: 'x' :: hexDigits 2 code
  else if code < 0x10000 then '\\' :: 'u' :: hexDigits 4 code
  else '\\' :: 'U' :: hexDigits 8 code

/-- One character inside a quoted text. -/
def quotedChar (quote c : Char) : List Char :=
  if c = '\\' || c = quote then ['\\', c]
  else if c = '\n' then ['\\', 'n']
  else if c = '\r' then ['\\', 'r']
  else if c = '\t' then ['\\', 't']
  else if isPrintable c then [c]
  else escapeCode c.toNat

/-- The quote that surrounds a text. -/
def quoteFor (cs : List Char) : Char :=
  if cs.contains '\'' && !cs.contains '"' then '"' else '\''

def quoted (s : String) : String :=
  let cs := s.toList
  let quote := quoteFor cs
  String.ofList (quote :: cs.flatMap (quotedChar quote) ++ [quote])

/-- A sequence of character codes in quotes, among them codes that are no characters. -/
def quotedCodes (codes : List Nat) : String :=
  let cs := codes.map Char.ofNat
  let quote := quoteFor cs
  String.ofList (quote :: (codes.flatMap fun code =>
    if code.isValidChar then quotedChar quote (Char.ofNat code) else escapeCode code) ++ [quote])

end SchemaBaseline.Text
