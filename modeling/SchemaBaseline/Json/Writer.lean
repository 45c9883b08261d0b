import SchemaBaseline.Value.Display

/-!
# Writing JSON

`Json.pretty` writes a value over several lines with two blanks of indentation for each level; an
empty list or object stays on its line. `Json.compact` writes it on one line without blanks. Texts
are escaped only where JSON demands it.
-/

namespace SchemaBaseline.Json

/-- A character inside a JSON text. -/
def escapedChar (c : Char) : List Char :=
  if c = '"' then ['\\', '"']
  else if c = '\\' then ['\\', '\\']
  else if c = '\x08' then ['\\', 'b']
  else if c = '\x0c' then ['\\', 'f']
  else if c = '\n' then ['\\', 'n']
  else if c = '\r' then ['\\', 'r']
  else if c = '\t' then ['\\', 't']
  else if c.toNat < 0x20 then '\\' :: 'u' :: Text.hexDigits 4 c.toNat
  else [c]

/-- The characters of a text as a JSON literal. -/
def textChars (s : String) : List Char :=
  '"' :: s.toList.flatMap escapedChar ++ ['"']

/-- A text as a JSON literal. -/
def textLiteral (s : String) : String :=
  String.ofList (textChars s)

/-- The characters of a value that is neither a list nor an object. -/
def atomChars : Value → List Char
  | .null => "null".toList
  | .bool true => "true".toList
  | .bool false => "false".toList
  | .int n => (toString n).toList
  | .float x => (Decimal.display x).toList
  | .text s => textChars s
  | .stamp t => textChars t.text
  | v => textChars v.literal

/-- A line break followed by the indentation of a level. -/
def newline (level : Nat) : List Char :=
  '\n' :: List.replicate (2 * level) ' '

mutual

/-- A value over several lines, its own lines being indented by `level`. -/
def prettyChars (level : Nat) : Value → List Char
  | .list [] => ['[', ']']
  | .list (v :: rest) =>
    '[' :: (newline (level + 1) ++ prettyChars (level + 1) v ++ prettyItems (level + 1) rest ++
      newline level ++ [']'])
  | .object [] => ['\x7b', '\x7d']
  | .object ((name, v) :: rest) =>
    '\x7b' :: (newline (level + 1) ++
      (textChars name ++ (':' :: ' ' :: prettyChars (level + 1) v)) ++
      prettyEntries (level + 1) rest ++ newline level ++ ['\x7d'])
  | v => atomChars v

/-- Further items, each after a comma and on a line of its own. -/
def prettyItems (level : Nat) : List Value → List Char
  | [] => []
  | v :: rest => ',' :: (newline level ++ prettyChars level v ++ prettyItems level rest)

/-- Further entries, each after a comma and on a line of its own. -/
def prettyEntries (level : Nat) : List (String × Value) → List Char
  | [] => []
  | (name, v) :: rest =>
    ',' :: (newline level ++ (textChars name ++ (':' :: ' ' :: prettyChars level v)) ++
      prettyEntries level rest)

end

/-- A value over several lines, without a line break at the end. -/
def pretty (v : Value) : String :=
  String.ofList (prettyChars 0 v)

mutual

/-- The pieces of a value on one line. -/
def compactText : Value → String
  | .list items => "[" ++ joined "," (compactItems items) ++ "]"
  | .object entries => "\x7b" ++ joined "," (compactEntries entries) ++ "\x7d"
  | v => String.ofList (atomChars v)

/-- The items of a list, each on its own. -/
def compactItems : List Value → List String
  | [] => []
  | v :: rest => compactText v :: compactItems rest

/-- The entries of an object, each on its own. -/
def compactEntries : List (String × Value) → List String
  | [] => []
  | (name, v) :: rest => (textLiteral name ++ ":" ++ compactText v) :: compactEntries rest

end

/-- A value on one line. -/
def compact (v : Value) : String :=
  compactText v

end SchemaBaseline.Json
