import SchemaBaseline.Decimal.Layout
import SchemaBaseline.Value.Basic
import SchemaBaseline.Yaml.Style

/-!
# Writing YAML

`Yaml.write` writes a value in block style: each entry of an object and each item of a list begins
a line of its own. The items of a list under a name are not indented further than the name. Empty
lists and objects stay on the line of their name.
-/

namespace SchemaBaseline.Yaml

/-- How far each level is indented. -/
def indentStep : Nat := 2

/-- The text of a number: a whole number in scientific notation gets a point. -/
def floatChars (x : Float) : List Char :=
  if x.isNaN then ".nan".toList
  else if x.isInf then (if x < 0 then "-.inf" else ".inf").toList
  else
    let cs := (Decimal.display x).toList
    if cs.contains '.' then cs else cs.flatMap fun c => if c = 'e' then ['.', '0', 'e'] else [c]

/-- The characters of a value that is neither a list nor an object. -/
def atomChars (indent column : Nat) : Value → List Char
  | .null => "null".toList
  | .bool true => "true".toList
  | .bool false => "false".toList
  | .int n => (toString n).toList
  | .float x => floatChars x
  | .text s => scalarChars false indent column s.toList
  | .stamp t => scalarChars false indent column t.text.toList
  | _ => []

/-- A name and the colon behind it. -/
def nameChars (name : String) : List Char :=
  scalarChars true 0 0 name.toList ++ [':']

/-- The column behind the colon of a name that begins at `indent`. -/
def columnBehind (indent : Nat) (name : String) : Nat :=
  indent + (nameChars name).length

mutual

/-- A value behind the colon of an entry; the entry is indented by `indent`, and `column`
characters of its line are taken. -/
def entryValueChars (indent column : Nat) : Value → List Char
  | .list [] => " []".toList
  | .list (v :: rest) => newLine indent ++ itemChars indent v ++ moreItems indent rest
  | .object [] => " \x7b\x7d".toList
  | .object ((name, v) :: rest) =>
    let inner := indent + indentStep
    newLine inner ++ nameChars name ++ entryValueChars inner (columnBehind inner name) v ++
      moreEntries inner rest
  | v => ' ' :: atomChars (indent + indentStep) (column + 1) v

/-- Further entries, each on a line of its own. -/
def moreEntries (indent : Nat) : List (String × Value) → List Char
  | [] => []
  | (name, v) :: rest =>
    newLine indent ++ nameChars name ++ entryValueChars indent (columnBehind indent name) v ++
      moreEntries indent rest

def itemChars (indent : Nat) : Value → List Char
  | .list [] => "- []".toList
  | .list (v :: rest) =>
    '-' :: ' ' :: itemChars (indent + indentStep) v ++ moreItems (indent + indentStep) rest
  | .object [] => "- \x7b\x7d".toList
  | .object ((name, v) :: rest) =>
    let inner := indent + indentStep
    '-' :: ' ' :: nameChars name ++ entryValueChars inner (columnBehind inner name) v ++
      moreEntries inner rest
  | v => '-' :: ' ' :: atomChars (indent + indentStep) (indent + indentStep) v

/-- Further items, each on a line of its own. -/
def moreItems (indent : Nat) : List Value → List Char
  | [] => []
  | v :: rest => newLine indent ++ itemChars indent v ++ moreItems indent rest

end

def documentChars : Value → List Char
  | .list [] => "[]".toList
  | .list (v :: rest) => itemChars 0 v ++ moreItems 0 rest
  | .object [] => "\x7b\x7d".toList
  | .object ((name, v) :: rest) =>
    nameChars name ++ entryValueChars 0 (columnBehind 0 name) v ++ moreEntries 0 rest
  | v => atomChars indentStep 0 v

def write (v : Value) : String :=
  String.ofList (documentChars v ++ ['\n'])

end SchemaBaseline.Yaml
