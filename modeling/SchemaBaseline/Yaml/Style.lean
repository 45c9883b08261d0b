import SchemaBaseline.Yaml.Cursor
import SchemaBaseline.Yaml.Tag

/-!
# The style of a scalar

A text is written plain if that is read back as the same text, in single quotes if its characters
allow it, and in double quotes otherwise. `Style.of` chooses; `Scalar.chars` writes. A line that
has grown beyond `lineWidth` is broken at its next single blank; in double quotes a backslash
stands before such a break.
-/

namespace SchemaBaseline.Yaml

/-- How a scalar is written. -/
inductive Style
  | plain
  | single
  | double
deriving Repr, DecidableEq

/-! ## Choosing -/

/-- The line ends that may stand inside a scalar as they are. -/
def isInnerBreak (c : Char) : Bool :=
  c == '\n' || c == '\x85' || c == '\u2028' || c == '\u2029'

/-- Whether a character may stand inside a scalar without an escape. -/
def isUnescaped (c : Char) : Bool :=
  c == '\n' || (' ' ≤ c && c ≤ '~') || c == '\x85' ||
    ((('\xa0' ≤ c && c ≤ '\ufffd') || (0x10000 ≤ c.toNat && c.toNat < 0x10ffff)) && c != '\ufeff')

/-- Whether two neighbours pass two tests. -/
def hasNeighbours (first second : Char → Bool) (cs : List Char) : Bool :=
  (cs.zip cs.tail).any fun pair => first pair.1 && second pair.2

/-- The signs that mean something at the beginning of a scalar. -/
def isLeadingSign (c : Char) : Bool :=
  ",#[]\x7b\x7d&*!|>'\"%@`".toList.contains c

/-- Whether a blank follows the first character, or nothing does. -/
def blankFollows (rest : List Char) : Bool :=
  (rest.head?.map isBlankOrEnd).getD true

/-- Whether some sign would mean something if a text stood plain: one at its beginning, a mark of
a document, a colon before a blank or a number sign after one. -/
def hasSign (cs : List Char) : Bool :=
  "---".toList.isPrefixOf cs || "...".toList.isPrefixOf cs ||
    (match cs with
    | [] => false
    | c :: rest => isLeadingSign c || ((c == '?' || c == '-') && blankFollows rest)) ||
    hasNeighbours (· == ':') isBlankOrEnd cs || cs.getLast? == some ':' ||
      hasNeighbours isBlankOrEnd (· == '#') cs

/-- Whether a text begins or ends with a blank or a line end. -/
def hasOuterBlank (cs : List Char) : Bool :=
  let isBlank := fun c => c == ' ' || isInnerBreak c
  (cs.head?.map isBlank).getD false || (cs.getLast?.map isBlank).getD false

/-- Whether a text may stand in single quotes: no character needs an escape, and no blank is next
to a line end. -/
def fitsSingle (cs : List Char) : Bool :=
  cs.all isUnescaped && !hasNeighbours isInnerBreak (· == ' ') cs &&
    !hasNeighbours (· == ' ') isInnerBreak cs

/-- Whether a text may stand plain. -/
def fitsPlain (cs : List Char) : Bool :=
  Tag.ofPlain cs == .text && fitsSingle cs && !cs.any isInnerBreak &&
    !hasOuterBlank cs && !hasSign cs

/-- The style of a text. A name stays on its line. -/
def Style.of (isName : Bool) (cs : List Char) : Style :=
  if fitsPlain cs then .plain
  else if fitsSingle cs && !(isName && cs.any isInnerBreak) then .single
  else .double

/-! ## Writing -/

/-- The width beyond which lines are broken. -/
def lineWidth : Nat := 80

/-- Breaks the line and indents the next one. -/
def newLine (indent : Nat) : List Char :=
  '\n' :: List.replicate indent ' '

/-- A character in a plain or single-quoted scalar: a single quote is written twice. -/
def foldedChar (quote : Bool) (c : Char) : List Char :=
  if quote && c == '\'' then ['\'', '\''] else [c]

/-- The characters of a plain or single-quoted scalar from a column on; `before` is the character
before them. A single blank between others is left out where the line is broken. The first of
several line feeds is written twice, since a single one counts as a blank. -/
def foldedChars (quote : Bool) (indent : Nat) (before : Option Char) (column : Nat) :
    List Char → List Char
  | [] => []
  | c :: rest =>
    if c = ' ' then
      match before, rest with
      | some b, next :: _ =>
        if b != ' ' && next != ' ' && lineWidth < column then
          newLine indent ++ foldedChars quote indent (some c) indent rest
        else c :: foldedChars quote indent (some c) (column + 1) rest
      | _, _ => c :: foldedChars quote indent (some c) (column + 1) rest
    else if isInnerBreak c then
      (if c = '\n' && !(before.map isInnerBreak).getD false then ['\n'] else []) ++ c ::
        (if (rest.head?.map isInnerBreak).getD false then foldedChars quote indent (some c) 0 rest
        else List.replicate indent ' ' ++ foldedChars quote indent (some c) indent rest)
    else
      let written := foldedChar quote c
      written ++ foldedChars quote indent (some c) (column + written.length) rest

/-- The letter of an escape, where there is one. -/
def escapeLetter? (c : Char) : Option Char :=
  match c with
  | '\x00' => some '0'
  | '\x07' => some 'a'
  | '\x08' => some 'b'
  | '\t' => some 't'
  | '\n' => some 'n'
  | '\x0b' => some 'v'
  | '\x0c' => some 'f'
  | '\r' => some 'r'
  | '\x1b' => some 'e'
  | '"' => some '"'
  | '\\' => some '\\'
  | '\x85' => some 'N'
  | '\u2028' => some 'L'
  | '\u2029' => some 'P'
  | _ => none

/-- Uppercase hexadecimal digits, with zeros in front up to a width. -/
def upperHex (width n : Nat) : List Char :=
  let digits := (Nat.toDigits 16 n).map Char.toUpper
  List.replicate (width - digits.length) '0' ++ digits

/-- Whether a character is escaped in double quotes. -/
def needsEscape (c : Char) : Bool :=
  (escapeLetter? c).isSome || c == '\ufeff' ||
    !((' ' ≤ c && c ≤ '~') || ('\xa0' ≤ c && c ≤ '\ufffd'))

/-- A character in double quotes. -/
def doubleChar (c : Char) : List Char :=
  if needsEscape c then
    match escapeLetter? c with
    | some letter => ['\\', letter]
    | none =>
      if c.toNat ≤ 0xff then '\\' :: 'x' :: upperHex 2 c.toNat
      else if c.toNat ≤ 0xffff then '\\' :: 'u' :: upperHex 4 c.toNat
      else '\\' :: 'U' :: upperHex 8 c.toNat
  else [c]

/-- What breaks a line in double quotes: a backslash, and one more if the next line would begin
with a blank. -/
def doubleBreak (indent : Nat) (next : Option Char) : List Char :=
  '\\' :: newLine indent ++ (if next = some ' ' then ['\\'] else [])

/-- The characters of a double-quoted scalar from a column on; `first` says that none is before
them and `escaped` that the one before them is written as an escape. A line is broken before a
blank, before a character behind an escape, and behind an escape. -/
def doubleChars (breaks : Bool) (indent : Nat) (first escaped : Bool) (column : Nat) :
    List Char → List Char
  | [] => []
  | c :: rest =>
    let written := doubleChar c
    let inside := breaks && !first && !rest.isEmpty
    let opening := doubleBreak indent
    if needsEscape c then
      let column := column + written.length
      if inside && lineWidth + 1 < column then
        let cut := opening rest.head?
        written ++ cut ++ doubleChars breaks indent false true (cut.length - 2) rest
      else written ++ doubleChars breaks indent false true column rest
    else if inside && (c = ' ' || escaped) && lineWidth < column then
      let cut := opening (some c)
      cut ++ written ++ doubleChars breaks indent false false (cut.length - 1) rest
    else written ++ doubleChars breaks indent false false (column + 1) rest

/-- The characters of a scalar that begins at a column; lines after the first are indented. A name
is never broken. -/
def scalarChars (isName : Bool) (indent column : Nat) (cs : List Char) : List Char :=
  match Style.of isName cs with
  | .plain => if isName then cs else foldedChars false indent none column cs
  | .single =>
    '\'' :: (if isName then cs.flatMap (foldedChar true)
      else foldedChars true indent none (column + 1) cs) ++ ['\'']
  | .double => '"' :: doubleChars (!isName) indent true false (column + 1) cs ++ ['"']

end SchemaBaseline.Yaml
