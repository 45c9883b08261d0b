/-!
# Places in a YAML text

A `Cursor` is the rest of a text together with the `Mark` that tells where the rest begins. The
end of a text reads as the character NUL, which no acceptable text contains, so that a look ahead
is always a character.
-/

namespace SchemaBaseline.Yaml

/-! ## Classes of characters -/

/-- The characters that end a line. -/
def isBreak (c : Char) : Bool :=
  c == '\n' || c == '\r' || c == '\x85' || c == '\u2028' || c == '\u2029'

/-- The end of a line or of the text. -/
def isLineEnd (c : Char) : Bool :=
  c == '\x00' || isBreak c

/-- A blank or the end of a line. -/
def isSpaceOrEnd (c : Char) : Bool :=
  c == ' ' || isLineEnd c

/-- A blank, a tab or the end of a line. -/
def isBlankOrEnd (c : Char) : Bool :=
  c == '\t' || isSpaceOrEnd c

/-- The characters of names: letters and digits of ASCII, the minus and the underscore. -/
def isNameChar (c : Char) : Bool :=
  c.isAlphanum || c == '-' || c == '_'

/-- Whether a text may hold a character as it is. -/
def isAcceptable (c : Char) : Bool :=
  c == '\t' || c == '\n' || c == '\r' || (' ' ≤ c && c ≤ '~') || c == '\x85' ||
    ('\xa0' ≤ c && c ≤ '\ufffd') || 0x10000 ≤ c.toNat

/-! ## Marks -/

/-- A place in a text: the number of characters before it, of lines before its line, and of
characters before it in its line. -/
structure Mark where
  index : Nat
  line : Nat
  column : Nat
deriving Repr, DecidableEq, Inhabited

/-- The place behind a character. A carriage return before a line feed does not end the line; a
byte-order mark has no width. -/
def Mark.step (m : Mark) (c : Char) (rest : List Char) : Mark :=
  if isBreak c && !(c == '\r' && rest.head? == some '\n') then ⟨m.index + 1, m.line + 1, 0⟩
  else if c = '\ufeff' then ⟨m.index + 1, m.line, m.column⟩
  else ⟨m.index + 1, m.line, m.column + 1⟩

/-! ## Cursors -/

/-- The rest of a text and where it begins. The size is that of the whole text; no loop over the
rest takes more rounds. -/
structure Cursor where
  rest : List Char
  mark : Mark
  size : Nat

namespace Cursor

/-- The beginning of a text. -/
def start (cs : List Char) : Cursor :=
  ⟨cs, ⟨0, 0, 0⟩, cs.length⟩

/-- The character `n` places ahead. -/
def peek (c : Cursor) (n : Nat) : Char :=
  c.rest.getD n '\x00'

/-- The character ahead. -/
def head (c : Cursor) : Char :=
  c.peek 0

/-- The column of the character ahead. -/
def column (c : Cursor) : Nat :=
  c.mark.column

/-- Whether nothing is left. -/
def atEnd (c : Cursor) : Bool :=
  c.rest.isEmpty

def next (c : Cursor) : Cursor :=
  match c.rest with
  | [] => c
  | d :: rest => ⟨rest, c.mark.step d rest, c.size⟩

def forward (c : Cursor) : Nat → Cursor
  | 0 => c
  | n + 1 => c.next.forward n

/-- The characters ahead for which a test holds. -/
def run (c : Cursor) (p : Char → Bool) : List Char :=
  c.rest.takeWhile p

/-- The cursor behind the characters for which a test holds. -/
def skip (c : Cursor) (p : Char → Bool) : Cursor :=
  c.forward (c.run p).length

def skipSpaces (c : Cursor) : Cursor :=
  c.skip (· == ' ')

/-- A line break at the front, as the character that it counts for: all but the separators of
lines and paragraphs count as a line feed. -/
def takeBreak (c : Cursor) : Option (Char × Cursor) :=
  if c.head = '\r' && c.peek 1 = '\n' then some ('\n', c.forward 2)
  else if c.head = '\u2028' || c.head = '\u2029' then some (c.head, c.next)
  else if isBreak c.head then some ('\n', c.next)
  else none

/-- Whether the text goes on with the given characters. -/
def startsWith (c : Cursor) (s : String) : Bool :=
  s.toList.isPrefixOf c.rest

/-- Whether a line begins here that opens or closes a document: three minus signs or three points,
and then a blank. -/
def atDocumentMark (c : Cursor) : Bool :=
  (c.startsWith "---" || c.startsWith "...") && isBlankOrEnd (c.peek 3)

@[simp] theorem size_next (c : Cursor) : c.next.size = c.size := by
  unfold next
  split <;> rfl

end Cursor

end SchemaBaseline.Yaml
