import SchemaBaseline.Yaml.Token

/-!
# Reading scalars

The three ways to write a scalar. A plain one (`readPlain`) ends before a sign that means
something; a quoted one (`readQuoted`) ends with its quote; a block one (`readBlock`) ends with
its indentation. In all of them a single line break counts as a blank where lines are folded, and
of several the first is dropped.
-/

namespace SchemaBaseline.Yaml

def isBlankOrTab (c : Char) : Bool :=
  c == ' ' || c == '\t'

/-- What a line break and the empty lines behind it stand for in folded text. -/
def foldedBreak (lineBreak : Char) (breaks : List Char) : List Char :=
  (if lineBreak != '\n' then [lineBreak] else if breaks.isEmpty then [' '] else []) ++ breaks

/-! ## Plain scalars -/

/-- Whether a character has a meaning between the brackets of a flow collection. -/
def isFlowSign (c : Char) : Bool :=
  ",[]\x7b\x7d".toList.contains c

/-- The characters of a plain scalar up to the next blank or sign: a colon is one before a
blank. -/
def plainWord (inFlow : Bool) : List Char → List Char
  | [] => []
  | c :: rest =>
    let next := rest.headD '\x00'
    if isBlankOrEnd c || (c == ':' && (isBlankOrEnd next || (inFlow && isFlowSign next))) ||
        (inFlow && (c == '?' || isFlowSign c)) then []
    else c :: plainWord inFlow rest

/-- Further line breaks inside a plain scalar, with the blanks between them. There are none to
give if a document begins or ends here. -/
def plainBreaks : Nat → Cursor → List Char → Option (List Char) × Cursor
  | 0, c, breaks => (some breaks.reverse, c)
  | fuel + 1, c, breaks =>
    if c.head = ' ' then plainBreaks fuel c.next breaks
    else match c.takeBreak with
      | some (b, c) => if c.atDocumentMark then (none, c) else plainBreaks fuel c (b :: breaks)
      | none => (some breaks.reverse, c)

/-- What stands between two words of a plain scalar. -/
structure PlainGap where
  /-- What the gap stands for; nothing if the scalar is over. -/
  text : List Char
  /-- Whether there is a line break in it. -/
  breaks : Bool
  cursor : Cursor

/-- The gap behind a word. -/
def plainGap (c : Cursor) : PlainGap :=
  let blanks := c.run (· == ' ')
  let c := c.skipSpaces
  match c.takeBreak with
  | none => ⟨blanks, false, c⟩
  | some (b, c) =>
    if c.atDocumentMark then ⟨[], true, c⟩
    else match plainBreaks c.size c [] with
      | (none, c) => ⟨[], true, c⟩
      | (some breaks, c) => ⟨foldedBreak b breaks, true, c⟩

/-- A plain scalar from the next word on, which `gap` stands before: its characters, and whether a
line break follows its last word. -/
def plainWords (inFlow : Bool) (indent : Int) :
    Nat → List Char → Bool → Cursor → List Char × Bool × Cursor
  | 0, _, broken, c => ([], broken, c)
  | fuel + 1, gap, broken, c =>
    let word := if c.head = '#' then [] else plainWord inFlow c.rest
    if word.isEmpty then ([], broken, c)
    else
      let g := plainGap (c.forward word.length)
      if g.text.isEmpty || g.cursor.head = '#' ||
          (!inFlow && (g.cursor.column : Int) < indent) then
        (gap ++ word, g.breaks, g.cursor)
      else
        let (more, broken, c) := plainWords inFlow indent fuel g.text g.breaks g.cursor
        (gap ++ word ++ more, broken, c)

/-- A plain scalar inside a block whose indentation is `indent`: its characters, and whether a
line break follows it. -/
def readPlain (inFlow : Bool) (indent : Int) (c : Cursor) : List Char × Bool × Cursor :=
  plainWords inFlow (indent + 1) (c.size + 1) [] false c

/-! ## Quoted scalars -/

/-- The code that a letter behind a backslash stands for. -/
def shortEscape? (c : Char) : Option Nat :=
  match c with
  | '0' => some 0x00
  | 'a' => some 0x07
  | 'b' => some 0x08
  | 't' => some 0x09
  | '\t' => some 0x09
  | 'n' => some 0x0a
  | 'v' => some 0x0b
  | 'f' => some 0x0c
  | 'r' => some 0x0d
  | 'e' => some 0x1b
  | ' ' => some 0x20
  | '"' => some 0x22
  | '\\' => some 0x5c
  | '/' => some 0x2f
  | 'N' => some 0x85
  | '_' => some 0xa0
  | 'L' => some 0x2028
  | 'P' => some 0x2029
  | _ => none

/-- How many hexadecimal digits follow a letter behind a backslash. -/
def longEscape? (c : Char) : Option Nat :=
  match c with
  | 'x' => some 2
  | 'u' => some 4
  | 'U' => some 8
  | _ => none

/-- The value of a hexadecimal digit. -/
def hexDigit? (c : Char) : Option Nat :=
  if '0' ≤ c && c ≤ '9' then some (c.toNat - '0'.toNat)
  else if 'a' ≤ c && c ≤ 'f' then some (c.toNat - 'a'.toNat + 10)
  else if 'A' ≤ c && c ≤ 'F' then some (c.toNat - 'A'.toNat + 10)
  else none

/-- The number that hexadecimal digits write; others count as zero. -/
def hexNumber (cs : List Char) : Nat :=
  cs.foldl (fun n c => 16 * n + (hexDigit? c).getD 0) 0

/-- The first of the next `count` characters that is no hexadecimal digit. -/
def firstNonHex? (c : Cursor) (count : Nat) : Option Char :=
  ((List.range count).map c.peek).find? fun d => (hexDigit? d).isNone

/-- Line breaks inside a quoted scalar, with the blanks around them. -/
def quotedBreaks (start : Mark) : Nat → Cursor → List Char → Except Stop (List Char × Cursor)
  | 0, c, breaks => .ok (breaks.reverse, c)
  | fuel + 1, c, breaks =>
    if c.atDocumentMark then stopDuring .quotedScalar start .documentMark c.mark
    else
      let c := c.skip isBlankOrTab
      match c.takeBreak with
      | some (b, c) => quotedBreaks start fuel c (b :: breaks)
      | none => .ok (breaks.reverse, c)

/-- Why a number is the code of no character. -/
def codeStop {α : Type} (code : Nat) : Except Stop α :=
  .error (.unfit (if code < Nat.pow 2 31 then .noCharacter else .hugeCode))

/-- What an escape stands for; the cursor is behind its backslash. -/
def readEscape (start : Mark) (c : Cursor) : Except Stop (List Nat × Cursor) :=
  match shortEscape? c.head, longEscape? c.head, c.takeBreak with
  | some code, _, _ => .ok ([code], c.next)
  | _, some count, _ =>
    let c := c.next
    match firstNonHex? c count with
    | some found =>
      stopDuring .doubleQuotedScalar start (.expected (.escapeDigits count) found) c.mark
    | none =>
      let code := hexNumber (c.rest.take count)
      if 0x110000 ≤ code then codeStop code else .ok ([code], c.forward count)
  | _, _, some (_, c) => do
    let (breaks, c) ← quotedBreaks start c.size c []
    .ok (codesOf breaks, c)
  | _, _, none => stopDuring .doubleQuotedScalar start (.unknownEscape c.head) c.mark

/-- The gap between two words of a quoted scalar. -/
def quotedGap (start : Mark) (c : Cursor) : Except Stop (List Nat × Cursor) :=
  let blanks := c.run isBlankOrTab
  let c := c.skip isBlankOrTab
  if c.atEnd then stopDuring .quotedScalar start .textEnded c.mark
  else match c.takeBreak with
    | none => .ok (codesOf blanks, c)
    | some (b, c) => do
      let (breaks, c) ← quotedBreaks start c.size c []
      .ok (codesOf (foldedBreak b breaks), c)

/-- The codes of a quoted scalar up to its closing quote; `codes` are those before, last first. -/
def quotedCodes (quote : Char) (start : Mark) :
    Nat → Cursor → List Nat → Except Stop (List Nat × Cursor)
  | 0, c, _ => stopDuring .quotedScalar start .textEnded c.mark
  | fuel + 1, c, codes =>
    let d := c.head
    if d = quote then
      if quote = '\'' && c.peek 1 = '\'' then
        quotedCodes quote start fuel (c.forward 2) (d.toNat :: codes)
      else .ok (codes.reverse, c.next)
    else if quote = '"' && d = '\\' then do
      let (more, c) ← readEscape start c.next
      quotedCodes quote start fuel c (more.reverse ++ codes)
    else if isBlankOrEnd d then do
      let (more, c) ← quotedGap start c
      quotedCodes quote start fuel c (more.reverse ++ codes)
    else quotedCodes quote start fuel c.next (d.toNat :: codes)

/-- A quoted scalar; the cursor is at its opening quote. -/
def readQuoted (c : Cursor) : Except Stop (List Nat × Cursor) :=
  quotedCodes c.head c.mark (c.size + 1) c.next []

/-! ## Block scalars -/

/-- What becomes of the line breaks at the end of a block scalar. -/
inductive Chomping
  /-- One is left. -/
  | clip
  /-- None is left. -/
  | strip
  /-- All are left. -/
  | keep
deriving Repr, DecidableEq

/-- The chomping that a sign asks for. -/
def chomping? (c : Char) : Option Chomping :=
  if c = '+' then some .keep else if c = '-' then some .strip else none

/-- The indentation that a digit asks for. -/
def readIndicator (start : Mark) (c : Cursor) : Except Stop (Option Nat × Cursor) :=
  if c.head = '0' then stopDuring .blockScalar start .zeroIndentation c.mark
  else if c.head.isDigit then .ok (some (c.head.toNat - '0'.toNat), c.next)
  else .ok (none, c)

/-- The signs behind the one that opens a block scalar: chomping and indentation in any order. -/
def readIndicators (start : Mark) (c : Cursor) :
    Except Stop (Chomping × Option Nat × Cursor) := do
  let early := chomping? c.head
  let (indentation, c) ← readIndicator start (if early.isSome then c.next else c)
  let late := if early.isNone && indentation.isSome then chomping? c.head else none
  let c := if late.isSome then c.next else c
  if isSpaceOrEnd c.head then .ok ((early.or late).getD .clip, indentation, c)
  else stopDuring .blockScalar start (.expected .scalarIndicators c.head) c.mark

/-- The rest of a line that holds nothing but blanks and perhaps a comment. -/
def skipLineRest (activity : Activity) (start : Mark) (c : Cursor) : Except Stop Cursor :=
  let c := c.skipSpaces
  let c := if c.head = '#' then c.skip (!isLineEnd ·) else c
  if isLineEnd c.head then .ok ((c.takeBreak.map Prod.snd).getD c)
  else stopDuring activity start (.expected .lineEnd c.head) c.mark

/-- The cursor behind blanks, but not beyond a column. -/
def skipSpacesTo (indent : Nat) (c : Cursor) : Cursor :=
  c.forward (min (c.run (· == ' ')).length (indent - c.column))

/-- Empty lines at the beginning of a block scalar, and the widest indentation among them and the
line behind them. -/
def findIndentation : Nat → Cursor → List Char → Nat → List Char × Nat × Cursor
  | 0, c, breaks, widest => (breaks.reverse, widest, c)
  | fuel + 1, c, breaks, widest =>
    if c.head = ' ' then findIndentation fuel c.next breaks (max widest c.next.column)
    else match c.takeBreak with
      | some (b, c) => findIndentation fuel c (b :: breaks) widest
      | none => (breaks.reverse, widest, c)

/-- Empty lines inside a block scalar, up to the indentation of the line behind them. -/
def blockBreaks (indent : Nat) : Nat → Cursor → List Char → List Char × Cursor
  | 0, c, breaks => (breaks.reverse, c)
  | fuel + 1, c, breaks =>
    let c := skipSpacesTo indent c
    match c.takeBreak with
    | some (b, c) => blockBreaks indent fuel c (b :: breaks)
    | none => (breaks.reverse, c)

/-- The lines of a block scalar. -/
structure BlockText where
  text : List Char
  /-- The break that ends the last line. -/
  lastBreak : List Char
  /-- The empty lines behind it. -/
  breaks : List Char
  cursor : Cursor

/-- The lines of a block scalar from the next one on; `breaks` are the empty lines before it. -/
def blockLines (folded : Bool) (indent : Nat) : Nat → List Char → List Char → Cursor → BlockText
  | 0, lastBreak, breaks, c => ⟨[], lastBreak, breaks, c⟩
  | fuel + 1, lastBreak, breaks, c =>
    if c.column != indent || c.atEnd then ⟨[], lastBreak, breaks, c⟩
    else
      let line := c.run (!isLineEnd ·)
      let opensBlank := isBlankOrTab c.head
      let c := c.skip (!isLineEnd ·)
      let ending := c.takeBreak
      let lineBreak := (ending.map fun found => [found.1]).getD []
      let c := (ending.map Prod.snd).getD c
      let (inner, c) := blockBreaks indent c.size c []
      let joint :=
        if c.column != indent || c.atEnd then []
        else if folded && lineBreak == ['\n'] && !opensBlank && !isBlankOrTab c.head then
          if inner.isEmpty then [' '] else []
        else lineBreak
      let rest := blockLines folded indent fuel lineBreak inner c
      { rest with text := breaks ++ line ++ joint ++ rest.text }

/-- A block scalar inside a block whose indentation is `indent`; the cursor is at the sign that
opens it. -/
def readBlock (indent : Int) (c : Cursor) : Except Stop (List Char × Cursor) := do
  let start := c.mark
  let folded := c.head = '>'
  let (chomping, indentation, c) ← readIndicators start c.next
  let c ← skipLineRest .blockScalar start c
  let least := (max (indent + 1) 1).toNat
  let (breaks, indent, c) :=
    match indentation with
    | some more =>
      let indent := least + more - 1
      let (breaks, c) := blockBreaks indent c.size c []
      (breaks, indent, c)
    | none =>
      let (breaks, widest, c) := findIndentation c.size c [] 0
      (breaks, max least widest, c)
  let found := blockLines folded indent (c.size + 1) [] breaks c
  .ok (found.text ++ (if chomping = .strip then [] else found.lastBreak) ++
    (if chomping = .keep then found.breaks else []), found.cursor)

end SchemaBaseline.Yaml
