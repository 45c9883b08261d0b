import SchemaBaseline.Yaml.Token.Name

/-!
# The tokens of a text

`tokensOf` cuts a text into tokens. Blocks are told by indentation: a line that is indented
further than its block opens a block, a line that is indented less closes blocks. That a scalar is
the name of an entry is known only at the colon behind it, so a `Candidate` is kept for each open
collection, and the token that announces the name is put before the candidate when the colon
comes.

If the text stops being YAML, the tokens before that place are given together with the reason. A
token is given only if no announcement can come before it any more.
-/

namespace SchemaBaseline.Yaml

/-- Something that may turn out to be a name: the number of its first token, whether nothing else
can stand in its place, and where it begins. -/
structure Candidate where
  number : Nat
  required : Bool
  mark : Mark

/-- A name and its colon are at most this many characters apart. -/
def candidateReach : Nat := 1024

/-- What is known while a text is cut into tokens. -/
structure Lexer where
  cursor : Cursor
  /-- The tokens so far, last first. -/
  tokens : List Placed
  /-- How many tokens there are. -/
  count : Nat
  /-- The indentation of the innermost block; `-1` if there is none. -/
  indent : Int
  /-- The indentations of the blocks around it, innermost first. -/
  outer : List Int
  /-- How many flow collections are open. -/
  flow : Nat
  /-- Whether a name may begin here. -/
  nameAllowed : Bool
  /-- The candidates by the number of flow collections that are open around them. -/
  candidates : List (Nat × Candidate)
  finished : Bool

namespace Lexer

/-- The beginning of a text. -/
def start (cs : List Char) : Lexer :=
  ⟨Cursor.start cs, [], 0, -1, [], 0, true, [], false⟩

def mark (x : Lexer) : Mark :=
  x.cursor.mark

/-- Whether a flow collection is open. -/
def inFlow (x : Lexer) : Bool :=
  x.flow != 0

/-- Adds a token without characters. -/
def emit (x : Lexer) (token : Token) : Lexer :=
  { x with tokens := ⟨token, x.mark, x.mark⟩ :: x.tokens, count := x.count + 1 }

/-- Adds a token that reaches up to a cursor, and goes on there. -/
def emitTo (x : Lexer) (token : Token) (c : Cursor) : Lexer :=
  { x with tokens := ⟨token, x.mark, c.mark⟩ :: x.tokens, count := x.count + 1, cursor := c }

/-- Adds a token of the next `n` characters. -/
def emitNext (x : Lexer) (token : Token) (n : Nat) : Lexer :=
  x.emitTo token (x.cursor.forward n)

/-- Puts a token before the one with a number. -/
def insertAt (x : Lexer) (number : Nat) (token : Token) (mark : Mark) : Lexer :=
  let later := x.count - number
  { x with
    tokens := x.tokens.take later ++ ⟨token, mark, mark⟩ :: x.tokens.drop later
    count := x.count + 1 }

/-! ## Candidates -/

/-- A required candidate whose colon does not come. -/
def missingColon {α : Type} (x : Lexer) (candidate : Candidate) : Except Stop α :=
  stopDuring .simpleKey candidate.mark .missingColon x.mark

/-- Whether a candidate's colon cannot come any more: it has to be on the same line, and near
enough. -/
def isStale (x : Lexer) (candidate : Candidate) : Bool :=
  candidate.mark.line != x.mark.line || candidateReach < x.mark.index - candidate.mark.index

/-- Drops the candidates whose colon cannot come any more. -/
def dropStale (x : Lexer) : Except Stop Lexer :=
  match x.candidates.find? fun entry => x.isStale entry.2 && entry.2.required with
  | some (_, candidate) => x.missingColon candidate
  | none => .ok { x with candidates := x.candidates.filter fun entry => !x.isStale entry.2 }

/-- Drops the candidate of the innermost collection. -/
def dropCandidate (x : Lexer) : Except Stop Lexer :=
  match x.candidates.lookup x.flow with
  | none => .ok x
  | some candidate =>
    if candidate.required then x.missingColon candidate
    else .ok { x with candidates := x.candidates.filter fun entry => entry.1 != x.flow }

/-- What begins here may be a name, if names are allowed. -/
def addCandidate (x : Lexer) : Except Stop Lexer :=
  if x.nameAllowed then do
    let required := !x.inFlow && x.indent == (x.cursor.column : Int)
    let x ← x.dropCandidate
    .ok { x with candidates := (x.flow, ⟨x.count, required, x.mark⟩) :: x.candidates }
  else .ok x

/-- How many tokens can be given away: those before the first candidate. -/
def settled (x : Lexer) : Nat :=
  x.candidates.foldl (fun least entry => min least entry.2.number) x.count

/-! ## Blocks -/

/-- Closes the blocks that are indented further than a column, the innermost of `outer` first. -/
def closeBlocks (x : Lexer) (column : Int) : List Int → Lexer
  | [] => x
  | around :: outer =>
    if column < x.indent then
      closeBlocks { x.emit .blockEnd with indent := around, outer := outer } column outer
    else x

/-- Closes the blocks that are indented further than a column. Flow collections know no
indentation. -/
def unwind (x : Lexer) (column : Int) : Lexer :=
  if x.inFlow then x else x.closeBlocks column x.outer

/-- Opens a block at a column, if that is further in than the innermost one. -/
def openBlock (x : Lexer) (column : Nat) : Option Lexer :=
  if x.indent < column then some { x with indent := column, outer := x.indent :: x.outer }
  else none

/-- Opens a block here, if there is none at this column; its first token is added. -/
def beginBlock (x : Lexer) (token : Token) : Lexer :=
  match x.openBlock x.cursor.column with
  | some opened => opened.emit token
  | none => x

/-! ## One token -/

/-- Skips blanks, comments and empty lines. A name may begin on a new line. -/
def skipBlanks : Nat → Bool → Bool → Cursor → Bool × Cursor
  | 0, _, allowed, c => (allowed, c)
  | fuel + 1, inFlow, allowed, c =>
    let c := c.skipSpaces
    let c := if c.head = '#' then c.skip (!isLineEnd ·) else c
    match c.takeBreak with
    | some (_, c) => skipBlanks fuel inFlow (allowed || !inFlow) c
    | none => (allowed, c)

/-- Goes on to the next token. A byte-order mark at the beginning is skipped. -/
def skipToToken (x : Lexer) : Lexer :=
  let c := if x.mark.index = 0 && x.cursor.head = '\ufeff' then x.cursor.next else x.cursor
  let (allowed, c) := skipBlanks (c.size + 1) x.inFlow x.nameAllowed c
  { x with cursor := c, nameAllowed := allowed }

/-- The end of the text closes everything. -/
def readEnd (x : Lexer) : Except Stop Lexer := do
  let x ← (x.unwind (-1)).dropCandidate
  .ok { x.emit .streamEnd with nameAllowed := false, candidates := [], finished := true }

def lexDirective (x : Lexer) : Except Stop Lexer := do
  let x ← (x.unwind (-1)).dropCandidate
  let (directive, c) ← readDirective x.cursor
  .ok { x.emitTo (.directive directive) c with nameAllowed := false }

/-- The mark at which a document begins or ends. -/
def lexDocumentMark (x : Lexer) (token : Token) : Except Stop Lexer := do
  let x ← (x.unwind (-1)).dropCandidate
  .ok { x.emitNext token 3 with nameAllowed := false }

/-- The bracket that opens a flow collection, which may itself be a name. -/
def lexFlowStart (x : Lexer) (token : Token) : Except Stop Lexer := do
  let x ← x.addCandidate
  .ok { x.emitNext token 1 with flow := x.flow + 1, nameAllowed := true }

/-- The bracket that closes a flow collection. -/
def lexFlowEnd (x : Lexer) (token : Token) : Except Stop Lexer := do
  let x ← x.dropCandidate
  .ok { x.emitNext token 1 with flow := x.flow - 1, nameAllowed := false }

/-- The comma between the members of a flow collection. -/
def lexFlowEntry (x : Lexer) : Except Stop Lexer := do
  let x ← x.dropCandidate
  .ok { x.emitNext .flowEntry 1 with nameAllowed := true }

/-- The minus sign before an item. -/
def lexBlockEntry (x : Lexer) : Except Stop Lexer :=
  if !x.inFlow && !x.nameAllowed then stopAt .sequenceNotAllowed x.mark
  else do
    let x := if x.inFlow then x else x.beginBlock .blockSequenceStart
    let x ← x.dropCandidate
    .ok { x.emitNext .blockEntry 1 with nameAllowed := true }

/-- The question mark before a name. -/
def lexKey (x : Lexer) : Except Stop Lexer :=
  if !x.inFlow && !x.nameAllowed then stopAt .keyNotAllowed x.mark
  else do
    let x := if x.inFlow then x else x.beginBlock .blockMappingStart
    let x ← x.dropCandidate
    .ok { x.emitNext .key 1 with nameAllowed := !x.inFlow }

/-- The colon behind a name. The name is announced before its first token, and so is the block
that it opens. -/
def lexValue (x : Lexer) : Except Stop Lexer :=
  match x.candidates.lookup x.flow with
  | some name =>
    let x := { x with candidates := x.candidates.filter fun entry => entry.1 != x.flow }
    let x := x.insertAt name.number .key name.mark
    let x :=
      if x.inFlow then x
      else match x.openBlock name.mark.column with
        | some opened => opened.insertAt name.number .blockMappingStart name.mark
        | none => x
    .ok { x.emitNext .value 1 with nameAllowed := false }
  | none =>
    if !x.inFlow && !x.nameAllowed then stopAt .valueNotAllowed x.mark
    else do
      let x := if x.inFlow then x else x.beginBlock .blockMappingStart
      let allowed := !x.inFlow
      let x ← x.dropCandidate
      .ok { x.emitNext .value 1 with nameAllowed := allowed }

/-- An alias, an anchor or a tag, with which a name may begin. -/
def lexProperty (x : Lexer) (read : Cursor → Except Stop (Token × Cursor)) :
    Except Stop Lexer := do
  let x ← x.addCandidate
  let (token, c) ← read x.cursor
  .ok { x.emitTo token c with nameAllowed := false }

/-- A block scalar, which is never a name. -/
def lexBlockScalar (x : Lexer) : Except Stop Lexer := do
  let x ← x.dropCandidate
  let (cs, c) ← readBlock x.indent x.cursor
  .ok { x.emitTo (.scalar (codesOf cs) false) c with nameAllowed := true }

/-- A quoted scalar. -/
def lexQuoted (x : Lexer) : Except Stop Lexer := do
  let x ← x.addCandidate
  let (codes, c) ← readQuoted x.cursor
  .ok { x.emitTo (.scalar codes false) c with nameAllowed := false }

/-- A plain scalar. A name may follow it on a new line. -/
def lexPlain (x : Lexer) : Except Stop Lexer := do
  let x ← x.addCandidate
  let (cs, broken, c) := readPlain x.inFlow x.indent x.cursor
  .ok { x.emitTo (.scalar (codesOf cs) true) c with nameAllowed := broken }

/-- The tab and the signs that are kept for later use begin nothing. -/
def beginsNothing (c : Char) : Bool :=
  "\t@`".toList.contains c

/-- The token that begins with the character ahead. -/
def lexHead (x : Lexer) : Except Stop Lexer :=
  let blankNext := isBlankOrEnd (x.cursor.peek 1)
  let isMark := x.cursor.column = 0 && x.cursor.atDocumentMark
  match x.cursor.head with
  | '\x00' => x.readEnd
  | '%' => if x.cursor.column = 0 then x.lexDirective else stopHere x
  | '[' => x.lexFlowStart .flowSequenceStart
  | '\x7b' => x.lexFlowStart .flowMappingStart
  | ']' => x.lexFlowEnd .flowSequenceEnd
  | '\x7d' => x.lexFlowEnd .flowMappingEnd
  | ',' => x.lexFlowEntry
  | '-' =>
    if isMark then x.lexDocumentMark .documentStart
    else if blankNext then x.lexBlockEntry
    else x.lexPlain
  | '.' => if isMark then x.lexDocumentMark .documentEnd else x.lexPlain
  | '?' => if x.inFlow || blankNext then x.lexKey else x.lexPlain
  | ':' => if x.inFlow || blankNext then x.lexValue else x.lexPlain
  | '*' =>
    x.lexProperty fun c => (readReference .alias c).map fun found => (.alias found.1, found.2)
  | '&' =>
    x.lexProperty fun c => (readReference .anchor c).map fun found => (.anchor found.1, found.2)
  | '!' => x.lexProperty readTag
  | '|' => if x.inFlow then stopHere x else x.lexBlockScalar
  | '>' => if x.inFlow then stopHere x else x.lexBlockScalar
  | '\'' => x.lexQuoted
  | '"' => x.lexQuoted
  | c => if beginsNothing c then stopHere x else x.lexPlain
where
  /-- Nothing begins with the character ahead. -/
  stopHere (x : Lexer) : Except Stop Lexer :=
    .error (.misread ⟨some .nextToken, none, .noTokenStart x.cursor.head, x.mark⟩)

/-- The next token, and the tokens that the indentation tells. -/
def lexToken (x : Lexer) : Except Stop Lexer := do
  let x ← x.skipToToken.dropStale
  (x.unwind x.cursor.column).lexHead

end Lexer

/-! ## All tokens -/

/-- The tokens of a text, and why there are no more if the text does not end behind them.
`settled` counts the tokens that can be given away so far. -/
def lex : Nat → Nat → Lexer → List Placed × Option Stop
  | 0, _, x => (x.tokens.reverse, none)
  | fuel + 1, settled, x =>
    match x.lexToken with
    | .error stop => (x.tokens.reverse.take settled, some stop)
    | .ok x =>
      if x.finished then (x.tokens.reverse, none)
      else match x.dropStale with
        | .error stop => (x.tokens.reverse.take settled, some stop)
        | .ok x => lex fuel x.settled x

/-- The tokens of a text. Every token but the last takes at least one character. -/
def tokensOf (cs : List Char) : List Placed × Option Stop :=
  lex (cs.length + 1) 0 (Lexer.start cs)

end SchemaBaseline.Yaml
