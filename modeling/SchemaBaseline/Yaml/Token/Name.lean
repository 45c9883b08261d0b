import SchemaBaseline.Yaml.Token.Scalar

/-!
# Reading names

Anchors and aliases (`readReference`), tags (`readTag`) and the directives that say what tags mean
(`readDirective`).
-/

namespace SchemaBaseline.Yaml

/-- The name of an anchor or an alias; the cursor is at the sign before it. -/
def readReference (activity : Activity) (c : Cursor) : Except Stop (String × Cursor) :=
  let start := c.mark
  let c := c.next
  let name := c.run isNameChar
  let behind := c.forward name.length
  let found := behind.head
  if name.isEmpty || !(isBlankOrEnd found || "?:,]\x7d%@`".toList.contains found) then
    stopDuring activity start (.expected .nameChar found) behind.mark
  else .ok (String.ofList name, behind)

/-! ## Tags -/

/-- Whether a character may stand in a tag. -/
def isUriChar (c : Char) : Bool :=
  c.isAlphanum || "-;/?:@&=+$,_.!~*'()[]%".toList.contains c

/-- The bytes of escapes one behind the other. -/
def uriBytes (activity : Activity) (start : Mark) :
    Nat → Cursor → List UInt8 → Except Stop (List UInt8 × Cursor)
  | 0, c, bytes => .ok (bytes.reverse, c)
  | fuel + 1, c, bytes =>
    if c.head = '%' then
      let c := c.next
      match firstNonHex? c 2 with
      | some found => stopDuring activity start (.expected .uriEscape found) c.mark
      | none =>
        uriBytes activity start fuel (c.forward 2)
          (UInt8.ofNat (hexNumber (c.rest.take 2)) :: bytes)
    else .ok (bytes.reverse, c)

/-- The characters of a tag; escapes write the bytes of characters. -/
def uriChars (activity : Activity) (start : Mark) :
    Nat → Cursor → List Char → Except Stop (List Char × Cursor)
  | 0, c, cs => .ok (cs.reverse, c)
  | fuel + 1, c, cs =>
    if c.head = '%' then
      match uriBytes activity start c.size c [] with
      | .error e => .error e
      | .ok (bytes, behind) =>
        match Text.Utf8.decode bytes with
        | .error e => stopDuring activity start (.undecodableUri e) c.mark
        | .ok s => uriChars activity start fuel behind (s.toList.reverse ++ cs)
    else if isUriChar c.head then uriChars activity start fuel c.next (c.head :: cs)
    else .ok (cs.reverse, c)

/-- The part of a tag behind its handle, which must not be empty. The activities are those for an
escape and for no character at all. -/
def readUri (escaping reading : Activity) (start : Mark) (c : Cursor) :
    Except Stop (String × Cursor) := do
  let (cs, behind) ← uriChars escaping start c.size c []
  if behind.mark.index = c.mark.index then
    stopDuring reading start (.expected .uri behind.head) behind.mark
  else .ok (String.ofList cs, behind)

/-- A handle: an exclamation mark alone, or a name between two of them. -/
def readHandle (activity : Activity) (start : Mark) (c : Cursor) :
    Except Stop (String × Cursor) :=
  if c.head != '!' then stopDuring activity start (.expected .exclamation c.head) c.mark
  else
    let name := c.next.run isNameChar
    let behind := c.next.forward name.length
    if name.isEmpty && behind.head = ' ' then .ok ("!", behind)
    else if behind.head != '!' then
      stopDuring activity start (.expected .exclamation behind.head) behind.mark
    else .ok (String.ofList ('!' :: name ++ ['!']), behind.next)

/-- Whether a second exclamation mark follows before the next blank. -/
def hasHandle (c : Cursor) : Bool :=
  (c.next.run (!isSpaceOrEnd ·)).contains '!'

/-- A tag; the cursor is at its exclamation mark. -/
def readTag (c : Cursor) : Except Stop (Token × Cursor) := do
  let start := c.mark
  let ahead := c.peek 1
  let (tag, c) ←
    if ahead = '<' then do
      let (suffix, c) ← readUri .tag .tagUri start (c.forward 2)
      if c.head = '>' then pure (Token.tag none suffix, c.next)
      else stopDuring .tagUri start (.expected .closingAngle c.head) c.mark
    else if isBlankOrEnd ahead then pure (Token.tag none "!", c.next)
    else do
      let (handle, c) ← if hasHandle c then readHandle .tag start c else pure ("!", c.next)
      let (suffix, c) ← readUri .tag .tagUri start c
      pure (Token.tag (some handle) suffix, c)
  if isSpaceOrEnd c.head then .ok (tag, c)
  else stopDuring .tag start (.expected .blank c.head) c.mark

/-! ## Directives -/

def readDirectiveNumber (start : Mark) (c : Cursor) : Except Stop (Nat × Cursor) :=
  let digits := c.run Char.isDigit
  if digits.isEmpty then stopDuring .directive start (.expected .digit c.head) c.mark
  else .ok (digits.foldl (fun n d => 10 * n + (d.toNat - '0'.toNat)) 0, c.forward digits.length)

/-- The two numbers of a version. -/
def readVersion (start : Mark) (c : Cursor) : Except Stop (Directive × Cursor) := do
  let (major, c) ← readDirectiveNumber start c.skipSpaces
  if c.head != '.' then stopDuring .directive start (.expected .digitOrPoint c.head) c.mark
  else
    let (_, c) ← readDirectiveNumber start c.next
    if isSpaceOrEnd c.head then .ok (.version major, c)
    else stopDuring .directive start (.expected .digitOrBlank c.head) c.mark

/-- A handle and what it stands for. -/
def readReplacement (start : Mark) (c : Cursor) : Except Stop (Directive × Cursor) := do
  let (handle, c) ← readHandle .directive start c.skipSpaces
  if c.head != ' ' then stopDuring .directive start (.expected .blank c.head) c.mark
  else
    let (replacement, c) ← readUri .directive .directiveUri start c.skipSpaces
    if isSpaceOrEnd c.head then .ok (.handle handle replacement, c)
    else stopDuring .directive start (.expected .blank c.head) c.mark

/-- A directive up to the end of its line; the cursor is at its percent sign. -/
def readDirective (c : Cursor) : Except Stop (Directive × Cursor) := do
  let start := c.mark
  let c := c.next
  let name := c.run isNameChar
  let c := c.forward name.length
  if name.isEmpty || !isSpaceOrEnd c.head then
    stopDuring .directive start (.expected .nameChar c.head) c.mark
  else
    let (directive, c) ←
      match String.ofList name with
      | "YAML" => readVersion start c
      | "TAG" => readReplacement start c
      | _ => pure (.reserved, c.skip (!isLineEnd ·))
    let c ← skipLineRest .directive start c
    .ok (directive, c)

end SchemaBaseline.Yaml
