import SchemaBaseline.Yaml.Node
import SchemaBaseline.Yaml.Token.Stream

/-!
# Nodes from tokens

`Node.ofTokens` builds the node of the one document that a list of tokens holds. `readNode` reads
a node with its properties; the functions beside it read the members of collections, in blocks and
between brackets. All of them take the tokens from a `Feed`, which also knows the anchors so far
and what the handles of tags stand for.
-/

namespace SchemaBaseline.Yaml

/-- What an anchor stands for. -/
inductive Anchored
  | whole (n : Node)
  /-- A collection whose members are still being read. -/
  | unfinished (kind : NodeKind) (mark : Mark)

/-- Where the node of an anchor begins. -/
def Anchored.mark : Anchored → Mark
  | .whole n => n.mark
  | .unfinished _ m => m

/-- The tokens that are left, and what the ones before have told. -/
structure Feed where
  tokens : List Placed
  /-- Why there are no further tokens, if the text does not end behind them. -/
  stop : Option Stop
  /-- What the handles of tags stand for. -/
  handles : List (String × String)
  anchors : List (String × Anchored)

namespace Feed

/-- The next token. Behind the last one the text ends. -/
def peek (f : Feed) : Except Stop Placed :=
  match f.tokens, f.stop with
  | t :: _, _ => .ok t
  | [], some stop => .error stop
  | [], none => .ok ⟨.streamEnd, default, default⟩

/-- The tokens behind the next one. -/
def advance (f : Feed) : Feed :=
  { f with tokens := f.tokens.tail }

/-- Names a node. -/
def setAnchor (f : Feed) (anchor : Option String) (a : Anchored) : Feed :=
  match anchor with
  | none => f
  | some name => { f with anchors := (name, a) :: f.anchors.filter fun entry => entry.1 != name }

end Feed

/-- The handles that every document knows. -/
def commonHandles : List (String × String) := [("!", "!"), ("!!", commonTags)]

/-! ## Properties -/

/-- The anchor and the tag of a node, and where they begin. -/
structure Properties where
  anchor : Option String
  /-- The full name of the tag. -/
  tag : Option String
  mark : Option Mark

/-- The full name of a tag. -/
def tagName (f : Feed) (start tagMark : Mark) (handle : Option String) (suffix : String) :
    Except Stop String :=
  match handle with
  | none => .ok suffix
  | some handle =>
    match f.handles.lookup handle with
    | some replacement => .ok (replacement ++ suffix)
    | none => stopDuring .node start (.unknownHandle handle) tagMark

/-- An anchor and a tag in any order, each of them at most once. -/
def readProperties (f : Feed) : Except Stop (Properties × Feed) := do
  let first ← f.peek
  match first.token with
  | .anchor name =>
    let f := f.advance
    let second ← f.peek
    match second.token with
    | .tag handle suffix =>
      .ok (⟨some name, some (← tagName f first.start second.start handle suffix),
        some first.start⟩, f.advance)
    | _ => .ok (⟨some name, none, some first.start⟩, f)
  | .tag handle suffix =>
    let f := f.advance
    let second ← f.peek
    match second.token with
    | .anchor name =>
      .ok (⟨some name, some (← tagName f first.start first.start handle suffix),
        some first.start⟩, f.advance)
    | _ =>
      .ok (⟨none, some (← tagName f first.start first.start handle suffix), some first.start⟩, f)
  | _ => .ok (⟨none, none, none⟩, f)

/-- The tag of a node whose tag is not given, or only that it has none. -/
def Properties.tagOr (p : Properties) (usual : Tag) : Tag :=
  match p.tag with
  | none => usual
  | some name => if name = "!" then usual else Tag.ofName name

/-- The tag of a scalar: a plain one without a tag has that of its form, and so has any for which
none is asked. -/
def Properties.scalarTag (p : Properties) (codes : List Nat) (isPlain : Bool) : Tag :=
  let byForm := Tag.ofPlain (codes.map Char.ofNat)
  match p.tag with
  | none => if isPlain then byForm else .text
  | some name => if name = "!" then byForm else Tag.ofName name

/-- An anchor may be used only once. -/
def checkAnchor (f : Feed) (anchor : Option String) (mark : Mark) : Except Stop Unit :=
  match anchor with
  | none => .ok ()
  | some name =>
    match f.anchors.lookup name with
    | none => .ok ()
    | some first => stopDuring (.duplicateAnchor name) first.mark .secondAnchor mark

/-- The node that an alias stands for. -/
def readAlias (f : Feed) (name : String) (mark : Mark) : Except Stop (Node × Feed) :=
  match f.anchors.lookup name with
  | none => stopAt (.unknownAlias name) mark
  | some (.whole n) => .ok (n, f.advance)
  | some (.unfinished kind m) => .ok (.enclosing name kind m, f.advance)

/-- Names a node that has been read. -/
def finish (anchor : Option String) (n : Node) (f : Feed) : Node × Feed :=
  match anchor with
  | none => (n, f)
  | some name =>
    let n := n.unroll name n
    (n, f.setAnchor anchor (.whole n))

/-! ## Nodes -/

/-- How a member of a block or of a flow collection may look. -/
inductive Place
  /-- In a block. -/
  | block
  /-- In a block, behind a name: the items of a sequence need no indentation. -/
  | behindName
  /-- Between brackets. -/
  | flow
deriving Repr, DecidableEq

mutual

def readNode : Nat → Place → Feed → Except Stop (Node × Feed)
  | 0, _, _ => stopAt .textEnded default
  | fuel + 1, place, f => do
    let first ← f.peek
    match first.token with
    | .alias name => readAlias f name first.start
    | _ => do
      let (p, f) ← readProperties f
      let t ← f.peek
      let mark := p.mark.getD t.start
      readContent fuel place p mark t f

/-- What follows the properties of a node, which begins at `mark`; `t` is the next token. -/
def readContent : Nat → Place → Properties → Mark → Placed → Feed → Except Stop (Node × Feed)
  | 0, _, _, _, _, _ => stopAt .textEnded default
  | fuel + 1, place, p, mark, t, f =>
    let opened :=
      fun kind => (checkAnchor f p.anchor mark).map fun _ =>
        f.setAnchor p.anchor (.unfinished kind mark)
    match t.token, place with
    | .blockEntry, .behindName => do
      let (items, f) ← readBareItems fuel (← opened .sequence)
      .ok (finish p.anchor (.sequence (p.tagOr .sequence) items mark) f)
    | .scalar codes isPlain, _ => do
      checkAnchor f p.anchor mark
      .ok (finish p.anchor (.scalar (p.scalarTag codes isPlain) codes mark) f.advance)
    | .flowSequenceStart, _ => do
      let (items, f) ← readFlowItems fuel t.start true (← opened .sequence).advance
      .ok (finish p.anchor (.sequence (p.tagOr .sequence) items mark) f)
    | .flowMappingStart, _ => do
      let (entries, f) ← readFlowEntries fuel t.start true (← opened .mapping).advance
      .ok (finish p.anchor (.mapping (p.tagOr .mapping) entries mark) f)
    | token, _ =>
      if place != .flow && token == .blockSequenceStart then do
        let (items, f) ← readItems fuel t.start (← opened .sequence).advance
        .ok (finish p.anchor (.sequence (p.tagOr .sequence) items mark) f)
      else if place != .flow && token == .blockMappingStart then do
        let (entries, f) ← readEntries fuel t.start (← opened .mapping).advance
        .ok (finish p.anchor (.mapping (p.tagOr .mapping) entries mark) f)
      else if p.anchor.isSome || p.tag.isSome then do
        checkAnchor f p.anchor mark
        .ok (finish p.anchor (.scalar (p.scalarTag [] true) [] mark) f)
      else
        stopDuring (if place = .flow then .flowNode else .blockNode) mark
          (.noContent t.kind) t.start

/-- A node, unless the next token is one of those that tell that there is none; then it is absent,
at the given place. -/
def readMember : Nat → Place → List TokenKind → Mark → Feed → Except Stop (Node × Feed)
  | 0, _, _, _, _ => stopAt .textEnded default
  | fuel + 1, place, closing, mark, f => do
    let t ← f.peek
    if closing.contains t.kind then .ok (Node.absent mark, f) else readNode fuel place f

/-- The value behind a name, which is absent if no colon follows. -/
def readValue : Nat → Place → List TokenKind → Feed → Except Stop (Node × Feed)
  | 0, _, _, _ => stopAt .textEnded default
  | fuel + 1, place, closing, f => do
    let t ← f.peek
    if t.kind = .value then readMember fuel place closing t.stop f.advance
    else .ok (Node.absent t.start, f)

/-- The items of a block up to its end. -/
def readItems : Nat → Mark → Feed → Except Stop (List Node × Feed)
  | 0, _, _ => stopAt .textEnded default
  | fuel + 1, start, f => do
    let t ← f.peek
    match t.kind with
    | .blockEntry =>
      let (item, f) ← readMember fuel .block [.blockEntry, .blockEnd] t.stop f.advance
      let (items, f) ← readItems fuel start f
      .ok (item :: items, f)
    | .blockEnd => .ok ([], f.advance)
    | found => stopDuring .blockCollection start (.noBlockEnd found) t.start

/-- Items that are not indented further than the name before them. -/
def readBareItems : Nat → Feed → Except Stop (List Node × Feed)
  | 0, _ => stopAt .textEnded default
  | fuel + 1, f => do
    let t ← f.peek
    if t.kind = .blockEntry then
      let (item, f) ← readMember fuel .block
          [.blockEntry, .key, .value, .blockEnd] t.stop f.advance
      let (items, f) ← readBareItems fuel f
      .ok (item :: items, f)
    else .ok ([], f)

/-- The entries of a block up to its end. -/
def readEntries : Nat → Mark → Feed → Except Stop (List (Node × Node) × Feed)
  | 0, _, _ => stopAt .textEnded default
  | fuel + 1, start, f => do
    let t ← f.peek
    match t.kind with
    | .key =>
      let closing := [.key, .value, .blockEnd]
      let (name, f) ← readMember fuel .behindName closing t.stop f.advance
      let (v, f) ← readValue fuel .behindName closing f
      let (entries, f) ← readEntries fuel start f
      .ok ((name, v) :: entries, f)
    | .blockEnd => .ok ([], f.advance)
    | found => stopDuring .blockMapping start (.noBlockEnd found) t.start

/-- The items between brackets up to the closing one. An item may be a name with a value. -/
def readFlowItems : Nat → Mark → Bool → Feed → Except Stop (List Node × Feed)
  | 0, _, _, _ => stopAt .textEnded default
  | fuel + 1, start, isFirst, f => do
    let t ← f.peek
    if t.kind = .flowSequenceEnd then .ok ([], f.advance)
    else if !isFirst && t.kind != .flowEntry then
      stopDuring .flowSequence start (.noSequenceComma t.kind) t.start
    else
      let f := if isFirst then f else f.advance
      let t ← f.peek
      match t.kind with
      | .flowSequenceEnd => .ok ([], f.advance)
      | .key =>
        let (name, f) ← readMember fuel .flow
            [.value, .flowEntry, .flowSequenceEnd] t.stop f.advance
        let (v, f) ← readValue fuel .flow [.flowEntry, .flowSequenceEnd] f
        let (items, f) ← readFlowItems fuel start false f
        .ok (.mapping .mapping [(name, v)] t.start :: items, f)
      | _ =>
        let (item, f) ← readNode fuel .flow f
        let (items, f) ← readFlowItems fuel start false f
        .ok (item :: items, f)

/-- The entries between braces up to the closing one. A node that is not announced as a name has
no value. -/
def readFlowEntries : Nat → Mark → Bool → Feed → Except Stop (List (Node × Node) × Feed)
  | 0, _, _, _ => stopAt .textEnded default
  | fuel + 1, start, isFirst, f => do
    let t ← f.peek
    if t.kind = .flowMappingEnd then .ok ([], f.advance)
    else if !isFirst && t.kind != .flowEntry then
      stopDuring .flowMapping start (.noMappingComma t.kind) t.start
    else
      let f := if isFirst then f else f.advance
      let t ← f.peek
      match t.kind with
      | .flowMappingEnd => .ok ([], f.advance)
      | .key =>
        let (name, f) ← readMember fuel .flow
            [.value, .flowEntry, .flowMappingEnd] t.stop f.advance
        let (v, f) ← readValue fuel .flow [.flowEntry, .flowMappingEnd] f
        let (entries, f) ← readFlowEntries fuel start false f
        .ok ((name, v) :: entries, f)
      | _ =>
        let (name, f) ← readNode fuel .flow f
        let behind ← f.peek
        let (entries, f) ← readFlowEntries fuel start false f
        .ok ((name, Node.absent behind.start) :: entries, f)

end

/-! ## Documents -/

/-- What the directives before a document say: whether there was a version, and the handles. -/
def readDirectives :
    List Placed → Feed → Bool → List (String × String) →
      Except Stop (List (String × String) × Feed)
  | ⟨.directive d, mark, _⟩ :: rest, f, hasVersion, handles =>
    match d with
    | .version major =>
      if hasVersion then stopAt .secondVersion mark
      else if major != 1 then stopAt .foreignVersion mark
      else readDirectives rest f.advance true handles
    | .handle handle replacement =>
      if (handles.lookup handle).isSome then stopAt (.secondHandle handle) mark
      else readDirectives rest f.advance hasVersion ((handle, replacement) :: handles)
    | .reserved => readDirectives rest f.advance hasVersion handles
  | _, f, _, handles => .ok (handles, f)

/-- Directives and the mark that begins a document. -/
def readDocumentStart (f : Feed) : Except Stop Feed := do
  let (handles, f) ← readDirectives f.tokens f false []
  let t ← f.peek
  if t.kind = .documentStart then .ok { f.advance with handles := handles ++ commonHandles }
  else stopAt (.noDocumentStart t.kind) t.start

/-- What a document holds. -/
def readDocument (fuel : Nat) (f : Feed) : Except Stop (Node × Feed) := do
  let t ← f.peek
  if [TokenKind.directive, .documentStart].contains t.kind then
    let f ← readDocumentStart f
    let t ← f.peek
    readMember fuel .block [.directive, .documentStart, .documentEnd, .streamEnd] t.start f
  else readNode fuel .block f

/-- The tokens behind the marks that end a document. -/
def skipDocumentEnds : List Placed → Feed → Feed
  | t :: rest, f => if t.kind = .documentEnd then skipDocumentEnds rest f.advance else f
  | [], f => f

/-- The node of the one document in a list of tokens; nothing if there is none. -/
def Node.ofTokens (tokens : List Placed) (stop : Option Stop) : Except Stop (Option Node) := do
  let f : Feed := ⟨tokens, stop, commonHandles, []⟩
  let t ← f.peek
  if t.kind = .streamEnd then .ok none
  else
    let (root, f) ← readDocument (4 * tokens.length + 4) f
    let f := skipDocumentEnds f.tokens f
    let t ← f.peek
    if t.kind = .streamEnd then .ok (some root)
    else do
      let _ ← readDocumentStart f
      stopDuring .singleDocument root.mark .secondDocument t.start

end SchemaBaseline.Yaml
