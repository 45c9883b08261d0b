import SchemaBaseline.Text.Quoted
import SchemaBaseline.Text.Utf8
import SchemaBaseline.Yaml.Cursor

/-!
# What is wrong with a YAML text

A `Report` tells what was being read and since where, what is wrong, and where that lies.
`Report.message` puts it in words and quotes the lines that the marks lie in. A text can also
write what is no value, a `Misfit`; then there is no report.
-/

namespace SchemaBaseline.Yaml

open Text (quoted)

/-- The kinds of tokens, as messages name them. -/
inductive TokenKind
  | directive
  | documentStart
  | documentEnd
  | streamEnd
  | blockSequenceStart
  | blockMappingStart
  | blockEnd
  | flowSequenceStart
  | flowMappingStart
  | flowSequenceEnd
  | flowMappingEnd
  | key
  | value
  | blockEntry
  | flowEntry
  | alias
  | anchor
  | tag
  | scalar
deriving Repr, DecidableEq

/-- The name of a kind of tokens: the sign itself where there is one. -/
def TokenKind.name : TokenKind → String
  | .directive => "<directive>"
  | .documentStart => "<document start>"
  | .documentEnd => "<document end>"
  | .streamEnd => "<stream end>"
  | .blockSequenceStart => "<block sequence start>"
  | .blockMappingStart => "<block mapping start>"
  | .blockEnd => "<block end>"
  | .flowSequenceStart => "["
  | .flowMappingStart => "\x7b"
  | .flowSequenceEnd => "]"
  | .flowMappingEnd => "\x7d"
  | .key => "?"
  | .value => ":"
  | .blockEntry => "-"
  | .flowEntry => ","
  | .alias => "<alias>"
  | .anchor => "<anchor>"
  | .tag => "<tag>"
  | .scalar => "<scalar>"

inductive NodeKind
  | scalar
  | sequence
  | mapping
deriving Repr, DecidableEq

def NodeKind.name : NodeKind → String
  | .scalar => "scalar"
  | .sequence => "sequence"
  | .mapping => "mapping"

/-- What is being read when something is wrong. -/
inductive Activity
  | nextToken
  | simpleKey
  | directive
  | directiveUri
  | alias
  | anchor
  | tag
  | tagUri
  | blockScalar
  | quotedScalar
  | doubleQuotedScalar
  | node
  | blockNode
  | flowNode
  | blockCollection
  | blockMapping
  | flowSequence
  | flowMapping
  | singleDocument
  | duplicateAnchor (name : String)
  | mapping
  | orderedMap
  | pairs
deriving Repr, DecidableEq

def Activity.message : Activity → String
  | .nextToken => "while scanning for the next token"
  | .simpleKey => "while scanning a simple key"
  | .directive => "while scanning a directive"
  | .directiveUri => "while parsing a directive"
  | .alias => "while scanning an alias"
  | .anchor => "while scanning an anchor"
  | .tag => "while scanning a tag"
  | .tagUri => "while parsing a tag"
  | .blockScalar => "while scanning a block scalar"
  | .quotedScalar => "while scanning a quoted scalar"
  | .doubleQuotedScalar => "while scanning a double-quoted scalar"
  | .node => "while parsing a node"
  | .blockNode => "while parsing a block node"
  | .flowNode => "while parsing a flow node"
  | .blockCollection => "while parsing a block collection"
  | .blockMapping => "while parsing a block mapping"
  | .flowSequence => "while parsing a flow sequence"
  | .flowMapping => "while parsing a flow mapping"
  | .singleDocument => "expected a single document in the stream"
  | .duplicateAnchor name => "found duplicate anchor " ++ quoted name ++ "; first occurrence"
  | .mapping => "while constructing a mapping"
  | .orderedMap => "while constructing an ordered map"
  | .pairs => "while constructing pairs"

/-- What a character other than the one found would have been. -/
inductive Wanted
  | nameChar
  | digit
  | digitOrPoint
  | digitOrBlank
  | blank
  | lineEnd
  | closingAngle
  | exclamation
  | uri
  | uriEscape
  | scalarIndicators
  | escapeDigits (count : Nat)
deriving Repr, DecidableEq

def Wanted.message : Wanted → String
  | .nameChar => "alphabetic or numeric character"
  | .digit => "a digit"
  | .digitOrPoint => "a digit or '.'"
  | .digitOrBlank => "a digit or ' '"
  | .blank => "' '"
  | .lineEnd => "a comment or a line break"
  | .closingAngle => "'>'"
  | .exclamation => "'!'"
  | .uri => "URI"
  | .uriEscape => "URI escape sequence of 2 hexadecimal numbers"
  | .scalarIndicators => "chomping or indentation indicators"
  | .escapeDigits count => s!"escape sequence of {count} hexadecimal numbers"

inductive Problem
  | noTokenStart (found : Char)
  | missingColon
  | sequenceNotAllowed
  | keyNotAllowed
  | valueNotAllowed
  | expected (wanted : Wanted) (found : Char)
  | zeroIndentation
  | unknownEscape (found : Char)
  | textEnded
  | documentMark
  | undecodableUri (e : Text.DecodeError)
  | noDocumentStart (found : TokenKind)
  | noContent (found : TokenKind)
  | noBlockEnd (found : TokenKind)
  | noSequenceComma (found : TokenKind)
  | noMappingComma (found : TokenKind)
  | secondVersion
  | foreignVersion
  | secondHandle (handle : String)
  | unknownHandle (handle : String)
  | unknownAlias (name : String)
  | secondAnchor
  | secondDocument
  | notOfKind (wanted found : NodeKind)
  | unknownTag (tag : String)
  | unusableKey
  | mergesNoMapping (found : NodeKind)
  | mergesNoMappings (found : NodeKind)
  | noSequence (found : NodeKind)
  | noSinglePair (found : NodeKind)
  | manyPairs (count : Nat)
  | notBase64 (message : String)
  | notAscii (message : String)
deriving Repr, DecidableEq

def Problem.message : Problem → String
  | .noTokenStart found =>
    "found character " ++ quoted found.toString ++ " that cannot start any token"
  | .missingColon => "could not find expected ':'"
  | .sequenceNotAllowed => "sequence entries are not allowed here"
  | .keyNotAllowed => "mapping keys are not allowed here"
  | .valueNotAllowed => "mapping values are not allowed here"
  | .expected wanted found =>
    "expected " ++ wanted.message ++ ", but found " ++ quoted found.toString
  | .zeroIndentation => "expected indentation indicator in the range 1-9, but found 0"
  | .unknownEscape found => "found unknown escape character " ++ quoted found.toString
  | .textEnded => "found unexpected end of stream"
  | .documentMark => "found unexpected document separator"
  | .undecodableUri e => e.message
  | .noDocumentStart found => "expected '<document start>', but found " ++ quoted found.name
  | .noContent found => "expected the node content, but found " ++ quoted found.name
  | .noBlockEnd found => "expected <block end>, but found " ++ quoted found.name
  | .noSequenceComma found => "expected ',' or ']', but got " ++ quoted found.name
  | .noMappingComma found => "expected ',' or '\x7d', but got " ++ quoted found.name
  | .secondVersion => "found duplicate YAML directive"
  | .foreignVersion => "found incompatible YAML document (version 1.* is required)"
  | .secondHandle handle => "duplicate tag handle " ++ quoted handle
  | .unknownHandle handle => "found undefined tag handle " ++ quoted handle
  | .unknownAlias name => "found undefined alias " ++ quoted name
  | .secondAnchor => "second occurrence"
  | .secondDocument => "but found another document"
  | .notOfKind wanted found => "expected a " ++ wanted.name ++ " node, but found " ++ found.name
  | .unknownTag tag => "could not determine a constructor for the tag " ++ quoted tag
  | .unusableKey => "found unhashable key"
  | .mergesNoMapping found => "expected a mapping for merging, but found " ++ found.name
  | .mergesNoMappings found =>
    "expected a mapping or list of mappings for merging, but found " ++ found.name
  | .noSequence found => "expected a sequence, but found " ++ found.name
  | .noSinglePair found => "expected a mapping of length 1, but found " ++ found.name
  | .manyPairs count => s!"expected a single mapping item, but found {count} items"
  | .notBase64 message => "failed to decode base64 data: " ++ message
  | .notAscii message => "failed to convert base64 data into ascii: " ++ message

/-- What was being read and since where, what is wrong and where. -/
structure Report where
  activity : Option Activity
  since : Option Mark
  problem : Problem
  mark : Mark
deriving Repr, DecidableEq

/-- What a text writes although it is no value; the form of the text is not at fault. -/
inductive Misfit
  /-- A number or a date that cannot be represented. -/
  | outOfRange (message : String)
  /-- An escape with a code behind the last character. -/
  | noCharacter
  /-- An escape with a code that takes more than 31 bits. -/
  | hugeCode
  /-- A number without any digit. -/
  | noDigit
  /-- A number in base sixty with more places than a number can count. -/
  | hugePlace
  /-- A truth value that is no word for yes or no; the word stands in lowercase. -/
  | noTruth (word : String)
  /-- A date-time that has not the form of one. -/
  | noStamp
  /-- A date-time that is no scalar. -/
  | stampCollection
deriving Repr, DecidableEq

/-- Why reading stops. -/
inductive Stop
  /-- The text is no YAML text. -/
  | misread (report : Report)
  /-- The text writes something that is no value. -/
  | unfit (misfit : Misfit)
deriving Repr, DecidableEq

/-- Stops during an activity that began at `since`. -/
def stopDuring {α : Type} (activity : Activity) (since : Mark) (problem : Problem) (mark : Mark) :
    Except Stop α :=
  .error (.misread ⟨some activity, some since, problem, mark⟩)

/-- Stops without saying what was being read. -/
def stopAt {α : Type} (problem : Problem) (mark : Mark) : Except Stop α :=
  .error (.misread ⟨none, none, problem, mark⟩)

/-! ## Messages -/

/-- What is wrong with something that is no value. -/
def Misfit.message : Misfit → String
  | .outOfRange message => message
  | .noCharacter => "chr() arg not in range(0x110000)"
  | .hugeCode => "Python int too large to convert to C int"
  | .noDigit => "string index out of range"
  | .hugePlace => "int too large to convert to float"
  | .noTruth word => Text.quoted word
  | .noStamp => "'NoneType' object has no attribute 'groupdict'"
  | .stampCollection => "expected string or bytes-like object, got 'list'"

/-- At most this many characters of a line are quoted on either side of a mark. -/
def excerptReach : Nat := 36

/-- What takes the place of the part of a line that is left out. -/
def ellipsis : List Char := " ... ".toList

/-- The characters of a line up to a mark, nearest first, and whether some are left out. -/
def cutLine (nearest : List Char) : List Char × Bool :=
  let line := nearest.takeWhile (!isLineEnd ·)
  if excerptReach < line.length then (line.take (excerptReach + 1 - 5), true) else (line, false)

/-- The line around a mark, and below it a caret under the marked character. -/
def excerpt (text : List Char) (m : Mark) : List Char :=
  let (before, cutBefore) := cutLine (text.take m.index).reverse
  let (after, cutAfter) := cutLine (text.drop m.index)
  let head := (if cutBefore then ellipsis else []) ++ before.reverse
  List.replicate 4 ' ' ++ head ++ after ++ (if cutAfter then ellipsis else []) ++
    '\n' :: List.replicate (4 + head.length) ' ' ++ ['^']

/-- Where a mark lies in a text. -/
def Mark.message (text : List Char) (m : Mark) : String :=
  s!"  in \"<unicode string>\", line {m.line + 1}, column {m.column + 1}:\n" ++
    String.ofList (excerpt text m)

/-- A report in words, one line for each thing said. The beginning of the activity is left out
where it is the place of the problem. -/
def Report.message (text : List Char) (r : Report) : String :=
  "\n".intercalate
    (r.activity.toList.map Activity.message ++
      (r.since.toList.filter fun m => m.line != r.mark.line || m.column != r.mark.column).map
        (Mark.message text) ++
      [r.problem.message, r.mark.message text])

end SchemaBaseline.Yaml
