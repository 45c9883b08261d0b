import SchemaBaseline.Yaml.Fault

/-!
# Tokens of YAML

A `Token` is one sign, word or scalar of a YAML text; where blocks begin and end is told by tokens
without characters of their own. A `Placed` token knows where it begins and where it ends.
-/

namespace SchemaBaseline.Yaml

/-- A line that says how the next document is to be read. -/
inductive Directive
  /-- The version of the language; only the first number matters. -/
  | version (major : Nat)
  /-- What a handle at the beginning of a tag stands for. -/
  | handle (handle replacement : String)
  /-- Anything else, which says nothing. -/
  | reserved
deriving Repr, DecidableEq

/-- A token. The text of a scalar is a list of codes, since escapes may write codes that are no
characters. -/
inductive Token
  | directive (d : Directive)
  | documentStart
  | documentEnd
  | streamEnd
  | blockSequenceStart
  | blockMappingStart
  | blockEnd
  | flowSequenceStart
  | flowMappingStart
  | flowSequenceEnd
  | flowMappingEnd
  | key
  | value
  | blockEntry
  | flowEntry
  | alias (name : String)
  | anchor (name : String)
  | tag (handle : Option String) (suffix : String)
  | scalar (codes : List Nat) (isPlain : Bool)
deriving Repr, DecidableEq

def Token.kind : Token → TokenKind
  | .directive _ => .directive
  | .documentStart => .documentStart
  | .documentEnd => .documentEnd
  | .streamEnd => .streamEnd
  | .blockSequenceStart => .blockSequenceStart
  | .blockMappingStart => .blockMappingStart
  | .blockEnd => .blockEnd
  | .flowSequenceStart => .flowSequenceStart
  | .flowMappingStart => .flowMappingStart
  | .flowSequenceEnd => .flowSequenceEnd
  | .flowMappingEnd => .flowMappingEnd
  | .key => .key
  | .value => .value
  | .blockEntry => .blockEntry
  | .flowEntry => .flowEntry
  | .alias _ => .alias
  | .anchor _ => .anchor
  | .tag .. => .tag
  | .scalar .. => .scalar

/-- A token in its place. -/
structure Placed where
  token : Token
  start : Mark
  stop : Mark
deriving Repr

def Placed.kind (t : Placed) : TokenKind :=
  t.token.kind

def codesOf (cs : List Char) : List Nat :=
  cs.map Char.toNat

end SchemaBaseline.Yaml
