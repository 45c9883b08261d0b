import SchemaBaseline.Files.Tree
import SchemaBaseline.Schema.TypeRef
import SchemaBaseline.Text.Utf8
import SchemaBaseline.Value.Walk
import SchemaBaseline.Yaml.Fault

/-!
# Breakdowns

The parts of the library have errors of their own, which tell what is wrong with a schema, a
baseline or a server. A `Breakdown` is none of these: something underneath fails in a way that the
part does not take for its own, and hands on as it is.
-/

namespace SchemaBaseline

/-- A failure that is handed on as it is. -/
inductive Breakdown
  /-- A value is out of the range of what can be represented. -/
  | badValue (message : String)
  /-- A text in YAML writes what is no value. -/
  | misfit (e : Yaml.Misfit)
  /-- Bytes are no text. -/
  | undecodable (e : Text.DecodeError)
  /-- A file operation fails. -/
  | file (e : Files.FileError)
  /-- A value has no members where some are expected. -/
  | walk (fault : WalkFault)
  /-- A type reference means nothing. -/
  | malformedRef (e : TypeRef.Malformed)
  /-- Anything else, known by its name. -/
  | foreign (name message : String)
deriving Repr, DecidableEq

def Breakdown.message : Breakdown → String
  | .badValue message => message
  | .misfit e => e.message
  | .undecodable e => e.message
  | .file e => e.message
  | .walk fault => fault.message
  | .malformedRef e => e.message
  | .foreign _ message => message

end SchemaBaseline
