import SchemaBaseline.Breakdown
import SchemaBaseline.Json.Reader
import SchemaBaseline.Json.Writer
import SchemaBaseline.Log
import SchemaBaseline.Schema.Dump
import SchemaBaseline.Schema.Load
import SchemaBaseline.Sdl.Render
import SchemaBaseline.Text.Split
import SchemaBaseline.Yaml.Reader
import SchemaBaseline.Yaml.Writer

/-!
# Stored baselines

A baseline is a snapshot in a file, as YAML if the suffix of the file says so and as JSON
otherwise. `Baseline.load` reads one and tells why a file holds none; what is wrong with the
bytes, or with a number out of range, is a `Breakdown`. `Baseline.save` writes one after making
the directories above it, and `Baseline.saveSdl` likewise writes the text of a schema.
-/

namespace SchemaBaseline.Baseline

open Files (Path Tree FileError)
open Time (Stamp)

/-- How a baseline is written. -/
inductive Format
  | json
  | yaml
deriving Repr, DecidableEq

/-- The format that the suffix of a path stands for. -/
def formatOf (path : Path) : Format :=
  if path.suffix = ".yaml" || path.suffix = ".yml" then .yaml else .json

/-- Why a file holds no baseline. -/
inductive Defect
  | notFound
  | unreadable (e : FileError)
  | malformedJson (fault : Json.Fault)
  | malformedYaml (message : String)
  | notAnObject
  | invalid (issues : Nat)
deriving Repr, DecidableEq

def Defect.reason : Defect → String
  | .notFound => "file not found"
  | .unreadable e => e.message
  | .malformedJson fault => "parse error: " ++ fault.message
  | .malformedYaml message => "parse error: " ++ message
  | .notAnObject => "top-level value is not an object"
  | .invalid issues => s!"invalid schema snapshot: {issues} errors"

/-- A file that holds no baseline. -/
structure LoadError where
  path : Path
  defect : Defect
deriving Repr, DecidableEq

/-- The message about a file that holds no baseline. -/
def LoadError.message (e : LoadError) : String :=
  s!"Failed to load baseline schema {e.path.text}: {e.defect.reason}"

/-- A file that cannot be written. -/
structure SaveError where
  path : Path
  cause : FileError
deriving Repr, DecidableEq

/-- The message about a file that cannot be written. -/
def SaveError.message (e : SaveError) : String :=
  s!"Failed to save baseline schema {e.path.text}: {e.cause.message}"

/-- How loading fails. -/
inductive LoadFailure
  | defect (defect : Defect)
  | broke (b : Breakdown)
deriving Repr, DecidableEq

/-! ## Loading -/

def isStored (tree : Tree) (path : Path) : Except Breakdown Bool :=
  match tree.isFile path with
  | .ok b => .ok b
  | .error e => .error (.file e)

/-- The text that bytes hold, every line ending in a line feed. -/
def textOfBytes (bytes : List UInt8) : Except Breakdown String :=
  match Text.Utf8.decode bytes with
  | .ok text => .ok (String.ofList (Text.unifyNewlines text.toList))
  | .error e => .error (.undecodable e)

def readText (format : Format) (text : String) : Except LoadFailure Value :=
  match format with
  | .json =>
    match Json.read text with
    | .ok v => .ok v
    | .error (.malformed problem line column position) =>
      .error (.defect (.malformedJson (.malformed problem line column position)))
    | .error (.tooManyDigits count) =>
      .error (.broke (.badValue (Json.tooManyDigitsMessage count)))
  | .yaml =>
    match Yaml.read text with
    | .ok v => .ok v
    | .error (.malformed message) => .error (.defect (.malformedYaml message))
    | .error (.unfit misfit) => .error (.broke (.misfit misfit))

def ofValue (now : Stamp) (v : Value) : Except LoadFailure Snapshot :=
  match v with
  | .object entries =>
    match Snapshot.load now (.object entries) with
    | .ok s => .ok s
    | .bad issues => .error (.defect (.invalid issues.length))
  | _ => .error (.defect .notAnObject)

def ofBytes (now : Stamp) (format : Format) (bytes : List UInt8) : Except LoadFailure Snapshot :=
  match textOfBytes bytes with
  | .error b => .error (.broke b)
  | .ok text =>
    match readText format text with
    | .error e => .error e
    | .ok v => ofValue now v

/-- The baseline in a file. -/
def load (now : Stamp) (tree : Tree) (path : Path) : Except LoadFailure Snapshot :=
  match tree.isFile path with
  | .error e => .error (.broke (.file e))
  | .ok false => .error (.defect .notFound)
  | .ok true =>
    match tree.read path with
    | .error e => .error (.defect (.unreadable e))
    | .ok bytes => ofBytes now (formatOf path) bytes

/-! ## Saving -/

/-- How saving fails. -/
inductive SaveFailure
  | unsaved (e : SaveError)
  | broke (b : Breakdown)
deriving Repr, DecidableEq

/-- What a problem with a path means for the file that was to be written. A path with a null
character is no path at all, and that is not taken for an error of saving. -/
def SaveFailure.of (path : Path) (cause : FileError) : SaveFailure :=
  if cause.problem = .nullCharacter then .broke (.badValue cause.message)
  else .unsaved ⟨path, cause⟩

def textOf (format : Format) (s : Snapshot) : String :=
  match format with
  | .json => Json.pretty s.toValue
  | .yaml => Yaml.write s.toValue

/-- Writes a text to a file, after making the directories above it. -/
def saveText (tree : Tree) (path : Path) (text : String) : Tree × Except SaveFailure Unit :=
  match tree.save path (Text.Utf8.encode text) with
  | (tree, none) => (tree, .ok ())
  | (tree, some cause) => (tree, .error (.of path cause))

/-- Stores a snapshot as a baseline. -/
def save (tree : Tree) (path : Path) (s : Snapshot) : Tree × Except SaveFailure Unit :=
  saveText tree path (textOf (formatOf path) s)

/-- What is logged when a baseline has been stored. -/
def savedEntry (path : Path) : LogEntry :=
  ⟨.debug, .baseline, s!"Baseline schema written to {path.text}"⟩

/-- How storing the text of a schema fails. -/
inductive SdlFailure
  | unprintable (e : TypeRef.Malformed)
  | unsaved (failure : SaveFailure)
deriving Repr, DecidableEq

/-- Stores the text of a schema. Nothing is touched if the schema cannot be printed. -/
def saveSdl (tree : Tree) (path : Path) (s : Snapshot) : Tree × Except SdlFailure Unit :=
  match s.sdl with
  | .error e => (tree, .error (.unprintable e))
  | .ok text =>
    match saveText tree path text with
    | (tree, .ok ()) => (tree, .ok ())
    | (tree, .error failure) => (tree, .error (.unsaved failure))

end SchemaBaseline.Baseline
