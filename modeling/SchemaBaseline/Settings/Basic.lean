import SchemaBaseline.Files.Path
import SchemaBaseline.Gate.State
import SchemaBaseline.Introspection.Acquire
import SchemaBaseline.Log
import SchemaBaseline.Settings.Numbers
import SchemaBaseline.Value.Display
import SchemaBaseline.Value.Load

/-!
# Settings

What can be set from outside: through arguments, and through variables of the environment whose
names begin with a prefix, whatever their case. Arguments win. All issues are collected; an
unknown mode is none, but a warning, and stands for the mode `warn`. `Settings.client` is the
client that talks to the server as the settings say.
-/

namespace SchemaBaseline

open Files (Path)

structure Settings where
  serverUrl : String
  mode : Mode
  baselinePath : Path
  sdlPath : Path
  requestTimeout : Float
  depth : Int
  maxDepth : Int
  host : String
  port : Int

namespace Settings

/-- The settings where nothing is set. -/
def default : Settings where
  serverUrl := "http://localhost:4567"
  mode := .warn
  baselinePath := Path.ofText "schema/suwayomi_schema.json"
  sdlPath := Path.ofText "schema/suwayomi_schema.graphql"
  requestTimeout := 30.0
  depth := 8
  maxDepth := 64
  host := "127.0.0.1"
  port := 8000

/-- Variables of the environment with their values. -/
abbrev Environment := List (String × String)

/-- What the names of variables begin with, in lowercase. -/
def variablePrefix : String := "suwayomi_"

/-- The value of the last variable that sets a field. -/
def variableOf? (env : Environment) (field : String) : Option Value :=
  (env.reverse.find? fun entry => entry.1.toLower == variablePrefix ++ field).map fun entry =>
    .text entry.2

/-- What is set for a field. -/
def given? (env : Environment) (args : Entries) (field : String) : Option Value :=
  (Entries.get? args field).or (variableOf? env field)

/-! ## Fields -/

/-- The mode that a value names, if it names one. -/
def modeOf? : Value → Option Mode
  | .text s => Mode.ofLabel? (Text.strip s).toLower
  | _ => none

/-- The mode that a value stands for. -/
def modeOf (v : Value) : Mode :=
  (modeOf? v).getD .warn

/-- What is logged about a value for the mode. -/
def modeLog (v : Value) : List LogEntry :=
  match modeOf? v with
  | some _ => []
  | none =>
    [⟨.warning, .settings,
      s!"Unknown schema validation mode {v.literal}, falling back to 'warn'"⟩]

def loadPath : Value → Checked Path
  | .text s => .ok (Path.ofText s)
  | _ => .fail .notAPath

/-- A number of levels of references. -/
def loadDepth (v : Value) : Checked Int :=
  (loadInt v).andThen fun n =>
    if n < 1 then .fail (.rejected "type reference depth must be at least 1") else .ok n

/-- A field that may be set. -/
def field {α : Type} (env : Environment) (args : Entries) (name : String) (unset : α)
    (load : Value → Checked α) :
    Checked α :=
  match given? env args name with
  | some v => (load v).under (.name name)
  | none => .ok unset

/-- The names of all fields. -/
def fieldNames : List String := [
  "server_url", "schema_validation", "baseline_path", "sdl_path", "request_timeout",
  "typeref_depth", "max_typeref_depth", "host", "port"]

/-- Arguments that set no field are issues. -/
def noFurther (args : Entries) : Checked Unit :=
  match args.filter fun entry => !fieldNames.contains entry.1 with
  | [] => .ok ()
  | unknown => .bad (unknown.map fun entry => ⟨[.name entry.1], .unexpected⟩)

def load (env : Environment) (args : Entries) : Checked Settings :=
  let serverUrl := field env args "server_url" default.serverUrl Value.loadText
  let mode := field env args "schema_validation" default.mode fun v => .ok (modeOf v)
  let baselinePath := field env args "baseline_path" default.baselinePath loadPath
  let sdlPath := field env args "sdl_path" default.sdlPath loadPath
  let requestTimeout := field env args "request_timeout" default.requestTimeout loadFloat
  let depth := field env args "typeref_depth" default.depth loadDepth
  let maxDepth := field env args "max_typeref_depth" default.maxDepth loadDepth
  let host := field env args "host" default.host Value.loadText
  let port := field env args "port" default.port loadInt
  let fields :=
    ((((((((serverUrl.map Settings.mk).apply mode).apply baselinePath).apply sdlPath).apply
      requestTimeout).apply depth).apply maxDepth).apply host).apply port
  (fields.map fun settings _ => settings).apply (noFurther args)

/-- What is logged while settings are loaded. -/
def loadLog (env : Environment) (args : Entries) : List LogEntry :=
  match given? env args "schema_validation" with
  | some v => modeLog v
  | none => []

def client (settings : Settings) (address : String) (patience : Nat) : Introspection.Client :=
  .ofAddress address settings.depth settings.maxDepth patience

end Settings

end SchemaBaseline
