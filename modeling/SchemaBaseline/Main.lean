import Std.Time.DateTime.Timestamp
import SchemaBaseline.CommandLine.Run

/-!
# The program

Reads the environment, the clock and the files that a command line may name, carries the command
line out, and writes back what has changed. There is no way to a server from here, so that every
request fails.
-/

namespace SchemaBaseline.Program

open Files (Path Tree)
open Introspection (Server)
open Time (Stamp)

/-- The variables that matter. -/
def environment : IO Settings.Environment := do
  let names := Settings.fieldNames.map fun field => (Settings.variablePrefix ++ field).toUpper
  let values ← names.mapM fun name => do return (name, ← IO.getEnv name)
  return values.filterMap fun entry => entry.2.map (entry.1, ·)

/-- The present moment. -/
def now : IO Stamp := do
  let nanoseconds := (← Std.Time.Timestamp.now).toNanosecondsSinceUnixEpoch.val
  let seconds := Int.fdiv nanoseconds 1000000000
  let micros := (Int.fmod nanoseconds 1000000000).toNat / 1000
  return (Stamp.ofUnix? seconds micros).getD default

/-- A server that cannot be reached. -/
def noServer : Server where
  answer _ _ := .failure (.transport "no connection")

/-- What is found at a path: the bytes of a file, or a directory. -/
def probe (path : Path) : IO (Option Files.Node) := do
  match ← (IO.FS.readBinFile path.text).toBaseIO with
  | .ok bytes => return some (.file bytes.toList)
  | .error (.noFileOrDirectory ..) => return none
  | .error _ => return some .directory

/-- Adds what is found at a path, and at those above it, to a tree. -/
def look (tree : Tree) (path : Path) : IO Tree :=
  (List.range path.parts.length).foldlM (fun tree n => do
    let above : Path := { path with parts := path.parts.take (n + 1) }
    match tree.resolve above, ← probe above with
    | .ok place, some node => return if place.isEmpty then tree else tree.put place node
    | _, _ => return tree) tree

/-- The paths that a command may read or write. -/
def pathsOf (settings : Settings) : CommandLine.Command → List Path
  | .introspect _ json sdl _ => [json, sdl]
  | .check _ baseline => [baseline]
  | .render baseline output _ => baseline :: output.toList
  | .serve _ _ => [settings.baselinePath]

/-- The paths that a command line may read or write. -/
def paths (env : Settings.Environment) (args : List String) : List Path :=
  match Settings.load env [] with
  | .bad _ => []
  | .ok settings =>
    match CommandLine.Invocation.parse settings args with
    | .ok invocation => pathsOf settings invocation.command
    | .error _ => []

/-- Writes what has changed at a path. -/
def writeBack (before after : Tree) (path : Path) : IO Unit :=
  match before.read path, after.read path with
  | old, .ok bytes =>
    if old.toOption = some bytes then pure ()
    else do
      IO.FS.createDirAll path.parent.text
      IO.FS.writeBinFile path.text (ByteArray.mk bytes.toArray)
  | _, .error _ => pure ()

def isTold (verbose : Bool) (e : LogEntry) : Bool :=
  verbose || e.level != .debug

/-- Tells how a command line ended. -/
def tell (moment : Stamp) (outcome : CommandLine.Outcome) : IO UInt32 := do
  for e in outcome.exchange.log.filter (isTold outcome.verbose) do
    IO.eprintln s!"{moment.display} {e.level.label} {e.source.label}: {e.message}"
  IO.print outcome.output
  IO.eprint outcome.complaints
  match outcome.exit with
  | .code n => return UInt32.ofNat n
  | .broke b =>
    IO.eprintln b.message
    return 1
  | .badSettings issues =>
    IO.eprintln s!"{issues.length} settings are not in order"
    return 1

/-- Carries out a command line. -/
def run (args : List String) : IO UInt32 := do
  let env ← environment
  let moment ← now
  let concerned := paths env args
  let before ← concerned.foldlM look Tree.empty
  let outcome := CommandLine.run moment env noServer before args
  concerned.forM (writeBack before outcome.tree)
  tell moment outcome

end SchemaBaseline.Program

def main (args : List String) : IO UInt32 :=
  SchemaBaseline.Program.run args
