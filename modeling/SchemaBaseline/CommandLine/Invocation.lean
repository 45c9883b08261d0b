import SchemaBaseline.CommandLine.Flags
import SchemaBaseline.Settings.Basic

/-!
# Commands

What can be asked for on a command line. `Invocation.parse` reads one; what is not said there is
as the settings say.
-/

namespace SchemaBaseline.CommandLine

open Files (Path)

/-- A command with all that belongs to it. -/
inductive Command
  /-- Fetches the schema of a server and stores it. -/
  | introspect (server : String) (json sdl : Path) (summary : Bool)
  /-- Compares the schema of a server with the baseline. -/
  | check (server : String) (baseline : Path)
  /-- Writes the baseline as a text. -/
  | render (baseline : Path) (output : Option Path) (summary : Bool)
  /-- Serves requests, and validates in the background. -/
  | serve (host : String) (port : Int)
deriving Repr, DecidableEq

/-- A command, and whether details are to be told. -/
structure Invocation where
  verbose : Bool
  command : Command
deriving Repr, DecidableEq

def programName : String := "schemawatch"

/-- Help, which every command gives. -/
def helpFlag : Flag := ⟨some 'h', "help", .help⟩

/-- The flags before the command. -/
def commonFlags : List Flag := [helpFlag, ⟨some 'v', "verbose", .switch⟩]

inductive CommandName
  | introspect
  | check
  | render
  | serve
deriving Repr, DecidableEq

def CommandName.all : List CommandName := [.introspect, .check, .render, .serve]

def CommandName.word : CommandName → String
  | .introspect => "introspect"
  | .check => "check"
  | .render => "render"
  | .serve => "serve"

def CommandName.ofWord? (word : String) : Option CommandName :=
  all.find? fun name => name.word == word

def CommandName.flags : CommandName → List Flag
  | .introspect =>
    [helpFlag, ⟨none, "server", .text⟩, ⟨none, "json", .text⟩, ⟨none, "sdl", .text⟩,
      ⟨none, "summary", .switch⟩]
  | .check => [helpFlag, ⟨none, "server", .text⟩, ⟨none, "baseline", .text⟩]
  | .render =>
    [helpFlag, ⟨none, "baseline", .text⟩, ⟨none, "output", .text⟩, ⟨none, "summary", .switch⟩]
  | .serve => [helpFlag, ⟨none, "host", .text⟩, ⟨none, "port", .integer⟩]

/-- The command that flags make. -/
def CommandName.command (settings : Settings) (r : Reading) : CommandName → Command
  | .introspect =>
    .introspect ((r.text? "server").getD settings.serverUrl) (path "json" settings.baselinePath)
      (path "sdl" settings.sdlPath) (r.has "summary")
  | .check =>
    .check ((r.text? "server").getD settings.serverUrl) (path "baseline" settings.baselinePath)
  | .render =>
    .render (path "baseline" settings.baselinePath) ((r.text? "output").map Path.ofText)
      (r.has "summary")
  | .serve => .serve ((r.text? "host").getD settings.host) ((r.number? "port").getD settings.port)
where
  /-- The path behind a flag. -/
  path (word : String) (unset : Path) : Path :=
    ((r.text? word).map Path.ofText).getD unset

/-- Why a command line is not carried out, and the command that is to blame if it is one. -/
structure Refusal where
  command : Option CommandName
  halt : Halt
deriving Repr, DecidableEq

/-- A problem with its place. -/
def Refusal.message (command : Option CommandName) (p : UsageProblem) : String :=
  " ".intercalate (programName :: (command.map CommandName.word).toList) ++
    ": error: " ++ p.message

/-- A result of reading words, a halt being blamed on a command. -/
def blaming {α : Type} (command : Option CommandName) (r : Except Halt α) : Except Refusal α :=
  match r with
  | .ok v => .ok v
  | .error halt => .error ⟨command, halt⟩

/-- The command and its flags in the words behind the common flags. -/
def readCommand (left : List Word) : Except Refusal (CommandName × Reading) :=
  match left.map Word.written with
  | [] => .error ⟨none, .problem .missingCommand⟩
  | word :: rest =>
    match CommandName.ofWord? word with
    | none =>
      .error ⟨none, .problem (.unknownCommand word (CommandName.all.map CommandName.word))⟩
    | some name => do
      let words ← blaming name (classifyAll name.flags rest)
      let reading ← blaming name (readWords name.flags words)
      .ok (name, reading)

/-- Reads a command line. Words that mean nothing are refused last. -/
def Invocation.parse (settings : Settings) (args : List String) : Except Refusal Invocation := do
  let words ← blaming none (classifyAll commonFlags args)
  let (common, left) ← blaming none (readUntilCommand commonFlags words)
  let (name, reading) ← readCommand left
  match common.extras ++ reading.extras with
  | [] => .ok ⟨common.has "verbose", name.command settings reading⟩
  | extras => .error ⟨none, .problem (.unrecognized extras)⟩

end SchemaBaseline.CommandLine
