import SchemaBaseline.Baseline.Store
import SchemaBaseline.Gate.State

/-!
# The validation gate

The server's schema is validated against the baseline at most once in the life of a gate, however
many callers ask for it. The first caller creates the run; everyone waits for the same run and
comes away with what it ended in. A `Caller` either waits in the foreground, and gets the outcome,
or was sent to the background, where failures are only logged. This module holds what the parts of
a gate are and how the end of a run becomes the end of a caller; `Gate.step` in the next one says
what can happen.
-/

namespace SchemaBaseline

open Files (Path Tree)
open Time (Stamp)

namespace Gate

/-- Why the schema of the server could not be had. -/
inductive AcquireFailure
  | refused (message : String)
  | broke (b : Breakdown)
  /-- Whoever asks the server was cancelled, though not by the gate. -/
  | cancelled
deriving Repr, DecidableEq

/-- What asking for the schema of the server came to. -/
abbrev Acquired := Except AcquireFailure Snapshot

inductive RunEnd
  /-- Schemas were compared, or a baseline was created and there are no findings. -/
  | completed (result : Option Findings)
  | refused (message : String)
  | broke (b : Breakdown)
  | cancelled
deriving Repr, DecidableEq

/-- How far the one run of a gate has come. The path of the baseline is that of the first
caller. -/
inductive Run
  | none
  | created (path : Path)
  /-- The server has been asked for its schema. Without an expected schema a baseline is going to
  be created. -/
  | acquiring (path : Path) (expected : Option Snapshot)
  | ended (path : Path) (outcome : RunEnd)
deriving Repr, DecidableEq

def Run.path? : Run → Option Path
  | .none => .none
  | .created path => some path
  | .acquiring path _ => some path
  | .ended path _ => some path

/-- Whether a caller waits in the foreground or was sent to the background. -/
inductive CallKind
  | foreground
  | background
deriving Repr, DecidableEq

/-- What a caller comes away with. -/
inductive CallEnd
  | returned (result : Option Findings)
  | incompatible (result : Findings)
  | refused (message : String)
  | broke (b : Breakdown)
  | cancelled
deriving Repr, DecidableEq

/-- How far a caller has come. -/
inductive CallPhase
  | called
  | waiting
  | finished (outcome : CallEnd)
deriving Repr, DecidableEq

/-- Someone who asked for the validation. -/
structure Caller where
  kind : CallKind
  path : Path
  phase : CallPhase
deriving Repr, DecidableEq

/-- Whether a caller is not finished yet. -/
def Caller.isPending (c : Caller) : Bool :=
  match c.phase with
  | .finished _ => false
  | _ => true

/-- How often each thing was done that a gate does at most once. -/
structure Tally where
  loads : Nat
  acquires : Nat
  comparisons : Nat
  saves : Nat
deriving Repr, DecidableEq, Inhabited

end Gate

open Gate in
/-- A gate, with its callers in the order in which they came. -/
structure Gate where
  mode : Mode
  progress : Progress
  run : Run
  callers : List Caller
  /-- Whether it has been logged that nothing is validated. -/
  ignoreLogged : Bool
  tally : Tally
deriving Repr, DecidableEq

namespace Gate

/-- A gate that nobody has come to. -/
def fresh (mode : Mode) : Gate where
  mode
  progress := {}
  run := .none
  callers := []
  ignoreLogged := false
  tally := ⟨0, 0, 0, 0⟩

def entry (level : LogLevel) (message : String) : LogEntry :=
  ⟨level, .gate, message⟩

/-! ## From the end of a run to the end of a caller -/

def incompatibleMessage (result : Findings) : String :=
  s!"Schema validation failed with {result.errors.length} errors"

/-- What a run ends in for those who ask, by the mode. -/
def callEnd (mode : Mode) : RunEnd → CallEnd
  | .completed (some result) =>
    if !result.isValid && mode == .strict then .incompatible result else .returned (some result)
  | .completed none => .returned none
  | .refused message => if mode == .strict then .refused message else .returned none
  | .broke b => .broke b
  | .cancelled => .cancelled

/-- What is logged for each of those who ask: in other modes than the strict one the validation
goes on after a failure. -/
def callLog (mode : Mode) : RunEnd → List LogEntry
  | .completed (some result) =>
    if !result.isValid && mode != .strict then
      [entry .warning
        s!"Schema validation failed but continuing (warn mode): {result.errors.length} errors"]
    else []
  | .refused message =>
    if mode == .strict then []
    else [entry .warning s!"Schema validation failed but continuing (warn mode): {message}"]
  | _ => []

/-- The failure that an end amounts to, in words. -/
def failureText : CallEnd → Option String
  | .incompatible result => some (incompatibleMessage result)
  | .refused message => some message
  | .broke b => some b.message
  | _ => none

/-- What a caller in the background comes away with: failures end there. -/
def quietEnd : CallEnd → CallEnd
  | .cancelled => .cancelled
  | _ => .returned none

/-- What is logged about the end of a caller in the background. -/
def quietLog (e : CallEnd) : List LogEntry :=
  match e with
  | .cancelled => [entry .info "Background schema validation cancelled"]
  | e =>
    match failureText e with
    | some message => [
        entry .warning s!"Background schema validation failed: {message}",
        entry .warning "Application will continue, but API calls may fail"]
    | none => []

def endFor (kind : CallKind) (e : CallEnd) : CallEnd :=
  match kind with
  | .foreground => e
  | .background => quietEnd e

/-- What is logged about the end of a caller of a kind. -/
def logFor (kind : CallKind) (e : CallEnd) : List LogEntry :=
  match kind with
  | .foreground => []
  | .background => quietLog e

/-! ## What a comparison logs -/

/-- The number of errors that are logged one by one. -/
def maxLoggedErrors : Nat := 5

def resultLog (result : Findings) : List LogEntry :=
  if result.isValid then
    entry .info "Schema validation passed" ::
      if result.warnings.isEmpty then []
      else entry .warning s!"{result.warnings.length} schema warnings found:" ::
        result.warnings.map fun w => entry .warning ("  " ++ w)
  else
    [entry .error "Schema validation failed",
      entry .error s!"Errors: {result.errors.length}, Warnings: {result.warnings.length}"] ++
    (result.errors.take maxLoggedErrors).map (fun e => entry .error ("  " ++ e)) ++
    if result.errors.length ≤ maxLoggedErrors then []
    else [entry .error s!"  ... and {result.errors.length - maxLoggedErrors} more errors"]

end Gate

end SchemaBaseline
