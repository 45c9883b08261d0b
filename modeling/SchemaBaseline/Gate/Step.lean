import SchemaBaseline.Compat.Compare
import SchemaBaseline.Gate.Basic

/-!
# What happens at a gate

`Site.step` says what each event does to a gate and to the files around it; an event that cannot
happen changes nothing. Any interleaving of callers, of the run, of the server's answer, of
cancellations and of a shutdown is a list of events, and `Site.run` carries it out. The server is
asked between `startRun` and `acquired`, and these two are the only events that read or write a
file.
-/

namespace SchemaBaseline

open Files (Path Tree)
open Time (Stamp)

namespace Gate

/-- Something that happens at a gate. Callers are known by their number, counted from zero. -/
inductive Event
  /-- Someone asks for a validation against the baseline at a path. -/
  | call (kind : CallKind) (path : Path)
  /-- A caller gets its turn. -/
  | begin (caller : Nat)
  /-- The run gets its turn: it loads the baseline and asks the server. -/
  | startRun
  /-- The server has answered; the run carries on to its end. -/
  | acquired (answer : Acquired)
  /-- A waiting caller learns that the run has ended. -/
  | wake (caller : Nat)
  /-- A caller is cancelled. -/
  | cancel (caller : Nat)
  /-- The run and all callers in the background are cancelled. -/
  | shutdown
  /-- The same while the server is being asked, but whoever asks it does not let the cancellation
  through, and the run goes on. -/
  | resistedShutdown

/-- A gate, the files around it and the log. -/
structure Site where
  gate : Gate
  tree : Tree
  log : List LogEntry
deriving Repr, DecidableEq

namespace Site

def note (s : Site) (entries : List LogEntry) : Site :=
  { s with log := s.log ++ entries }

def withGate (s : Site) (change : Gate → Gate) : Site :=
  { s with gate := change s.gate }

def setPhase (s : Site) (caller : Nat) (phase : CallPhase) : Site :=
  s.withGate fun g => { g with callers := g.callers.modify caller fun c => { c with phase } }

/-- Lets a caller finish, with what that logs. -/
def finish (s : Site) (caller : Nat) (kind : CallKind) (e : CallEnd) : Site :=
  (s.setPhase caller (.finished (endFor kind e))).note (logFor kind e)

/-- Lets a caller finish with the end of the run. -/
def settle (s : Site) (caller : Nat) (kind : CallKind) (e : RunEnd) : Site :=
  (s.note (callLog s.gate.mode e)).finish caller kind (callEnd s.gate.mode e)

/-! ## Callers -/

/-- Logs, once, that nothing is validated. -/
def noteIgnored (s : Site) : Site :=
  if s.gate.ignoreLogged then s
  else (s.withGate fun g => { g with ignoreLogged := true }).note
    [entry .info "Schema validation disabled (SUWAYOMI_SCHEMA_VALIDATION=ignore)"]

/-- Logs that a caller brings another path than the first one did. -/
def notePath (s : Site) (path : Path) : Site :=
  match s.gate.run.path? with
  | none => s
  | some first =>
    if path = first then s
    else s.note [entry .debug
      (s!"Schema validation already started with baseline {first.text}; " ++
        s!"ignoring {path.text}")]

/-- The turn of a caller that has not begun. -/
def begin (s : Site) (caller : Nat) (c : Caller) : Site :=
  if s.gate.mode = .ignore then s.noteIgnored.finish caller c.kind (.returned none)
  else
    let s := s.notePath c.path
    match s.gate.run with
    | .none => (s.withGate fun g => { g with run := .created c.path }).setPhase caller .waiting
    | .ended _ e => s.settle caller c.kind e
    | _ => s.setPhase caller .waiting

/-! ## The run -/

def endRun (s : Site) (path : Path) (progress : Progress) (e : RunEnd) : Site :=
  s.withGate fun g => { g with progress, run := .ended path e }

/-- Ends the run with a failure, whichever it is. -/
def failRun (s : Site) (now : Stamp) (path : Path) (message : String) (e : RunEnd) : Site :=
  s.endRun path { status := .failed, error := some message, endedAt := some now } e

def breakRun (s : Site) (now : Stamp) (path : Path) (b : Breakdown) : Site :=
  s.failRun now path b.message (.broke b)

/-- The first half of the run: loads the baseline and asks the server for its schema. -/
def startRun (s : Site) (now : Stamp) (path : Path) : Site :=
  let s := (s.withGate fun g => { g with
    progress := { status := .validating }
    tally := { g.tally with loads := g.tally.loads + 1 } }).note
    [entry .info s!"Validating GraphQL schema (mode: {s.gate.mode.label})..."]
  let ask (s : Site) (expected : Option Snapshot) : Site := s.withGate fun g =>
    { g with
      run := .acquiring path expected
      tally := { g.tally with acquires := g.tally.acquires + 1 } }
  match Baseline.load now s.tree path with
  | .ok expected => ask s (some expected)
  | .error (.defect defect) =>
    ask (s.note [entry .warning ((Baseline.LoadError.mk path defect).message ++
      "; introspecting from server to create a baseline")]) none
  | .error (.broke b) => s.breakRun now path b

/-- Compares the schemas, which ends the run. -/
def compare (s : Site) (now : Stamp) (path : Path) (expected actual : Snapshot) : Site :=
  let s := s.withGate fun g =>
    { g with tally := { g.tally with comparisons := g.tally.comparisons + 1 } }
  match expected.compare actual with
  | .ok result =>
    (s.endRun path {
      status := if result.isValid then .valid else .invalid
      result := some result
      endedAt := some now } (.completed (some result))).note (resultLog result)
  | .error e => s.breakRun now path (.malformedRef e)

/-- Stores the schema as the baseline, which ends the run even if it cannot be stored. -/
def createBaseline (s : Site) (now : Stamp) (path : Path) (actual : Snapshot) : Site :=
  let s := s.withGate fun g => { g with tally := { g.tally with saves := g.tally.saves + 1 } }
  let (tree, saved) := Baseline.save s.tree path actual
  let s := { s with tree }
  let skip (s : Site) : Site :=
    (s.endRun path { status := .baselineCreated, endedAt := some now } (.completed none)).note
      [entry .info "Schema validation skipped (baseline created)"]
  match saved with
  | .ok () =>
    skip (s.note [Baseline.savedEntry path, entry .info s!"Baseline schema saved to {path.text}"])
  | .error (.unsaved e) =>
    skip (s.note [entry .warning s!"Could not save baseline schema: {e.message}"])
  | .error (.broke b) => s.breakRun now path b

/-- The second half of the run, once the server has answered. -/
def finishRun (s : Site) (now : Stamp) (path : Path) (expected : Option Snapshot)
    (answer : Acquired) : Site :=
  match answer, expected with
  | .ok actual, some expected => s.compare now path expected actual
  | .ok actual, none => s.createBaseline now path actual
  | .error (.refused message), _ =>
    (s.failRun now path message (.refused message)).note
      [entry .error ("Schema validation aborted: " ++ message)]
  | .error (.broke b), _ => s.breakRun now path b
  -- A cancellation is no failure: nothing is logged, and the progress stays as it is.
  | .error .cancelled, _ => s.withGate fun g => { g with run := .ended path .cancelled }

/-! ## Cancelling -/

/-- Cancels a caller that is not finished. One that never got its turn has nothing to log. -/
def cancelCaller (s : Site) (caller : Nat) (c : Caller) : Site :=
  match c.phase with
  | .called => s.setPhase caller (.finished .cancelled)
  | .waiting => s.finish caller c.kind .cancelled
  | .finished _ => s

/-- Cancels a run that is under way. The progress stays as it is. -/
def cancelRun (s : Site) : Site :=
  match s.gate.run with
  | .created path => s.withGate fun g => { g with run := .ended path .cancelled }
  | .acquiring path _ => s.withGate fun g => { g with run := .ended path .cancelled }
  | _ => s

/-- Cancels the callers of given numbers that are in the background. -/
def cancelBackground (s : Site) : List Nat → Site
  | [] => s
  | n :: rest =>
    match s.gate.callers[n]? with
    | some c => cancelBackground (if c.kind = .background then s.cancelCaller n c else s) rest
    | none => cancelBackground s rest

/-! ## Events -/

def step (now : Stamp) (s : Site) : Event → Site
  | .call kind path =>
    s.withGate fun g => { g with callers := g.callers ++ [⟨kind, path, .called⟩] }
  | .begin n =>
    -- Whoever was cancelled before the first turn does not begin any more.
    match s.gate.callers[n]? with
    | some c => if c.phase = .called then s.begin n c else s
    | none => s
  | .startRun =>
    match s.gate.run with
    | .created path => s.startRun now path
    | _ => s
  | .acquired answer =>
    match s.gate.run with
    | .acquiring path expected => s.finishRun now path expected answer
    | _ => s
  | .wake n =>
    match s.gate.callers[n]?, s.gate.run with
    | some c, .ended _ e => if c.phase = .waiting then s.settle n c.kind e else s
    | _, _ => s
  | .cancel n =>
    match s.gate.callers[n]? with
    | some c => s.cancelCaller n c
    | none => s
  | .shutdown => s.cancelRun.cancelBackground (List.range s.gate.callers.length)
  | .resistedShutdown =>
    match s.gate.run with
    | .acquiring _ _ => s.cancelBackground (List.range s.gate.callers.length)
    | _ => s

/-- Carries out events, one after the other. -/
def run (now : Stamp) (s : Site) (events : List Event) : Site :=
  events.foldl (step now) s

/-- What can go on by itself: callers begin in the order in which they came, then the run starts
and, if the server's answer is there, ends, and those who wait for it learn of that. -/
def goOn (now : Stamp) (answer : Option Acquired) (s : Site) : Site :=
  let numbers := List.range s.gate.callers.length
  let s := s.run now (numbers.map .begin)
  let s := s.step now .startRun
  let s := match answer with
    | some answer => s.step now (.acquired answer)
    | none => s
  s.run now (numbers.map .wake)

end Site

end Gate

end SchemaBaseline
