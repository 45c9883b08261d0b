import SchemaBaseline.Gate.Step

/-!
# What the callers of a gate share

`Gate.Core` is a site without its callers and its log: the mode, the run with its progress and its
tally, and the files. An event reaches it in one of two ways only.

* `Core.react`: the run starts, is answered or is cancelled. Who the callers are and how far each
  has come does not enter.
* A caller that has not begun gets its turn while there is no run yet, and creates it.

`Site.core_step` says so for every event; all that is known about runs is derived from it, with no
event looked at again.
-/

namespace SchemaBaseline

open Files (Path Tree)
open Time (Stamp)

/-! ## What a run makes known -/

namespace Progress

/-- Nothing has happened. -/
abbrev unstarted : Progress := {}

/-- A run has started. -/
abbrev validating : Progress where
  status := .validating

/-- A run has compared schemas. -/
abbrev compared (result : Findings) (time : Stamp) : Progress where
  status := if result.isValid then .valid else .invalid
  result := some result
  endedAt := some time

/-- A run has not compared schemas since there was no baseline. -/
abbrev baselineCreated (time : Stamp) : Progress where
  status := .baselineCreated
  endedAt := some time

/-- A run has failed. -/
abbrev failed (message : String) (time : Stamp) : Progress where
  status := .failed
  endedAt := some time
  error := some message

end Progress

namespace Gate

/-- What all callers of a gate share. -/
structure Core where
  mode : Mode
  run : Run
  progress : Progress
  tally : Tally
  tree : Tree
deriving Repr, DecidableEq

/-- The part of a site that all callers share. -/
def Site.core (s : Site) : Core :=
  ⟨s.gate.mode, s.gate.run, s.gate.progress, s.gate.tally, s.tree⟩

namespace Core

/-- The core once the server has been asked. -/
def ask (c : Core) (path : Path) (expected : Option Snapshot) : Core :=
  { c with
    run := .acquiring path expected
    progress := .validating
    tally := { c.tally with loads := c.tally.loads + 1, acquires := c.tally.acquires + 1 } }

/-- The core once the run has ended. -/
def finish (c : Core) (path : Path) (progress : Progress) (e : RunEnd) : Core :=
  { c with run := .ended path e, progress }

/-- The core once the run has broken down. -/
def fail (c : Core) (now : Stamp) (path : Path) (b : Breakdown) : Core :=
  c.finish path (.failed b.message now) (.broke b)

/-- The core with one more load counted. -/
def countLoad (c : Core) : Core :=
  { c with tally := { c.tally with loads := c.tally.loads + 1 } }

/-- The core with one more comparison counted. -/
def countComparison (c : Core) : Core :=
  { c with tally := { c.tally with comparisons := c.tally.comparisons + 1 } }

/-- The core once a schema has been stored, or could not be. -/
def store (c : Core) (path : Path) (actual : Snapshot) : Core :=
  { c with
    tally := { c.tally with saves := c.tally.saves + 1 }
    tree := (Baseline.save c.tree path actual).1 }

/-- The schema of the server becomes the baseline, unless storing it breaks down. -/
def createBaseline (c : Core) (now : Stamp) (path : Path) (actual : Snapshot) : Core :=
  match (Baseline.save c.tree path actual).2 with
  | .error (.broke b) => (c.store path actual).fail now path b
  | _ => (c.store path actual).finish path (.baselineCreated now) (.completed none)

/-- What a run ends in that has stored the baseline or has tried to. -/
def endOfSaving : Except Baseline.SaveFailure Unit → RunEnd
  | .error (.broke b) => .broke b
  | _ => .completed none

theorem endOfSaving_ne_cancelled (saved : Except Baseline.SaveFailure Unit) :
    endOfSaving saved ≠ .cancelled := by
  rcases saved with (e | b) | _ <;> exact RunEnd.noConfusion

theorem createBaseline_eq (c : Core) (now : Stamp) (path : Path) (actual : Snapshot) :
    (c.createBaseline now path actual).run =
        .ended path (endOfSaving (Baseline.save c.tree path actual).2) ∧
      (c.createBaseline now path actual).tree = (Baseline.save c.tree path actual).1 := by
  unfold createBaseline
  rcases (Baseline.save c.tree path actual).2 with (e | b) | _ <;> exact ⟨rfl, rfl⟩

/-- The run starts: the baseline is loaded, and unless that breaks down the server is asked. -/
def start (c : Core) (now : Stamp) (path : Path) : Core :=
  match Baseline.load now c.tree path with
  | .ok expected => c.ask path (some expected)
  | .error (.defect _) => c.ask path none
  | .error (.broke b) => c.countLoad.fail now path b

/-- The server has answered, which ends the run. -/
def answer (c : Core) (now : Stamp) (path : Path) (expected : Option Snapshot)
    (answer : Acquired) : Core :=
  match answer, expected with
  | .ok actual, some expected =>
    match expected.compare actual with
    | .ok result =>
      c.countComparison.finish path (.compared result now) (.completed (some result))
    | .error e => c.countComparison.fail now path (.malformedRef e)
  | .ok actual, none => c.createBaseline now path actual
  | .error (.refused message), _ => c.finish path (.failed message now) (.refused message)
  | .error (.broke b), _ => c.fail now path b
  | .error .cancelled, _ => c.finish path c.progress .cancelled

/-- A run that is under way is cancelled. It keeps the progress it has made. -/
def cancel (c : Core) : Core :=
  match c.run with
  | .created path => c.finish path c.progress .cancelled
  | .acquiring path _ => c.finish path c.progress .cancelled
  | _ => c

/-- What an event does to the core, whoever the callers are. -/
def react (now : Stamp) (c : Core) : Event → Core
  | .startRun =>
    match c.run with
    | .created path => c.start now path
    | _ => c
  | .acquired answer =>
    match c.run with
    | .acquiring path expected => c.answer now path expected answer
    | _ => c
  | .shutdown => c.cancel
  | _ => c

end Core

namespace Site

/-! ## Callers leave the core alone -/

@[simp]
theorem core_note (s : Site) (entries : List LogEntry) : (s.note entries).core = s.core :=
  rfl

@[simp]
theorem core_setPhase (s : Site) (caller : Nat) (phase : CallPhase) :
    (s.setPhase caller phase).core = s.core :=
  rfl

@[simp]
theorem core_finish (s : Site) (caller : Nat) (kind : CallKind) (e : CallEnd) :
    (s.finish caller kind e).core = s.core :=
  rfl

@[simp]
theorem core_settle (s : Site) (caller : Nat) (kind : CallKind) (e : RunEnd) :
    (s.settle caller kind e).core = s.core :=
  rfl

@[simp]
theorem core_noteIgnored (s : Site) : s.noteIgnored.core = s.core := by
  unfold noteIgnored
  split <;> rfl

@[simp]
theorem gate_notePath (s : Site) (path : Path) : (s.notePath path).gate = s.gate := by
  unfold notePath
  split
  · rfl
  · split <;> rfl

@[simp]
theorem core_notePath (s : Site) (path : Path) : (s.notePath path).core = s.core := by
  unfold notePath
  split
  · rfl
  · split <;> rfl

@[simp]
theorem core_cancelCaller (s : Site) (caller : Nat) (c : Caller) :
    (s.cancelCaller caller c).core = s.core := by
  unfold cancelCaller
  split <;> simp

@[simp]
theorem core_cancelBackground (s : Site) (callers : List Nat) :
    (s.cancelBackground callers).core = s.core := by
  induction callers generalizing s with
  | nil => rfl
  | cons n rest ih =>
    rw [cancelBackground]
    split
    · rw [ih]
      split <;> simp
    · exact ih s

/-! ## What the run does to the core -/

theorem core_startRun (s : Site) (now : Stamp) (path : Path) :
    (s.startRun now path).core = s.core.start now path := by
  have sameTree : s.core.tree = s.tree := rfl
  rcases loaded : Baseline.load now s.tree path with (defect | b) | expected
  all_goals
    simp only [startRun, Core.start, note, withGate, sameTree, loaded]
    rfl

theorem core_createBaseline (s : Site) (now : Stamp) (path : Path) (actual : Snapshot) :
    (s.createBaseline now path actual).core = s.core.createBaseline now path actual := by
  have sameTree : s.core.tree = s.tree := rfl
  rcases saved : Baseline.save s.tree path actual with ⟨tree, (e | b) | _⟩
  all_goals
    simp only [createBaseline, Core.createBaseline, Core.store, withGate, sameTree, saved]
    rfl

theorem core_finishRun (s : Site) (now : Stamp) (path : Path) (expected : Option Snapshot)
    (answer : Acquired) :
    (s.finishRun now path expected answer).core = s.core.answer now path expected answer := by
  rcases answer with (message | b | _) | actual
  · rfl
  · rfl
  · rfl
  · cases expected with
    | none => exact core_createBaseline s now path actual
    | some expected =>
      rcases compared : expected.compare actual with e | result
      all_goals
        simp only [finishRun, compare, Core.answer, compared]
        rfl

theorem core_cancelRun (s : Site) : s.cancelRun.core = s.core.cancel := by
  have sameRun : s.core.run = s.gate.run := rfl
  rcases under : s.gate.run with _ | path | ⟨path, expected⟩ | ⟨path, outcome⟩
  all_goals simp only [cancelRun, Core.cancel, sameRun, under]
  · rfl
  · rfl

/-- Where there is something to validate and no run yet, the caller whose turn comes creates the
run. -/
theorem core_begin_of_idle {s : Site} (active : s.core.mode ≠ .ignore) (idle : s.core.run = .none)
    (caller : Nat) (c : Caller) :
    (s.begin caller c).core = { s.core with run := .created c.path } := by
  have noRun : s.gate.run = .none := idle
  have wanted : s.gate.mode ≠ .ignore := active
  have sameTree : (s.notePath c.path).tree = s.tree := congrArg Core.tree (core_notePath s c.path)
  unfold begin
  rw [if_neg wanted]
  simp only [gate_notePath, noRun]
  rw [core_setPhase]
  simp only [core, withGate, gate_notePath, sameTree]

/-- A caller that gets its turn leaves the core alone, or it is the first one and creates the
run. -/
theorem core_begin (s : Site) (caller : Nat) (c : Caller) :
    (s.begin caller c).core = s.core ∨
      s.core.mode ≠ .ignore ∧ s.core.run = .none ∧
        (s.begin caller c).core = { s.core with run := .created c.path } := by
  by_cases ignore : s.gate.mode = .ignore
  · left
    rw [begin, if_pos ignore]
    simp
  · by_cases idle : s.gate.run = .none
    · exact .inr ⟨ignore, idle, core_begin_of_idle ignore idle caller c⟩
    · left
      unfold begin
      rw [if_neg ignore]
      simp only [gate_notePath]
      split
      · contradiction
      · simp
      · simp

/-! ## Events -/

/-- The first caller's turn creates the run. -/
theorem core_step_begin_of_idle {s : Site} (active : s.core.mode ≠ .ignore)
    (idle : s.core.run = .none) {n : Nat} {c : Caller} (found : s.gate.callers[n]? = some c)
    (called : c.phase = .called) (now : Stamp) :
    (s.step now (.begin n)).core = { s.core with run := .created c.path } := by
  simp only [step, found, if_pos called]
  exact core_begin_of_idle active idle n c

/-- What any event does to the core. -/
theorem core_step (s : Site) (now : Stamp) (e : Event) :
    (s.step now e).core = s.core.react now e ∨
      ∃ n c, e = .begin n ∧ s.gate.callers[n]? = some c ∧ c.phase = .called ∧
        s.core.mode ≠ .ignore ∧ s.core.run = .none ∧
        (s.step now e).core = { s.core with run := .created c.path } := by
  have sameRun : s.core.run = s.gate.run := rfl
  cases e with
  | call kind path => exact .inl rfl
  | «begin» n =>
    simp only [step, Core.react]
    split
    · rename_i c found
      split
      · rename_i called
        rcases core_begin s n c with same | ⟨active, idle, created⟩
        · exact .inl same
        · exact .inr ⟨n, c, rfl, found, called, active, idle, created⟩
      · exact .inl rfl
    · exact .inl rfl
  | startRun =>
    left
    rcases under : s.gate.run with _ | path | ⟨path, expected⟩ | ⟨path, outcome⟩
    all_goals simp only [step, Core.react, sameRun, under]
    exact core_startRun s now path
  | acquired answer =>
    left
    rcases under : s.gate.run with _ | path | ⟨path, expected⟩ | ⟨path, outcome⟩
    all_goals simp only [step, Core.react, sameRun, under]
    exact core_finishRun s now path expected answer
  | wake n =>
    left
    simp only [step, Core.react]
    split
    · split <;> simp
    · rfl
  | cancel n =>
    left
    simp only [step, Core.react]
    split
    · exact core_cancelCaller s n _
    · rfl
  | shutdown =>
    left
    rw [step, core_cancelBackground, core_cancelRun, Core.react]
  | resistedShutdown =>
    left
    simp only [step, Core.react]
    split
    · exact core_cancelBackground s _
    · rfl

end Site

end Gate

end SchemaBaseline
