import SchemaBaseline.Gate.Visit
import SchemaBaseline.Proofs.Gate.Bootstrap
import SchemaBaseline.Proofs.Introspection.Times

/-!
# What a validation comes to

A gate does not ask the server itself; it is told the answer. `History.Asks` brings the two
together: what a gate has been told is what a client has got from the server. Then a validation
that has come to its end, with a baseline there, depends on the baseline and the server alone. It
has compared, if that leads to findings (`Snapshot.findings?`), and has failed otherwise
(`Validates.cases`). Who has come to the gate, in what order and at what time, does not matter;
`validates_visit` says that a single visit will do.
-/

namespace SchemaBaseline

open Files (Path Tree)
open Introspection (AcquireError Client Exchange Server)
open Time (Stamp)

/-- The findings about what has been acquired, if a comparison with a baseline comes to any. -/
def Snapshot.findings? (known : Snapshot) (acquired : Except AcquireError Snapshot) :
    Option Findings :=
  match acquired with
  | .ok actual => (known.compare actual).toOption
  | .error _ => none

/-- Only the schemas count. -/
theorem Snapshot.findings?_eq {known known' : Snapshot}
    {acquired acquired' : Except AcquireError Snapshot} (same : known'.schema = known.schema)
    (alike : acquired.map Snapshot.schema = acquired'.map Snapshot.schema) :
    known'.findings? acquired' = known.findings? acquired := by
  rcases acquired with e | actual <;> rcases acquired' with e' | actual'
  · rfl
  · cases alike
  · cases alike
  · have schemas : actual.schema = actual'.schema := Except.ok.inj alike
    simp only [findings?, compare, same, schemas]

namespace Gate

/-! ## Answers of a client -/

theorem Acquired.of_eq_ok_iff {result : Except AcquireError Snapshot} {s : Snapshot} :
    Acquired.of result = .ok s ↔ result = .ok s := by
  rcases result with (refusal | b) | s' <;> simp [Acquired.of]

theorem Acquired.exists_error_of_eq_error {result : Except AcquireError Snapshot}
    {failure : AcquireFailure} (failed : Acquired.of result = .error failure) :
    ∃ e, result = .error e := by
  rcases result with e | s
  · exact ⟨e, rfl⟩
  · cases failed

/-- Who asks as a client does not get cancelled. -/
theorem Acquired.of_ne_cancelled (result : Except AcquireError Snapshot) :
    Acquired.of result ≠ .error .cancelled := by
  rcases result with (refusal | b) | s <;> simp [Acquired.of]

/-- Whatever a gate has been told is what the client got from a server that it had not asked for
anything before. Nobody has shut the gate down. -/
structure History.Asks (history : History) (client : Client) (server : Server) : Prop where
  answers : ∀ now answer, (now, .acquired answer) ∈ history →
    ∃ time log, answer = .of (client.acquire time server ⟨[], log⟩).1
  unclosed : ∀ now, (now, .shutdown) ∉ history

/-- A fresh gate has come to the end of a validation against the baseline at a path, and this is
what is known then. -/
def Validates (client : Client) (server : Server) (mode : Mode) (tree : Tree) (path : Path)
    (progress : Progress) : Prop :=
  ∃ log history, History.Asks history client server ∧
    (∃ outcome, ((Site.mk (.fresh mode) tree log).after history).core.run = .ended path outcome) ∧
    ((Site.mk (.fresh mode) tree log).after history).core.progress = progress

variable {client : Client} {server : Server} {mode : Mode} {tree : Tree} {path : Path}
    {progress : Progress}

/-! ## Ends -/

theorem Stage.exists_failed_of_refused {tally : Tally} {message : String}
    (stage : Stage (.ended path (.refused message)) progress tally) :
    ∃ text time, progress = .failed text time := by
  cases stage
  exact ⟨_, _, rfl⟩

theorem Stage.exists_failed_of_broke {tally : Tally} {b : Breakdown}
    (stage : Stage (.ended path (.broke b)) progress tally) :
    ∃ text time, progress = .failed text time := by
  cases stage <;> exact ⟨_, _, rfl⟩

/-- Where there is a baseline, a validation ends with the findings about what the client gets, or
it fails if there are none. -/
theorem Validates.cases (validates : Validates client server mode tree path progress)
    {time : Stamp} {known : Snapshot}
    (loaded : Baseline.load time tree path = .ok known) (now : Stamp) {x : Exchange}
    (first : x.sent = []) :
    (∃ findings ended, known.findings? (client.acquire now server x).1 = some findings ∧
      progress = .compared findings ended) ∨
      known.findings? (client.acquire now server x).1 = none ∧
        ∃ message ended, progress = .failed message ended := by
  obtain ⟨log, history, asks, ⟨outcome, ended⟩, rfl⟩ := validates
  obtain ⟨here, origin⟩ : ∃ here, Origin tree history (.ended path outcome) here :=
    ⟨_, ended ▸ Site.origin_after mode tree log history⟩
  have stage := (Site.lawful_after (Site.lawful_fresh mode tree log) history).stage
  rw [ended] at stage
  have there (other : Stamp) : ∃ s, Baseline.load other tree path = .ok s :=
    Baseline.exists_load_of_load loaded other
  -- What the gate has been told is what the client gets at any other time.
  have told {answer : Acquired} {hour : Stamp} (answered : (hour, .acquired answer) ∈ history) :
      ∃ result, answer = .of result ∧
        result.map Snapshot.schema = (client.acquire now server x).1.map Snapshot.schema := by
    obtain ⟨asked, log', rfl⟩ := asks.answers hour answer answered
    exact ⟨_, rfl, (Introspection.schema_acquire_eq client server asked now
      (x := ⟨[], log'⟩) first.symm).1⟩
  have compared {known' actual : Snapshot} {hour : Stamp} (asked : Asked tree history path
      (some known')) (answered : (hour, .acquired (.ok actual)) ∈ history) :
      known.findings? (client.acquire now server x).1 = (known'.compare actual).toOption := by
    obtain ⟨start, -, loaded'⟩ := asked
    obtain ⟨result, same, alike⟩ := told answered
    obtain rfl := Acquired.of_eq_ok_iff.mp same.symm
    exact Snapshot.findings?_eq (Baseline.schema_eq_of_load loaded' loaded) alike
  have failed {failure : AcquireFailure} {hour : Stamp} (answered :
      (hour, .acquired (.error failure)) ∈ history) :
      known.findings? (client.acquire now server x).1 = none := by
    obtain ⟨result, same, alike⟩ := told answered
    obtain ⟨e, rfl⟩ := Acquired.exists_error_of_eq_error same.symm
    exact Snapshot.findings?_eq rfl alike
  cases origin with
  | unreadable _ b start _ broke =>
    obtain ⟨s, loaded'⟩ := there start
    cases broke.symm.trans loaded'
  | compared _ known' actual result asked hour answered comparison =>
    obtain ⟨time', same⟩ := stage.of_completed_some.1
    exact .inl ⟨result, time', by rw [compared asked answered, comparison]; rfl, same⟩
  | incomparable _ known' actual e asked hour answered comparison =>
    exact .inr ⟨by rw [compared asked answered, comparison]; rfl, stage.exists_failed_of_broke⟩
  | stored _ _ asked =>
    obtain ⟨start, -, defect, unloadable⟩ := asked
    obtain ⟨s, loaded'⟩ := there start
    cases unloadable.symm.trans loaded'
  | refused _ _ _ _ hour answered => exact .inr ⟨failed answered, stage.exists_failed_of_refused⟩
  | failed _ _ _ _ hour answered => exact .inr ⟨failed answered, stage.exists_failed_of_broke⟩
  | cancelled _ hour e cause happened =>
    rcases cause with rfl | rfl
    · exact absurd happened (asks.unclosed hour)
    · obtain ⟨result, same, -⟩ := told happened
      exact absurd same.symm (Acquired.of_ne_cancelled result)

/-- Where a comparison comes to findings, the validation has come to them. -/
theorem Validates.exists_compared (validates : Validates client server mode tree path progress)
    {time now : Stamp} {known actual : Snapshot} {findings : Findings} {x : Exchange}
    (loaded : Baseline.load time tree path = .ok known) (first : x.sent = [])
    (acquired : (client.acquire now server x).1 = .ok actual)
    (comparison : known.compare actual = .ok findings) :
    ∃ ended, progress = .compared findings ended := by
  have found : known.findings? (client.acquire now server x).1 = some findings := by
    rw [acquired, Snapshot.findings?, comparison]
    rfl
  rcases validates.cases loaded now first with ⟨findings', ended, found', rfl⟩ | ⟨nothing, -⟩
  · cases found.symm.trans found'
    exact ⟨ended, rfl⟩
  · cases nothing.symm.trans found

/-! ## Visits -/

theorem Site.core_step_wake {s : Site} (under : s.core.run ≠ .none) (now : Stamp) (caller : Nat) :
    (s.step now (.wake caller)).core = s.core :=
  core_step_of_run under now (.wake caller)

/-- Once there is a run, a visit has it answered with what the client gets. -/
theorem Site.core_visit {s : Site} {now : Stamp} {kind : CallKind} {x : Exchange}
    (under : (s.arrive now kind path).core.run ≠ .none) :
    (s.visit now client server kind path x).1.core =
      ((s.arrive now kind path).step now
        (.acquired (.of (client.acquire now server { x with log := [] }).1))).core := by
  generalize arrived : s.arrive now kind path = t at under ⊢
  have answered := core_step_of_run under now
    (.acquired (.of (client.acquire now server { x with log := [] }).1))
  unfold visit
  simp only [arrived]
  cases run : t.gate.run with
  | acquiring =>
    simp only
    have noted :
        (t.note (client.acquire now server { x with log := [] }).2.log).core.run ≠ .none := under
    have under' := (move_step _ now
      (.acquired (.of (client.acquire now server { x with log := [] }).1))).run_ne_none noted
    rw [run_eq_after, List.map_cons, List.map_cons, after_cons, after_cons, List.map_nil,
      after_nil, core_step_wake under', core_step_of_run noted, answered, core_note]
  | _ =>
    have run : t.core.run = _ := run
    rw [answered, Core.react, run]
    exact core_step_wake under now _

/-- At a fresh gate the first caller creates the run. -/
theorem Site.core_calls (active : mode ≠ .ignore) (tree : Tree) (log : List LogEntry)
    (now : Stamp) (kind : CallKind) (path : Path) :
    ((Site.mk (.fresh mode) tree log).after [(now, .call kind path), (now, .begin 0)]).core =
      { (Site.mk (.fresh mode) tree log).core with run := .created path } := by
  let called := (Site.mk (.fresh mode) tree log).step now (.call kind path)
  have found : called.gate.callers[0]? = some ⟨kind, path, .called⟩ := rfl
  exact core_step_begin_of_idle (s := called) active rfl found rfl now

/-- A single visit brings a validation to its end, unless nothing is to be validated. -/
theorem validates_visit (active : mode ≠ .ignore) (client : Client) (server : Server)
    (tree : Tree) (log : List LogEntry) (now : Stamp) (kind : CallKind) (path : Path)
    {x : Exchange} (first : x.sent = []) :
    Validates client server mode tree path
      ((Site.mk (.fresh mode) tree log).visit now client server kind path x).1.gate.progress := by
  let calls : History := [(now, .call kind path), (now, .begin 0)]
  let answer : Acquired := .of (client.acquire now server { x with log := [] }).1
  let called := (Site.mk (.fresh mode) tree log).after calls
  have created : called.core.run = .created path :=
    congrArg Core.run (Site.core_calls active tree log now kind path)
  have mine : called.core.run.path? = some path := by rw [created]; rfl
  have whole : (Site.mk (.fresh mode) tree log).after (calls ++ turns now now answer) =
      called.after (turns now now answer) :=
    Site.after_append _ _ _
  have under : (called.step now .startRun).core.run ≠ .none :=
    (Site.move_step called now .startRun).run_ne_none (by rw [created]; exact Run.noConfusion)
  have visited : ((Site.mk (.fresh mode) tree log).visit now client server kind path x).1.core =
      (called.after (turns now now answer)).core := Site.core_visit under
  refine ⟨log, calls ++ turns now now answer,
    ⟨fun hour told happened => ?_, fun hour happened => ?_⟩, ?_, ?_⟩
  · simp only [calls, turns, List.mem_append, List.mem_cons, Prod.mk.injEq, reduceCtorEq,
      and_false, Event.acquired.injEq, List.not_mem_nil, or_false, false_or] at happened
    obtain ⟨-, rfl⟩ := happened
    exact ⟨now, [], by rw [← first]⟩
  · simp [calls, turns] at happened
  · rw [whole]
    exact Site.exists_turns_ended mine now now answer
  · rw [whole, ← visited]
    rfl

/-- A visit to a gate that finds a baseline sends what the client sends. -/
theorem sent_visit (active : mode ≠ .ignore) (client : Client) (server : Server)
    (log : List LogEntry) {now : Stamp} (kind : CallKind) {known : Snapshot}
    (loaded : Baseline.load now tree path = .ok known) (x : Exchange) :
    ((Site.mk (.fresh mode) tree log).visit now client server kind path x).2.sent =
      (client.acquire now server { x with log := [] }).2.sent := by
  let called := (Site.mk (.fresh mode) tree log).after [(now, .call kind path), (now, .begin 0)]
  have created : called.core = _ := Site.core_calls active tree log now kind path
  have asking : (called.step now .startRun).core.run = .acquiring path (some known) := by
    have under : called.core.run ≠ .none := by rw [created]; exact Run.noConfusion
    have files : called.core.tree = tree := by rw [created]; rfl
    have run : called.core.run = .created path := by rw [created]
    rw [Site.core_step_of_run under, Core.react, run]
    simp only [Core.start, files, loaded, Core.ask]
  have asking : ((Site.mk (.fresh mode) tree log).arrive now kind path).gate.run =
      .acquiring path (some known) := asking
  simp only [Site.visit, asking]

end Gate

end SchemaBaseline
