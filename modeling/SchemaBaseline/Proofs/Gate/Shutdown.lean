import SchemaBaseline.Proofs.Gate.Once
import SchemaBaseline.Proofs.Gate.Reaction

/-!
# A shutdown is final

When a gate is shut down all that goes on by itself comes to its end: every caller in the
background, whether it has not begun, waits for the run or is through, and the run, whether it has
not started or waits for the server's answer. After that a gate that has had a run does nothing
any more. What is known about the validation, the files and the number of times that the server
was asked stay as the shutdown found them; not even the shutdown changes them.

`final_after_shutdown` says so for every time from the shutdown on, whatever else happens. It is
about a server that lets the cancellation through; a shutdown that is resisted is another event.
-/

namespace SchemaBaseline.Gate

open Files (Path Tree)
open Time (Stamp)

/-! ## Ends in the background -/

/-- Nothing that goes wrong comes out of the background, except that one was cancelled. -/
theorem endFor_background (e : CallEnd) :
    endFor .background e = .returned none ∨ endFor .background e = .cancelled := by
  cases e with
  | cancelled => exact .inr rfl
  | returned | incompatible | refused | broke => exact .inl rfl

/-- A caller in the background that has come to an end has returned nothing or was cancelled. -/
def Caller.Quiet (c : Caller) : Prop :=
  c.kind = .background → ∀ e, c.phase = .finished e → e = .returned none ∨ e = .cancelled

theorem Caller.quiet_ended (c : Caller) (e : CallEnd) : (c.ended e).Quiet := by
  intro background e' finished
  obtain rfl := CallPhase.finished.inj finished
  have kind : c.kind = .background := background
  rw [kind]
  exact endFor_background e

theorem Change.quiet {s : Site} {n : Nat} {c c' : Caller} {e : Event}
    (change : Change s n c e c') : c'.Quiet := by
  cases change with
  | wait => exact fun _ _ finished => by cases finished
  | dismiss | comeLate | learn | giveUp | sendAway => exact c.quiet_ended _

theorem quiet_after (mode : Mode) (tree : Tree) (log : List LogEntry) (history : History)
    (n : Nat) (c : Caller)
    (found : ((Site.mk (.fresh mode) tree log).after history).gate.callers[n]? = some c) :
    c.Quiet := by
  refine Site.forall_callers_after ?_ ?_ ?_ history n c found
  · exact fun _ _ _ _ finished => by cases finished
  · exact fun change _ => change.quiet
  · exact fun _ _ none => by cases none

/-! ## Everything comes to its end -/

namespace Site

variable {s : Site}

/-- A shutdown ends whoever is in the background, and they stay so. -/
theorem getElem?_after_shutdown {n : Nat} {c : Caller} (found : s.gate.callers[n]? = some c)
    (background : c.kind = .background) (now : Stamp) (later : History) :
    ((s.step now .shutdown).after later).gate.callers[n]? = some c.cancelled := by
  refine getElem?_after_of_finished ?_ c.isPending_cancelled later
  rw [getElem?_step found, Caller.react, if_pos background]

/-- A run is ended by a shutdown or has ended before. -/
theorem run_shutdown (under : s.core.run ≠ .none) (now : Stamp) :
    ∃ path outcome, (s.step now .shutdown).core = { s.core with run := .ended path outcome } := by
  rw [core_step_of_run under, Core.react]
  cases run : s.core.run with
  | none => exact absurd run under
  | created path => exact ⟨path, .cancelled, by simp only [Core.cancel, run, Core.finish]⟩
  | acquiring path expected =>
    exact ⟨path, .cancelled, by simp only [Core.cancel, run, Core.finish]⟩
  | ended path outcome => exact ⟨path, outcome, by simp only [Core.cancel, run]; rw [← run]⟩

/-- With a run, nothing that the callers share changes from a shutdown on except that the run has
ended. -/
theorem core_after_shutdown (under : s.core.run ≠ .none) (now : Stamp) (later : History) :
    ∃ path outcome, ((s.step now .shutdown).after later).core =
      { s.core with run := .ended path outcome } := by
  obtain ⟨path, outcome, shut⟩ := run_shutdown under now
  have ended : (s.step now .shutdown).core.run = .ended path outcome := by rw [shut]
  exact ⟨path, outcome, (core_after_of_ended ended later).trans shut⟩

end Site

theorem Caller.exists_cancelled_eq (c : Caller) :
    ∃ e, c.cancelled = { c with phase := .finished e } ∧
      (c.isPending = true → e = .cancelled) := by
  unfold cancelled
  split
  · exact ⟨_, rfl, fun _ => endFor_cancelled c.kind⟩
  · rename_i finished
    cases phase : c.phase with
    | finished e => exact ⟨e, by rw [← phase], fun pending => absurd pending finished⟩
    | called | waiting => simp [isPending, phase] at finished

/-- From a shutdown on, whatever has happened at the gate before and whatever happens later:
everyone who was in the background is through, cancelled unless they were through before; before
and after, nobody in the background comes away with anything but being cancelled or nothing at
all; and if there was a run it has ended, while what is known about the validation, the files and
the number of times that the server was asked are as the shutdown found them. -/
theorem final_after_shutdown (mode : Mode) (tree : Tree) (log : List LogEntry) (history : History)
    (now : Stamp) (later : History) :
    let s := (Site.mk (.fresh mode) tree log).after history
    let t := (s.step now .shutdown).after later
    (∀ (n : Nat) (c : Caller), s.gate.callers[n]? = some c → c.kind = .background →
      ∃ e, t.gate.callers[n]? = some { c with phase := .finished e } ∧
        (c.isPending = true → e = .cancelled)) ∧
    (∀ (n : Nat) (c : Caller) (e : CallEnd), s.gate.callers[n]? = some c ∨
      t.gate.callers[n]? = some c → c.kind = .background →
      c.phase = .finished e → e = .returned none ∨ e = .cancelled) ∧
    (s.gate.run ≠ .none →
      (∃ path outcome, t.gate.run = .ended path outcome) ∧
        t.gate.progress = s.gate.progress ∧ t.tree = s.tree ∧
          t.gate.tally.acquires = s.gate.tally.acquires) := by
  intro s t
  refine ⟨fun n c found background => ?_, fun n c e found background finished => ?_,
    fun under => ?_⟩
  · obtain ⟨e, same, gaveUp⟩ := c.exists_cancelled_eq
    exact ⟨e, same ▸ Site.getElem?_after_shutdown found background now later, gaveUp⟩
  · have whole :
        t = (Site.mk (.fresh mode) tree log).after (history ++ (now, .shutdown) :: later) :=
      (Site.after_append _ history ((now, .shutdown) :: later)).symm
    rcases found with before | after
    · exact quiet_after mode tree log history n c before background e finished
    · rw [whole] at after
      exact quiet_after mode tree log _ n c after background e finished
  · obtain ⟨path, outcome, shut⟩ := Site.core_after_shutdown (s := s) under now later
    exact ⟨⟨path, outcome, congrArg Core.run shut⟩, congrArg Core.progress shut,
      congrArg Core.tree shut, congrArg (·.tally.acquires) shut⟩

/-- A shutdown while one caller in the background waits for the server and another has not begun.
The server's answer comes too late, and so does one more caller. -/
theorem final_after_shutdown_asking :
    let path : Path := ⟨"", ["schema.json"]⟩
    let asking : History :=
      [(default, .call .background path), (default, .begin 0), (default, .startRun),
        (default, .call .background path)]
    let later : History :=
      [(default, .acquired (.error (.refused "down"))), (default, .call .foreground path),
        (default, .begin 2)]
    let t :=
      (((Site.mk (.fresh .strict) .empty []).after asking).step default .shutdown).after later
    t.gate.callers[0]? = some ⟨.background, path, .finished .cancelled⟩ ∧
      t.gate.callers[1]? = some ⟨.background, path, .finished .cancelled⟩ ∧
      t.gate.progress = .validating ∧ t.tree = .empty ∧ t.gate.tally.acquires = 1 := by
  intro path asking later
  obtain ⟨background, -, once⟩ := final_after_shutdown .strict .empty [] asking default later
  have waits : ((Site.mk (.fresh .strict) .empty []).after asking).gate.callers[0]? =
      some ⟨.background, path, .waiting⟩ := by
    decide +kernel
  have called : ((Site.mk (.fresh .strict) .empty []).after asking).gate.callers[1]? =
      some ⟨.background, path, .called⟩ := by
    decide +kernel
  have under : ((Site.mk (.fresh .strict) .empty []).after asking).gate.run =
      .acquiring path none := by decide +kernel
  have validating : ((Site.mk (.fresh .strict) .empty []).after asking).gate.progress =
      .validating := by decide +kernel
  have untouched : ((Site.mk (.fresh .strict) .empty []).after asking).tree = .empty := by
    decide +kernel
  have asked : ((Site.mk (.fresh .strict) .empty []).after asking).gate.tally.acquires = 1 := by
    decide +kernel
  obtain ⟨e, first, gaveUp⟩ := background 0 _ waits rfl
  obtain ⟨e', second, gaveUp'⟩ := background 1 _ called rfl
  obtain ⟨-, progress, tree, acquires⟩ := once (by rw [under]; exact Run.noConfusion)
  rw [gaveUp rfl] at first
  rw [gaveUp' rfl] at second
  rw [validating] at progress
  rw [untouched] at tree
  rw [asked] at acquires
  exact ⟨first, second, progress, tree, acquires⟩

end SchemaBaseline.Gate
