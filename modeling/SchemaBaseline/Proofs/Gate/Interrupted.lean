import SchemaBaseline.Proofs.Gate.Once
import SchemaBaseline.Proofs.Gate.Status

/-!
# A run that is interrupted

A run that comes to an end by itself leaves a final status behind, whether it compared, created a
baseline or failed. One that is cancelled while the server is being asked does not: it keeps the
progress it had made, and since nothing changes at a gate whose run has ended, the gate says
`validating` from then on although no validation is under way.

`Site.Interrupted` says of a history that this has happened in it. `status_of_ended_after` shows
that it is the only way in which a started run can end without a final status, and that there is
no way out of it.
-/

namespace SchemaBaseline.Gate

open Files (Path Tree)
open Time (Stamp)
open Progress (finalStatuses)

/-! ## Where the run was cancelled -/

namespace Core

variable {c : Core} {path : Path} {expected : Option Snapshot}

/-- While the server is being asked, two events cancel the run. -/
theorem eq_of_react_cancelled (acquiring : c.run = .acquiring path expected) {now : Stamp}
    {e : Event} {path' : Path} (cancelled : (c.react now e).run = .ended path' .cancelled) :
    e = .shutdown ∨ e = .acquired (.error .cancelled) := by
  cases e with
  | shutdown => exact .inl rfl
  | acquired answer =>
    right
    simp only [react, acquiring] at cancelled
    rcases answer with (message | b | _) | actual
    · cases cancelled
    · cases cancelled
    · rfl
    · cases expected with
      | none =>
        rw [answer, (createBaseline_eq c now path actual).1] at cancelled
        exact absurd (Run.ended.inj cancelled).2 (endOfSaving_ne_cancelled _)
      | some known =>
        simp only [answer] at cancelled
        split at cancelled <;> cases cancelled
  | startRun | call | «begin» | wake | cancel | resistedShutdown =>
    simp only [react, acquiring] at cancelled
    cases cancelled

/-- Both of them cancel it, and the progress stays as it is. -/
theorem react_of_acquiring (acquiring : c.run = .acquiring path expected) {now : Stamp}
    {e : Event} (cause : e = .shutdown ∨ e = .acquired (.error .cancelled)) :
    c.react now e = c.finish path c.progress .cancelled := by
  rcases cause with rfl | rfl
  · simp only [react, cancel, acquiring]
  · simp only [react, acquiring, answer]

/-- A move that cancels a run finds it waiting for its turn or for the server. -/
theorem Move.cases_of_cancelled {now : Stamp} {c' : Core} (move : c.Move now c')
    (cancelled : c'.run = .ended path .cancelled) :
    c' = c ∨ c.run = .created path ∧ c' = c.finish path c.progress .cancelled ∨
      ∃ expected, c.run = .acquiring path expected := by
  cases move with
  | stay => exact .inl rfl
  | cancelCreated own created =>
    obtain ⟨rfl, -⟩ := Run.ended.inj cancelled
    exact .inr (.inl ⟨created, rfl⟩)
  | cancelAcquiring own expected acquiring =>
    obtain ⟨rfl, -⟩ := Run.ended.inj cancelled
    exact .inr (.inr ⟨expected, acquiring⟩)
  | create | askKnown | askUnknown | failLoading | compare | failComparing | store | failStoring
  | refuse | failAsking =>
    cases cancelled

end Core

namespace Site

/-- In the course of a history the run is cancelled while the server is being asked. -/
def Interrupted (s : Site) (history : History) : Prop :=
  ∃ earlier now e later path expected, history = earlier ++ (now, e) :: later ∧
    (s.after earlier).gate.run = .acquiring path expected ∧
      (e = .shutdown ∨ e = .acquired (.error .cancelled))

variable {s : Site} {history : History} {path : Path}

theorem core_step_of_acquiring {expected : Option Snapshot}
    (acquiring : s.core.run = .acquiring path expected) (now : Stamp) (e : Event) :
    (s.step now e).core = s.core.react now e := by
  have under : s.core.run ≠ .none := by rw [acquiring]; exact Run.noConfusion
  exact core_step_of_run under now e

theorem Interrupted.append (interrupted : s.Interrupted history) (later : History) :
    s.Interrupted (history ++ later) := by
  obtain ⟨earlier, now, e, later', path, expected, rfl, acquiring, cause⟩ := interrupted
  exact ⟨earlier, now, e, later' ++ later, path, expected, by simp, acquiring, cause⟩

/-- An interrupted run has ended without getting any further. -/
theorem Interrupted.core_after (interrupted : s.Interrupted history) (lawful : s.core.Lawful) :
    (∃ path, (s.after history).core.run = .ended path .cancelled) ∧
      (s.after history).core.progress = .validating := by
  obtain ⟨earlier, now, e, later, path, expected, rfl, acquiring, cause⟩ := interrupted
  have acquiring : (s.after earlier).core.run = .acquiring path expected := acquiring
  obtain ⟨validating, -⟩ := (acquiring ▸ (lawful_after lawful earlier).stage).of_acquiring
  have cancelled : ((s.after earlier).step now e).core =
      (s.after earlier).core.finish path .validating .cancelled := by
    rw [core_step_of_acquiring acquiring, Core.react_of_acquiring acquiring cause, validating]
  have ended : ((s.after earlier).step now e).core.run = .ended path .cancelled := by
    rw [cancelled, Core.finish]
  rw [after_append, after_cons, core_after_of_ended ended, cancelled]
  exact ⟨⟨path, rfl⟩, rfl⟩

/-- A run that has started and ends cancelled was interrupted. -/
theorem interrupted_of_cancelled (lawful : s.core.Lawful) (idle : s.core.run = .none)
    (cancelled : (s.after history).core.run = .ended path .cancelled)
    (started : 0 < (s.after history).core.tally.loads) :
    s.Interrupted history := by
  -- From the end, since what counts is which event has cancelled the run.
  induction history using List.reverseRecOn with
  | nil =>
    rw [after_nil, idle] at cancelled
    cases cancelled
  | append_singleton earlier moment ih =>
    obtain ⟨now, e⟩ := moment
    rw [after_concat] at cancelled started
    rcases (move_step (s.after earlier) now e).cases_of_cancelled cancelled with
      same | ⟨created, unchanged⟩ | ⟨expected, acquiring⟩
    · rw [same] at cancelled started
      exact (ih cancelled started).append [(now, e)]
    · -- Cancelled before its turn, it has not started.
      obtain ⟨-, tally⟩ := (created ▸ (lawful_after lawful earlier).stage).of_created
      rw [unchanged, Core.finish, tally] at started
      cases started
    · rw [core_step_of_acquiring acquiring] at cancelled
      exact ⟨earlier, now, e, [], path, expected, rfl, acquiring,
        Core.eq_of_react_cancelled acquiring cancelled⟩

end Site

/-! ## What it leaves behind -/

/-- An end that is no cancellation is an end of the validation. -/
theorem Stage.final_of_ended {path : Path} {outcome : RunEnd} {progress : Progress}
    {tally : Tally} (stage : Stage (.ended path outcome) progress tally)
    (uncancelled : outcome ≠ .cancelled) : progress.status ∈ finalStatuses := by
  cases stage with
  | compared _ result time =>
    by_cases clean : result.errors = []
    · rw [Progress.status_of_clean clean]
      decide
    · rw [Progress.status_of_flawed clean]
      decide
  | unreadable | unanswered | refused | incomparable | baselineCreated | unstored =>
    simp [finalStatuses]
  | cancelledEarly | cancelledLate => exact absurd rfl uncancelled

/-- Once a run that has started is over, its gate has a final status unless the run was cancelled
while the server was being asked. In that case the outcome is the cancellation, and the gate goes
on saying that it validates, whatever happens later. -/
theorem status_of_ended_after (mode : Mode) (tree : Tree) (log : List LogEntry)
    (history : History) {path : Path} {outcome : RunEnd}
    (ended : ((Site.mk (.fresh mode) tree log).after history).gate.run = .ended path outcome)
    (started : 0 < ((Site.mk (.fresh mode) tree log).after history).gate.tally.loads) :
    let s := (Site.mk (.fresh mode) tree log).after history
    (s.gate.progress.status ∈ finalStatuses ↔
      ¬ (Site.mk (.fresh mode) tree log).Interrupted history) ∧
      ((Site.mk (.fresh mode) tree log).Interrupted history → outcome = .cancelled ∧
        ∀ later : History, (s.after later).gate.run = .ended path .cancelled ∧
          (statusView (s.after later).gate).field "status" = .text "validating") := by
  intro s
  have lawful := Site.lawful_fresh mode tree log
  have ended : s.core.run = .ended path outcome := ended
  refine ⟨⟨fun final interrupted => ?_, fun uninterrupted => ?_⟩, fun interrupted => ?_⟩
  · obtain ⟨-, validating⟩ := interrupted.core_after lawful
    have validating : s.gate.progress = .validating := validating
    rw [validating] at final
    exact absurd final (by decide)
  · have stage : Stage (.ended path outcome) s.core.progress s.core.tally :=
      ended ▸ (Site.lawful_after lawful history).stage
    refine stage.final_of_ended fun cancelled => uninterrupted ?_
    subst cancelled
    exact Site.interrupted_of_cancelled lawful rfl ended started
  · obtain ⟨⟨own, cancelled⟩, validating⟩ := interrupted.core_after lawful
    obtain ⟨rfl, rfl⟩ := Run.ended.inj (ended.symm.trans cancelled)
    refine ⟨rfl, fun later => ?_⟩
    have still := Site.core_after_of_ended ended later
    have progress : (s.after later).gate.progress = .validating :=
      (congrArg Core.progress still).trans validating
    refine ⟨(congrArg Core.run still).trans ended, ?_⟩
    rw [statusView_status, progress]
    rfl

/-- A server that refuses leaves a final status, and the shutdown that follows interrupts
nothing. -/
theorem status_of_ended_after_refusal :
    let path : Path := ⟨"", ["schema.json"]⟩
    let fresh : Site := ⟨.fresh .warn, .empty, []⟩
    let refused : History :=
      [(default, .call .background path), (default, .begin 0), (default, .startRun),
        (default, .acquired (.error (.refused "down"))), (default, .shutdown)]
    (fresh.after refused).gate.run = .ended path (.refused "down") ∧
      (fresh.after refused).gate.tally.loads = 1 ∧
      (fresh.after refused).gate.progress.status ∈ finalStatuses ∧
      ¬ fresh.Interrupted refused := by
  intro path fresh refused
  have ended : (fresh.after refused).gate.run = .ended path (.refused "down") := by decide +kernel
  have started : (fresh.after refused).gate.tally.loads = 1 := by decide +kernel
  have final : (fresh.after refused).gate.progress.status ∈ finalStatuses := by decide +kernel
  obtain ⟨left, -⟩ :=
    status_of_ended_after .warn .empty [] refused ended (by rw [started]; decide)
  exact ⟨ended, started, final, left.mp final⟩

/-- A shutdown while the server is being asked: the run has started and has ended, and the gate
says that it is validating. -/
theorem validating_after_shutdown :
    let path : Path := ⟨"", ["schema.json"]⟩
    let asking : History :=
      [(default, .call .background path), (default, .begin 0), (default, .startRun)]
    let s := ((Site.mk (.fresh .warn) .empty []).after asking).step default .shutdown
    s.gate.run = .ended path .cancelled ∧ s.gate.tally.loads = 1 ∧
      s.gate.progress.status = .validating ∧
      s.gate.progress.status ∉ finalStatuses := by
  decide +kernel

end SchemaBaseline.Gate
