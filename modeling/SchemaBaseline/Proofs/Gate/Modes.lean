import Mathlib.Data.List.Forall2
import SchemaBaseline.Proofs.Compat.Verdict
import SchemaBaseline.Proofs.Gate.Reaction

/-!
# What the mode decides

A strict gate and one that warns do the same. Given the same files and the same events, both know
the same about the validation, leave the same files and have loaded, asked, compared and stored
equally often, after every event. The mode shows in one place only, where a caller in the
foreground is told how the run has ended. If the schema is incompatible or could not be had, a
strict gate makes an error of it, while the other hands out the findings or nothing.

`Counterpart` says how far the two gates can be apart for one caller, and `Twins` how far they can
be apart at all. Every event keeps twins alike (`Twins.step`), so that every history does.
-/

namespace SchemaBaseline.Gate

open Files (Path Tree)
open Time (Stamp)

/-- Lists that are related place by place stay so if each place is mapped alike. -/
theorem forall₂_mapIdx {α β γ δ : Type} {R : α → β → Prop} {S : γ → δ → Prop} {as : List α}
    {bs : List β} (related : List.Forall₂ R as bs) {f : Nat → α → γ} {g : Nat → β → δ}
    (alike : ∀ n a b, R a b → S (f n a) (g n b)) :
    List.Forall₂ S (as.mapIdx f) (bs.mapIdx g) := by
  induction related generalizing f g with
  | nil => exact .nil
  | cons first _ ih =>
    rw [List.mapIdx_cons, List.mapIdx_cons]
    exact .cons (alike 0 _ _ first) (ih fun n => alike (n + 1))

/-! ## One caller at two gates -/

/-- A caller at a strict gate and the same caller at a gate that warns, where the run has come to
this. -/
inductive Counterpart (run : Run) : Caller → Caller → Prop
  | same (c : Caller) : Counterpart run c c
  | rejected (c : Caller) (path : Path) (result : Findings) (foreground : c.kind = .foreground)
    (flawed : result.errors ≠ []) (ended : run = .ended path (.completed (some result))) :
    Counterpart run { c with phase := .finished (.incompatible result) }
      { c with phase := .finished (.returned (some result)) }
  | refused (c : Caller) (path : Path) (message : String) (foreground : c.kind = .foreground)
    (ended : run = .ended path (.refused message)) :
    Counterpart run { c with phase := .finished (.refused message) }
      { c with phase := .finished (.returned none) }

namespace Counterpart

variable {run run' : Run} {c d : Caller}

theorem eq_of_called (alike : Counterpart run c d)
    (called : c.phase = .called ∨ d.phase = .called) : d = c := by
  cases alike with
  | same => rfl
  | rejected | refused => rcases called with called | called <;> cases called

/-- What a run has ended in tells the two apart only where the gate is strict about it. -/
theorem ended (c : Caller) {path : Path} {outcome : RunEnd} (ended : run = .ended path outcome) :
    Counterpart run (c.ended (callEnd .strict outcome)) (c.ended (callEnd .warn outcome)) := by
  obtain ⟨kind, own, phase⟩ := c
  cases kind with
  | foreground =>
    rcases outcome with ⟨_ | result⟩ | message | b | _
    · exact .same _
    · by_cases clean : result.errors = []
      · have valid : result.isValid = true := Findings.isValid_iff.mpr clean
        simp only [callEnd, valid, Bool.not_true, Bool.false_and]
        exact .same _
      · have invalid : result.isValid = false := Findings.isValid_eq_false_iff.mpr clean
        simp only [callEnd, invalid]
        exact .rejected ⟨.foreground, own, phase⟩ path result rfl clean ended
    · exact .refused ⟨.foreground, own, phase⟩ path message rfl ended
    · exact .same _
    · exact .same _
  | background =>
    -- In the background a failure comes to the same as findings do.
    have quiet : quietEnd (callEnd .strict outcome) = quietEnd (callEnd .warn outcome) := by
      rcases outcome with ⟨_ | result⟩ | message | b | _
      · rfl
      · simp only [callEnd]
        split <;> split <;> rfl
      · rfl
      · rfl
      · rfl
    simp only [Caller.ended, endFor, quiet]
    exact .same _

theorem learned (c : Caller) (run : Run) :
    Counterpart run (c.learned .strict run) (c.learned .warn run) := by
  cases run with
  | ended path outcome => exact .ended c rfl
  | none | created | acquiring => exact .same c

theorem mono (stays : ∀ path outcome, run = .ended path outcome → run' = run)
    (alike : Counterpart run c d) :
    Counterpart run' c d := by
  cases alike with
  | same => exact .same c
  | rejected c path result foreground flawed ended =>
    exact .rejected c path result foreground flawed ((stays _ _ ended).trans ended)
  | refused c path message foreground ended =>
    exact .refused c path message foreground ((stays _ _ ended).trans ended)

/-- Every event keeps a caller alike at the two gates. -/
theorem react (alike : Counterpart run c d) (n : Nat) (e : Event) :
    Counterpart run (c.react n .strict run e) (d.react n .warn run e) := by
  cases alike with
  | same =>
    cases e with
    | «begin» m =>
      simp only [Caller.react]
      split
      · exact learned { c with phase := .waiting } run
      · exact .same c
    | wake m =>
      simp only [Caller.react]
      split
      · exact learned c run
      · exact .same c
    | call | startRun | acquired | cancel | shutdown | resistedShutdown => exact .same _
  | rejected c path result foreground flawed ended =>
    rw [Caller.react_of_finished rfl, Caller.react_of_finished rfl]
    exact .rejected c path result foreground flawed ended
  | refused c path message foreground ended =>
    rw [Caller.react_of_finished rfl, Caller.react_of_finished rfl]
    exact .refused c path message foreground ended

end Counterpart

/-! ## What the callers share -/

/-- The core of a gate of another mode. -/
def Core.inMode (c : Core) (mode : Mode) : Core :=
  { c with mode }

/-- What callers share does not depend on the mode. -/
theorem Core.react_inMode (c : Core) (mode : Mode) (now : Stamp) (e : Event) :
    (c.inMode mode).react now e = (c.react now e).inMode mode := by
  obtain ⟨_, run, progress, tally, tree⟩ := c
  cases e with
  | startRun =>
    cases run with
    | created path =>
      simp only [react, inMode, start]
      split <;> rfl
    | none | acquiring | ended => rfl
  | acquired answer =>
    cases run with
    | acquiring path expected =>
      rcases answer with (message | b | _) | actual
      · rfl
      · rfl
      · rfl
      · cases expected with
        | none =>
          simp only [react, inMode, Core.answer, createBaseline]
          split <;> rfl
        | some expected =>
          simp only [react, inMode, Core.answer]
          split <;> rfl
    | none | created | ended => rfl
  | shutdown => cases run <;> rfl
  | call | «begin» | wake | cancel | resistedShutdown => rfl

/-! ## Two gates -/

/-- A strict gate, and one that warns, to which the same has happened. -/
structure Twins (strict warn : Site) : Prop where
  mode_eq : strict.core.mode = .strict
  core_eq : warn.core = strict.core.inMode .warn
  callers : List.Forall₂ (Counterpart strict.core.run) strict.gate.callers warn.gate.callers

namespace Twins

variable {s w : Site}

theorem fresh (tree : Tree) (log : List LogEntry) :
    Twins (.mk (.fresh .strict) tree log) (.mk (.fresh .warn) tree log) where
  mode_eq := rfl
  core_eq := rfl
  callers := .nil

/-- A caller who has not begun at one of the gates is the same at the other. -/
theorem getElem?_of_called (twins : Twins s w) {n : Nat} {c : Caller}
    (called : c.phase = .called) :
    s.gate.callers[n]? = some c ↔ w.gate.callers[n]? = some c := by
  obtain ⟨lengths, places⟩ := List.forall₂_iff_get.mp twins.callers
  simp only [List.getElem?_eq_some_iff]
  constructor
  · rintro ⟨within, rfl⟩
    exact ⟨lengths ▸ within, (places n within (lengths ▸ within)).eq_of_called (.inl called)⟩
  · rintro ⟨within, rfl⟩
    exact ⟨lengths ▸ within, ((places n (lengths ▸ within) within).eq_of_called
      (.inr called)).symm⟩

/-- The first caller's turn creates the run at both gates; with any other event the cores react
for themselves. -/
theorem core_step (twins : Twins s w) (now : Stamp) (e : Event) :
    (w.step now e).core = (s.step now e).core.inMode .warn := by
  have idle : s.core.run = w.core.run := by rw [twins.core_eq, Core.inMode]
  have active : s.core.mode ≠ .ignore := by rw [twins.mode_eq]; decide
  have active' : w.core.mode ≠ .ignore := by rw [twins.core_eq]; exact Mode.noConfusion
  have created {path : Path} : { w.core with run := .created path } =
      { s.core with run := .created path }.inMode .warn := by
    rw [twins.core_eq]
    rfl
  rcases Site.core_step s now e with reacted | ⟨n, c, rfl, found, called, -, unbegun, turned⟩
  · rcases Site.core_step w now e with reacted' | ⟨n, c, rfl, found, called, -, unbegun, turned⟩
    · rw [reacted, reacted', twins.core_eq, Core.react_inMode]
    · have found' := (twins.getElem?_of_called called).mpr found
      rw [turned, Site.core_step_begin_of_idle active (idle.trans unbegun) found' called now,
        created]
  · have found' := (twins.getElem?_of_called called).mp found
    rw [turned, Site.core_step_begin_of_idle active' (idle.symm.trans unbegun) found' called now,
      created]

/-- Every event keeps the two alike. -/
theorem step (twins : Twins s w) (now : Stamp) (e : Event) :
    Twins (s.step now e) (w.step now e) where
  mode_eq := (Site.move_step s now e).mode_eq.trans twins.mode_eq
  core_eq := twins.core_step now e
  callers := by
    have stays :
        ∀ path outcome, s.core.run = .ended path outcome → (s.step now e).core.run = s.core.run :=
      fun _ _ ended => congrArg Core.run (Site.core_step_of_ended ended now e)
    have mode' : w.core.mode = .warn := by rw [twins.core_eq, Core.inMode]
    have run' : w.core.run = s.core.run := by rw [twins.core_eq, Core.inMode]
    rw [Site.callers_step_eq, Site.callers_step_eq, twins.mode_eq, mode', run']
    refine List.rel_append (forall₂_mapIdx twins.callers fun n c d alike => ?_)
      (List.forall₂_same.mpr fun c _ => .same c)
    exact (alike.react n e).mono stays

theorem after (twins : Twins s w) (history : History) :
    Twins (s.after history) (w.after history) := by
  induction history generalizing s w with
  | nil => exact twins
  | cons moment later ih => exact ih (twins.step moment.1 moment.2)

end Twins

/-- Whatever happens at a strict gate and at one that warns, if they find the same files: what is
known about the validation, the files, the run, and how often each thing was done are the same at
both. So is what each caller comes to, except in the foreground where the run has ended with
errors in the findings or with a refusal; there the one makes an error of what the other
returns. -/
theorem modes_alike_after (tree : Tree) (log : List LogEntry) (history : History) :
    let strict := (Site.mk (.fresh .strict) tree log).after history
    let warn := (Site.mk (.fresh .warn) tree log).after history
    warn.gate.progress = strict.gate.progress ∧ warn.tree = strict.tree ∧
      warn.gate.tally = strict.gate.tally ∧
      warn.gate.run = strict.gate.run ∧
      List.Forall₂ (Counterpart strict.gate.run) strict.gate.callers warn.gate.callers := by
  intro strict warn
  obtain ⟨-, same, callers⟩ := (Twins.fresh tree log).after history
  exact ⟨congrArg Core.progress same, congrArg Core.tree same, congrArg Core.tally same,
    congrArg Core.run same, callers⟩

/-- The server refuses to answer: only the caller in the foreground notices the mode. -/
example :
    let path : Path := ⟨"", ["schema.json"]⟩
    let refused : History :=
      [(default, .call .foreground path), (default, .call .background path), (default, .begin 0),
        (default, .begin 1), (default, .startRun),
        (default, .acquired (.error (.refused "down"))), (default, .wake 0), (default, .wake 1)]
    ((Site.mk (.fresh .strict) .empty []).after refused).gate.callers.map (·.phase) =
        [.finished (.refused "down"), .finished (.returned none)] ∧
      ((Site.mk (.fresh .warn) .empty []).after refused).gate.callers.map (·.phase) =
        [.finished (.returned none), .finished (.returned none)] := by
  decide +kernel

end SchemaBaseline.Gate
