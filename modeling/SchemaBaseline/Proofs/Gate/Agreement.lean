import SchemaBaseline.Proofs.Compat.Verdict
import SchemaBaseline.Proofs.Gate.Callers
import SchemaBaseline.Proofs.Gate.Origin

/-!
# All callers of a gate agree

The end of a run reaches the callers on different ways: some have waited for it, others come when
it is long over. `Told` says what it amounts to for someone who asks, by the mode, and
`agreement_after` that it amounts to the same for everyone, whenever they come and whatever else
happens: to the one thing that the loaded baseline and the answer of the server have led to. Only
those who were cancelled themselves come away with anything else.

A shutdown while the run is under way is the end of it. From then on there is nothing but to be
cancelled, for those who wait as well as for all who come later.
-/

namespace SchemaBaseline.Gate

open Files (Path Tree)
open Time (Stamp)

/-- What the end of a run amounts to for someone who asks. -/
inductive Told (mode : Mode) : RunEnd → CallEnd → Prop
  | passed (result : Findings) (clean : result.errors = []) :
    Told mode (.completed (some result)) (.returned (some result))
  | tolerated (result : Findings) (flawed : result.errors ≠ []) (lenient : mode = .warn) :
    Told mode (.completed (some result)) (.returned (some result))
  | rejected (result : Findings) (flawed : result.errors ≠ []) (strict : mode = .strict) :
    Told mode (.completed (some result)) (.incompatible result)
  | baselineCreated : Told mode (.completed none) (.returned none)
  | goneOn (message : String) (lenient : mode = .warn) :
    Told mode (.refused message) (.returned none)
  | refused (message : String) (strict : mode = .strict) :
    Told mode (.refused message) (.refused message)
  | broke (b : Breakdown) : Told mode (.broke b) (.broke b)
  | cancelled : Told mode .cancelled .cancelled

/-- Everyone is told exactly one thing. -/
theorem told_iff {mode : Mode} (active : mode ≠ .ignore) {outcome : RunEnd} {e : CallEnd} :
    Told mode outcome e ↔ e = callEnd mode outcome := by
  constructor
  · intro told
    cases told with
    | passed result clean => simp [callEnd, Findings.isValid_iff.mpr clean]
    | tolerated result flawed lenient => simp [callEnd, lenient]
    | rejected result flawed strict =>
      have invalid : result.isValid = false := Findings.isValid_eq_false_iff.mpr flawed
      simp [callEnd, invalid, strict]
    | goneOn message lenient => simp [callEnd, lenient]
    | refused message strict => simp [callEnd, strict]
    | baselineCreated | broke | cancelled => rfl
  · rintro rfl
    rcases outcome with ⟨_ | result⟩ | message | b | _
    · exact .baselineCreated
    · by_cases clean : result.errors = []
      · have valid : result.isValid = true := Findings.isValid_iff.mpr clean
        simp only [callEnd, valid, Bool.not_true, Bool.false_and, Bool.false_eq_true, if_false]
        exact .passed result clean
      · have invalid : result.isValid = false := Findings.isValid_eq_false_iff.mpr clean
        cases mode with
        | strict =>
          simp only [callEnd, invalid]
          exact .rejected result clean rfl
        | warn =>
          simp only [callEnd, invalid]
          exact .tolerated result clean rfl
        | ignore => exact absurd rfl active
    · cases mode with
      | strict => exact .refused message rfl
      | warn => exact .goneOn message rfl
      | ignore => exact absurd rfl active
    · exact .broke b
    · exact .cancelled

/-- The run has been created and has not come to an end. -/
def Run.Underway (run : Run) : Prop :=
  (∃ path, run = .created path) ∨ ∃ path expected, run = .acquiring path expected

namespace Site

/-- A shutdown ends a run that is under way. -/
theorem run_shutdown_of_underway {s : Site} (underway : s.core.run.Underway) (now : Stamp) :
    ∃ path, (s.step now .shutdown).core.run = .ended path .cancelled := by
  rcases core_step s now .shutdown with reacted | ⟨_, _, turn, -⟩
  · rw [reacted, Core.react]
    rcases underway with ⟨path, created⟩ | ⟨path, expected, acquiring⟩
    · exact ⟨path, by simp only [Core.cancel, created, Core.finish]⟩
    · exact ⟨path, by simp only [Core.cancel, acquiring, Core.finish]⟩
  · cases turn

end Site

variable {mode : Mode} {tree : Tree} {log : List LogEntry} {history : History}

/-- Someone in the foreground who has come to an end was cancelled, or has been told what the one
run has led to. -/
theorem told_of_finished (active : mode ≠ .ignore) {n : Nat} {c : Caller} {e : CallEnd}
    (found : ((Site.mk (.fresh mode) tree log).after history).gate.callers[n]? = some c)
    (foreground : c.kind = .foreground) (finished : c.phase = .finished e) :
    (e = .cancelled ∧ ∃ now, (now, .cancel n) ∈ history) ∨
      ∃ path outcome, ((Site.mk (.fresh mode) tree log).after history).gate.run =
        .ended path outcome ∧
        Origin tree history (.ended path outcome)
          ((Site.mk (.fresh mode) tree log).after history).tree ∧
        Told mode outcome e := by
  cases Site.ending_after active tree log history found finished with
  | gaveUp now cancelled => exact .inl ⟨rfl, now, cancelled⟩
  | sentAway _ _ _ _ background =>
    exact absurd (foreground.symm.trans background) CallKind.noConfusion
  | told path outcome ended =>
    have origin := Site.origin_after mode tree log history
    rw [ended] at origin
    have sameMode := Site.mode_after (Site.mk (.fresh mode) tree log) history
    refine .inr ⟨path, outcome, ended, origin, (told_iff active).mpr ?_⟩
    rw [foreground, endFor]
    exact congrArg (callEnd · outcome) sameMode

/-- Someone in the foreground who has come to no end yet is told it at the next turn after the
run. -/
theorem told_of_turn {s : Site} (sameMode : s.core.mode = mode) (active : mode ≠ .ignore)
    {path : Path} {outcome : RunEnd} (ended : s.core.run = .ended path outcome) {n : Nat}
    {c : Caller} (found : s.gate.callers[n]? = some c) (foreground : c.kind = .foreground)
    (pending : c.isPending = true) :
    ∃ e, Told mode outcome e ∧
      ∀ now : Stamp, (s.step now (c.turn n)).gate.callers[n]? =
        some { c with phase := .finished e } := by
  refine ⟨callEnd mode outcome, (told_iff active).mpr rfl, fun now => ?_⟩
  have told := Site.step_turn_of_ended (sameMode ▸ active) ended found pending now
  have aloud : endFor c.kind (callEnd mode outcome) = callEnd mode outcome := by
    rw [foreground, endFor]
  rw [sameMode, Caller.ended, aloud] at told
  exact told

/-- Where the run was cancelled, everyone who has come to an end was cancelled as well. -/
theorem cancelled_of_finished (active : mode ≠ .ignore) {path : Path}
    (ended : ((Site.mk (.fresh mode) tree log).after history).core.run = .ended path .cancelled)
    {n : Nat} {c : Caller} {e : CallEnd}
    (found : ((Site.mk (.fresh mode) tree log).after history).gate.callers[n]? = some c)
    (finished : c.phase = .finished e) : e = .cancelled := by
  cases Site.ending_after active tree log history found finished with
  | gaveUp | sentAway => rfl
  | told path' outcome ended' =>
    obtain ⟨-, rfl⟩ := Run.ended.inj (ended.symm.trans ended')
    exact endFor_cancelled c.kind

/-- Everyone who asks in the foreground and is not cancelled comes away with what the one run has
led to, whenever they come. Once the run has ended that no longer changes, and whoever is not told
yet is told at the next turn. A shutdown of a run under way leaves nothing but being cancelled. -/
theorem agreement_after (active : mode ≠ .ignore) (tree : Tree) (log : List LogEntry)
    (history : History) :
    let s := (Site.mk (.fresh mode) tree log).after history
    (∀ (n : Nat) (c : Caller) (e : CallEnd), s.gate.callers[n]? = some c → c.kind = .foreground →
      c.phase = .finished e →
      (e = .cancelled ∧ ∃ now, (now, .cancel n) ∈ history) ∨
        ∃ path outcome, s.gate.run = .ended path outcome ∧
          Origin tree history (.ended path outcome) s.tree ∧ Told mode outcome e) ∧
    (∀ (path : Path) (outcome : RunEnd), s.gate.run = .ended path outcome →
      (∀ later : History, (s.after later).gate.run = .ended path outcome) ∧
        ∀ (n : Nat) (c : Caller), s.gate.callers[n]? = some c → c.kind = .foreground →
          c.isPending = true →
          ∃ e, Told mode outcome e ∧
            ∀ now : Stamp, (s.step now (c.turn n)).gate.callers[n]? =
              some { c with phase := .finished e }) ∧
    (s.gate.run.Underway → ∀ (now : Stamp) (later : History),
      let t := (s.step now .shutdown).after later
      ∀ (n : Nat) (c : Caller), t.gate.callers[n]? = some c →
        (∀ e, c.phase = .finished e → e = .cancelled) ∧
          (c.isPending = true → ∀ time : Stamp,
            (t.step time (c.turn n)).gate.callers[n]? =
              some { c with phase := .finished .cancelled })) := by
  intro s
  have sameMode : s.core.mode = mode := Site.mode_after _ history
  refine ⟨fun n c e found foreground finished =>
    told_of_finished active found foreground finished, fun path outcome ended =>
    ⟨fun later => ?_, fun n c found foreground pending =>
      told_of_turn sameMode active ended found foreground pending⟩, ?_⟩
  · exact (congrArg Core.run (Site.core_after_of_ended ended later)).trans ended
  · intro underway now later t n c found
    obtain ⟨path, shut⟩ := Site.run_shutdown_of_underway underway now
    have ended : t.core.run = .ended path .cancelled :=
      (congrArg Core.run (Site.core_after_of_ended shut later)).trans shut
    constructor
    · intro e finished
      -- The shutdown and all that came later belong to one history, like what came before.
      have whole :
          t = (Site.mk (.fresh mode) tree log).after (history ++ (now, .shutdown) :: later) :=
        (Site.after_append _ history ((now, .shutdown) :: later)).symm
      rw [whole] at found ended
      exact cancelled_of_finished active ended found finished
    · intro pending time
      have stays : t.core.mode = mode :=
        (Site.mode_after s ((now, .shutdown) :: later)).trans sameMode
      have told := Site.step_turn_of_ended (stays ▸ active) ended found pending time
      rw [Caller.ended, callEnd, endFor_cancelled] at told
      exact told

/-- A refusal, of which a strict gate tells the one who waited as well as the one who comes late;
and what is left to wait for if the gate is shut down before the server answers. -/
theorem agreement_after_refusal :
    let path : Path := ⟨"", ["schema.json"]⟩
    let asked : History :=
      [(default, .call .foreground path), (default, .call .foreground path), (default, .begin 0),
        (default, .begin 1), (default, .startRun), (default, .cancel 0)]
    let refused : History :=
      asked ++ [(default, .acquired (.error (.refused "down"))), (default, .wake 1),
        (default, .call .foreground path)]
    let late : Caller := ⟨.foreground, path, .called⟩
    let waiting : Caller := ⟨.foreground, path, .waiting⟩
    (∃ outcome,
      ((Site.mk (.fresh .strict) .empty []).after refused).gate.run = .ended path outcome ∧
        Told .strict outcome (.refused "down")) ∧
      (∃ e, Told .strict (.refused "down") e ∧ ∀ now : Stamp,
        (((Site.mk (.fresh .strict) .empty []).after refused).step now
          (late.turn 2)).gate.callers[2]? = some { late with phase := .finished e }) ∧
      ∀ time : Stamp,
        (((((Site.mk (.fresh .strict) .empty []).after asked).step default .shutdown).after
          []).step time (waiting.turn 1)).gate.callers[1]? =
            some { waiting with phase := .finished .cancelled } := by
  intro path asked refused late waiting
  have strict : Mode.strict ≠ .ignore := by decide
  obtain ⟨finished, settled, -⟩ := agreement_after strict .empty [] refused
  obtain ⟨-, -, closed⟩ := agreement_after strict .empty [] asked
  have ended : ((Site.mk (.fresh .strict) .empty []).after refused).gate.run =
      .ended path (.refused "down") := by
    decide +kernel
  refine ⟨?_, ?_, ?_⟩
  · have told : ((Site.mk (.fresh .strict) .empty []).after refused).gate.callers[1]? =
        some ⟨.foreground, path, .finished (.refused "down")⟩ := by
      decide +kernel
    rcases finished 1 ⟨.foreground, path, .finished (.refused "down")⟩
      (.refused "down") told rfl rfl with
      ⟨cancelled, -⟩ | ⟨path', outcome, ended', -, told⟩
    · cases cancelled
    · obtain ⟨rfl, -⟩ := Run.ended.inj (ended.symm.trans ended')
      exact ⟨outcome, ended', told⟩
  · have there :
        ((Site.mk (.fresh .strict) .empty []).after refused).gate.callers[2]? = some late := by
      decide +kernel
    exact (settled path (.refused "down") ended).2 2 late there rfl rfl
  · intro time
    have underway :
        ((Site.mk (.fresh .strict) .empty []).after asked).gate.run = .acquiring path none := by
      decide +kernel
    have there : ((((Site.mk (.fresh .strict) .empty []).after asked).step default
        .shutdown).after []).gate.callers[1]? = some waiting := by
      decide +kernel
    exact (closed (.inr ⟨path, none, underway⟩) default [] 1 waiting there).2 rfl time

end SchemaBaseline.Gate
