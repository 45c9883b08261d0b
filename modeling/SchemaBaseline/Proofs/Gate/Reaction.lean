import SchemaBaseline.Proofs.Gate.Callers

/-!
# How a caller reacts

`Core.react` says what an event does to what the callers share. `Caller.react` says it of a
caller: what becomes of it is a function of the event and of its number, of the mode and of the
run, and no other caller has a say in it. `Site.callers_step_eq` is the one equation for all
callers and every event; a new caller comes in at the end.

`Change` lists the same reactions with what each presupposes. The list serves where something is
shown of whatever may happen to a caller, the function where two gates are compared, or where a
caller has to be shown to react.
-/

namespace SchemaBaseline.Gate

open Files (Path Tree)
open Time (Stamp)

namespace Caller

/-- The caller once it has been told the end of the run, if there is one. -/
def learned (c : Caller) (mode : Mode) : Run → Caller
  | .ended _ outcome => c.ended (callEnd mode outcome)
  | _ => c

/-- The caller after its first turn. -/
def begun (c : Caller) (mode : Mode) (run : Run) : Caller :=
  if mode = .ignore then c.ended (.returned none)
  else { c with phase := .waiting }.learned mode run

/-- The caller of a number after an event, by the mode and the run that the event finds. -/
def react (n : Nat) (mode : Mode) (run : Run) (c : Caller) : Event → Caller
  | .begin m => if m = n ∧ c.phase = .called then c.begun mode run else c
  | .wake m => if m = n ∧ c.phase = .waiting then c.learned mode run else c
  | .cancel m => if m = n then c.cancelled else c
  | .shutdown => if c.kind = .background then c.cancelled else c
  | .resistedShutdown =>
    match run with
    | .acquiring _ _ => if c.kind = .background then c.cancelled else c
    | _ => c
  | _ => c

theorem cancelled_of_finished {c : Caller} (finished : c.isPending = false) :
    c.cancelled = c := by
  rw [cancelled, if_neg (by simp [finished])]

/-- Whoever has come to an end reacts to nothing any more. -/
theorem react_of_finished {n : Nat} {mode : Mode} {run : Run} {c : Caller}
    (finished : c.isPending = false) (e : Event) :
    c.react n mode run e = c := by
  have notCalled : c.phase ≠ .called := fun called => by simp [isPending, called] at finished
  have notWaiting : c.phase ≠ .waiting := fun waiting => by simp [isPending, waiting] at finished
  cases e with
  | «begin» m => exact if_neg fun turn => notCalled turn.2
  | wake m => exact if_neg fun turn => notWaiting turn.2
  | cancel m => simp only [react, cancelled_of_finished finished, ite_self]
  | shutdown => simp only [react, cancelled_of_finished finished, ite_self]
  | resistedShutdown =>
    cases run with
    | acquiring path expected => simp only [react, cancelled_of_finished finished, ite_self]
    | none | created | ended => rfl
  | call | startRun | acquired => rfl

end Caller

/-- Who comes to a gate with an event. -/
def Event.newcomers : Event → List Caller
  | .call kind path => [⟨kind, path, .called⟩]
  | _ => []

namespace Site

variable {s : Site} {n : Nat} {c : Caller}

/-- The first turn of a caller leads to the one thing that mode and run leave open. -/
theorem getElem?_begin_self (found : s.gate.callers[n]? = some c) (called : c.phase = .called) :
    (s.begin n c).gate.callers[n]? = some (c.begun s.core.mode s.core.run) := by
  obtain ⟨c', change, changed⟩ := change_begin found called
  rw [changed, Caller.begun]
  cases change with
  | dismiss _ ignore => rw [if_pos ignore]
  | wait _ active unended =>
    rw [if_neg active]
    cases run : s.core.run with
    | ended path outcome => exact absurd run (unended path outcome)
    | none | created | acquiring => rfl
  | comeLate path outcome _ active ended =>
    rw [if_neg active, ended]
    rfl
  | sendAway _ closing => rcases closing with closing | closing <;> cases closing

theorem getElem?_step_begin (found : s.gate.callers[n]? = some c) (now : Stamp) (m : Nat) :
    (s.step now (.begin m)).gate.callers[n]? =
      some (c.react n s.core.mode s.core.run (.begin m)) := by
  simp only [step, Caller.react]
  by_cases same : m = n
  · subst same
    simp only [found, true_and]
    split
    · exact getElem?_begin_self found ‹_›
    · exact found
  · rw [if_neg fun turn => same turn.1]
    split
    · split
      · exact (getElem?_begin_of_ne same ‹_›).trans found
      · exact found
    · exact found

theorem getElem?_step_wake (found : s.gate.callers[n]? = some c) (now : Stamp) (m : Nat) :
    (s.step now (.wake m)).gate.callers[n]? =
      some (c.react n s.core.mode s.core.run (.wake m)) := by
  have sameRun : s.core.run = s.gate.run := rfl
  simp only [step, Caller.react, sameRun]
  by_cases same : m = n
  · subst same
    simp only [found, true_and]
    cases s.gate.run with
    | ended path outcome =>
      simp only
      split
      · exact getElem?_finish_self (s := s.note _) found _
      · exact found
    | none | created | acquiring => simpa only [Caller.learned, ite_self] using found
  · rw [if_neg fun turn => same turn.1]
    split
    · split
      · exact (getElem?_finish_of_ne (s := s.note _) same _ _).trans found
      · exact found
    · exact found

theorem getElem?_step_cancel (found : s.gate.callers[n]? = some c) (now : Stamp) (m : Nat) :
    (s.step now (.cancel m)).gate.callers[n]? =
      some (c.react n s.core.mode s.core.run (.cancel m)) := by
  simp only [step, Caller.react]
  by_cases same : m = n
  · subst same
    simp only [found, if_true]
    exact getElem?_cancelCaller_self found
  · rw [if_neg same]
    split
    · exact (getElem?_cancelCaller_of_ne same _).trans found
    · exact found

/-- A shutdown goes through all callers that there are, so that none in the background is left
out. -/
theorem getElem?_cancelBackground_all (found : s.gate.callers[n]? = some c) :
    (s.cancelBackground (List.range s.gate.callers.length)).gate.callers[n]? =
      some (if c.kind = .background then c.cancelled else c) := by
  have reached : n ∈ List.range s.gate.callers.length :=
    List.mem_range.mpr (List.getElem?_eq_some_iff.mp found).1
  rw [getElem?_cancelBackground_of_some found]
  simp only [reached, true_and]

theorem getElem?_step (found : s.gate.callers[n]? = some c) (now : Stamp) (e : Event) :
    (s.step now e).gate.callers[n]? = some (c.react n s.core.mode s.core.run e) := by
  have sameRun : s.core.run = s.gate.run := rfl
  cases e with
  | call kind path =>
    exact List.getElem?_append_left (List.getElem?_eq_some_iff.mp found).1 ▸ found
  | «begin» m => exact getElem?_step_begin found now m
  | startRun =>
    simp only [step]
    split
    · rwa [callers_startRun]
    · exact found
  | acquired answer =>
    simp only [step]
    split
    · rwa [callers_finishRun]
    · exact found
  | wake m => exact getElem?_step_wake found now m
  | cancel m => exact getElem?_step_cancel found now m
  | shutdown =>
    have same := callers_cancelRun s
    simp only [step, Caller.react, ← same]
    exact getElem?_cancelBackground_all (same ▸ found)
  | resistedShutdown =>
    simp only [step, Caller.react, sameRun]
    cases s.gate.run with
    | acquiring path expected => exact getElem?_cancelBackground_all found
    | none | created | ended => exact found

/-- Every caller reacts on its own, and whoever is new comes in at the end. -/
theorem callers_step_eq (s : Site) (now : Stamp) (e : Event) :
    (s.step now e).gate.callers =
      s.gate.callers.mapIdx (fun n c => c.react n s.core.mode s.core.run e) ++ e.newcomers := by
  refine List.ext_getElem? fun n => ?_
  cases found : s.gate.callers[n]? with
  | some c =>
    have within : n < s.gate.callers.length := (List.getElem?_eq_some_iff.mp found).1
    rw [getElem?_step found, List.getElem?_append_left (by simpa using within),
      List.getElem?_mapIdx, found, Option.map_some]
  | none =>
    have beyond : s.gate.callers.length ≤ n := List.getElem?_eq_none_iff.mp found
    rw [List.getElem?_append_right (by simpa using beyond), List.length_mapIdx]
    cases e with
    | call kind path => exact List.getElem?_append_right beyond
    | «begin» | startRun | acquired | wake | cancel | shutdown | resistedShutdown =>
      rcases callers_step s now _ n with same | ⟨_, _, call, -⟩ | ⟨c, _, there, -⟩
      · exact same.trans found
      · cases call
      · cases found.symm.trans there

/-- Whoever has come to an end stays there, whatever else happens. -/
theorem getElem?_after_of_finished (found : s.gate.callers[n]? = some c)
    (finished : c.isPending = false) (history : History) :
    (s.after history).gate.callers[n]? = some c := by
  induction history generalizing s with
  | nil => exact found
  | cons moment later ih =>
    refine ih ?_
    rw [getElem?_step found, Caller.react_of_finished finished]

end Site

end SchemaBaseline.Gate
