import Mathlib.Data.List.Induction
import SchemaBaseline.Proofs.Gate.Move

/-!
# What can become of a caller

`Change` lists everything that an event can do to a caller, each with what it presupposes, as
`Core.Move` does for what the callers share. `Site.callers_step` shows the list to be complete. An
event other than a call reaches a caller by such a change or not at all, so that whatever holds of
every caller at every time is shown by the cases of a change.

`Ending` says how a caller can have come to its end. Someone who was not cancelled has been told
how the run ended (`Site.ending_after`), and nobody waits unless there is a run to wait for
(`Site.attended_after`).
-/

namespace SchemaBaseline.Gate

open Files (Path Tree)
open Time (Stamp)

theorem endFor_cancelled (kind : CallKind) : endFor kind .cancelled = .cancelled := by
  cases kind <;> rfl

/-- The caller once it has come to its end. -/
def Caller.ended (c : Caller) (e : CallEnd) : Caller :=
  { c with phase := .finished (endFor c.kind e) }

/-- The caller once it has been cancelled, unless it had come to its end before. -/
def Caller.cancelled (c : Caller) : Caller :=
  if c.isPending then c.ended .cancelled else c

@[simp]
theorem Caller.kind_cancelled (c : Caller) : c.cancelled.kind = c.kind := by
  unfold cancelled
  split <;> rfl

@[simp]
theorem Caller.isPending_cancelled (c : Caller) : c.cancelled.isPending = false := by
  unfold cancelled
  split
  · rfl
  · exact Bool.eq_false_iff.mpr ‹_›

@[simp]
theorem Caller.cancelled_cancelled (c : Caller) : c.cancelled.cancelled = c.cancelled := by
  rw [cancelled, isPending_cancelled, if_neg Bool.false_ne_true]

/-- The event that a caller of a number waits for. -/
def Caller.turn (n : Nat) (c : Caller) : Event :=
  match c.phase with
  | .called => .begin n
  | _ => .wake n

theorem CallPhase.finished_ne_of_isPending {c : Caller} {e : CallEnd}
    (pending : c.isPending = true) : c.phase ≠ .finished e := by
  intro finished
  rw [Caller.isPending, finished] at pending
  cases pending

/-- What an event can do to the caller of a number. -/
inductive Change (s : Site) (n : Nat) (c : Caller) : Event → Caller → Prop
  /-- Its turn comes where nothing is to be validated. -/
  | dismiss (called : c.phase = .called) (ignore : s.core.mode = .ignore) :
    Change s n c (.begin n) (c.ended (.returned none))
  /-- Its turn comes while there is no end to tell of. -/
  | wait (called : c.phase = .called) (active : s.core.mode ≠ .ignore)
    (unended : ∀ path outcome, s.core.run ≠ .ended path outcome) :
    Change s n c (.begin n) { c with phase := .waiting }
  /-- Its turn comes after the run. -/
  | comeLate (path : Path) (outcome : RunEnd) (called : c.phase = .called)
    (active : s.core.mode ≠ .ignore) (ended : s.core.run = .ended path outcome) :
    Change s n c (.begin n) (c.ended (callEnd s.core.mode outcome))
  /-- It has waited for the run. -/
  | learn (path : Path) (outcome : RunEnd) (waiting : c.phase = .waiting)
    (ended : s.core.run = .ended path outcome) :
    Change s n c (.wake n) (c.ended (callEnd s.core.mode outcome))
  | giveUp (pending : c.isPending = true) : Change s n c (.cancel n) (c.ended .cancelled)
  | sendAway (e : Event) (closing : e = .shutdown ∨ e = .resistedShutdown)
    (background : c.kind = .background) (pending : c.isPending = true) :
    Change s n c e (c.ended .cancelled)

namespace Site

variable {s : Site} {n : Nat} {c : Caller}

/-! ## Setting the phase of one caller -/

theorem getElem?_setPhase (s : Site) (caller : Nat) (phase : CallPhase) (n : Nat) :
    (s.setPhase caller phase).gate.callers[n]? =
      if caller = n then s.gate.callers[n]?.map fun c => { c with phase }
      else s.gate.callers[n]? := by
  simp only [setPhase, withGate, List.getElem?_modify]
  split
  · rfl
  · rw [Option.map_eq_map, Option.map_id']

theorem getElem?_finish_self (found : s.gate.callers[n]? = some c) (e : CallEnd) :
    (s.finish n c.kind e).gate.callers[n]? = some (c.ended e) := by
  have set := getElem?_setPhase s n (.finished (endFor c.kind e)) n
  rw [if_pos rfl, found] at set
  exact set

theorem getElem?_finish_of_ne {caller : Nat} (ne : caller ≠ n) (kind : CallKind) (e : CallEnd) :
    (s.finish caller kind e).gate.callers[n]? = s.gate.callers[n]? := by
  have set := getElem?_setPhase s caller (.finished (endFor kind e)) n
  rw [if_neg ne] at set
  exact set

/-! ## A caller's turn -/

theorem callers_noteIgnored (s : Site) : s.noteIgnored.gate.callers = s.gate.callers := by
  unfold noteIgnored
  split <;> rfl

/-- A turn sets the phase of the caller whose turn it is, and of no other. -/
theorem callers_begin (called : c.phase = .called) :
    ∃ phase, (s.begin n c).gate.callers = (s.setPhase n phase).gate.callers ∧
      Change s n c (.begin n) { c with phase } := by
  -- Whatever else a turn does, it does without touching the callers.
  have alike : ∀ (t : Site) (phase : CallPhase), t.gate.callers = s.gate.callers →
      (t.setPhase n phase).gate.callers = (s.setPhase n phase).gate.callers := by
    intro t phase same
    simp only [setPhase, withGate, same]
  have noted : (s.notePath c.path).gate.callers = s.gate.callers := by rw [gate_notePath]
  have sameRun : s.core.run = s.gate.run := rfl
  unfold begin
  by_cases ignore : s.gate.mode = .ignore
  · rw [if_pos ignore]
    exact ⟨_, alike s.noteIgnored _ (callers_noteIgnored s), .dismiss called ignore⟩
  · rw [if_neg ignore]
    simp only [gate_notePath]
    rcases under : s.gate.run with _ | path | ⟨path, expected⟩ | ⟨path, outcome⟩
    · exact ⟨_, alike _ _ noted, .wait called ignore (by simp [sameRun, under])⟩
    · exact ⟨_, alike _ _ noted, .wait called ignore (by simp [sameRun, under])⟩
    · exact ⟨_, alike _ _ noted, .wait called ignore (by simp [sameRun, under])⟩
    · simp only [settle, gate_notePath]
      exact ⟨_, alike ((s.notePath c.path).note _) _ noted, .comeLate path outcome called ignore
        (sameRun.trans under)⟩

/-- The caller whose turn comes changes. -/
theorem change_begin (found : s.gate.callers[n]? = some c) (called : c.phase = .called) :
    ∃ c', Change s n c (.begin n) c' ∧ (s.begin n c).gate.callers[n]? = some c' := by
  obtain ⟨phase, same, change⟩ := callers_begin (s := s) (n := n) called
  refine ⟨_, change, ?_⟩
  rw [same, getElem?_setPhase, if_pos rfl, found]
  rfl

/-- A turn changes no other caller. -/
theorem getElem?_begin_of_ne {caller : Nat} (ne : caller ≠ n) (called : c.phase = .called) :
    (s.begin caller c).gate.callers[n]? = s.gate.callers[n]? := by
  obtain ⟨phase, same, -⟩ := callers_begin (s := s) (n := caller) called
  rw [same, getElem?_setPhase, if_neg ne]

/-! ## Cancelled callers -/

theorem getElem?_cancelCaller_of_ne {caller : Nat} (ne : caller ≠ n) (c : Caller) :
    (s.cancelCaller caller c).gate.callers[n]? = s.gate.callers[n]? := by
  unfold cancelCaller
  split
  · rw [getElem?_setPhase, if_neg ne]
  · exact getElem?_finish_of_ne ne c.kind .cancelled
  · rfl

/-- A caller that is cancelled comes to its end, unless it is there already. -/
theorem getElem?_cancelCaller_self (found : s.gate.callers[n]? = some c) :
    (s.cancelCaller n c).gate.callers[n]? = some c.cancelled := by
  unfold cancelCaller Caller.cancelled Caller.isPending
  rcases phase : c.phase with _ | _ | outcome
  · simp only [if_true]
    rw [getElem?_setPhase, if_pos rfl, found, Caller.ended, endFor_cancelled]
    rfl
  · exact getElem?_finish_self found .cancelled
  · exact found

/-- Of the callers whose numbers are given, those in the background are cancelled, however often a
number is given. -/
theorem getElem?_cancelBackground_of_some (found : s.gate.callers[n]? = some c)
    (callers : List Nat) :
    (s.cancelBackground callers).gate.callers[n]? =
      some (if n ∈ callers ∧ c.kind = .background then c.cancelled else c) := by
  induction callers generalizing s c with
  | nil => simpa [cancelBackground] using found
  | cons m rest ih =>
    rw [cancelBackground]
    by_cases same : m = n
    · subst same
      simp only [found]
      by_cases background : c.kind = .background
      · rw [if_pos background, ih (getElem?_cancelCaller_self found)]
        simp [background]
      · rw [if_neg background, ih found]
        simp [background]
    · have elsewhere : n ∈ m :: rest ↔ n ∈ rest := by simp [Ne.symm same]
      simp only [elsewhere]
      split
      · split
        · exact ih ((getElem?_cancelCaller_of_ne same _).trans found)
        · exact ih found
      · exact ih found

theorem length_cancelBackground (s : Site) (callers : List Nat) :
    (s.cancelBackground callers).gate.callers.length = s.gate.callers.length := by
  have cancelCaller (s : Site) (m : Nat) (c : Caller) :
      (s.cancelCaller m c).gate.callers.length = s.gate.callers.length := by
    unfold Site.cancelCaller
    split <;> simp [finish, setPhase, withGate, note]
  induction callers generalizing s with
  | nil => rfl
  | cons m rest ih =>
    rw [cancelBackground]
    split
    · rw [ih]
      split <;> simp [cancelCaller]
    · exact ih s

/-- Of the callers in the background each one is cancelled at most once. -/
theorem getElem?_cancelBackground (s : Site) (callers : List Nat) (n : Nat) :
    (s.cancelBackground callers).gate.callers[n]? = s.gate.callers[n]? ∨
      ∃ c, s.gate.callers[n]? = some c ∧ c.kind = .background ∧ c.isPending = true ∧
        (s.cancelBackground callers).gate.callers[n]? = some (c.ended .cancelled) := by
  cases found : s.gate.callers[n]? with
  | none =>
    left
    rw [List.getElem?_eq_none_iff] at found ⊢
    rwa [length_cancelBackground]
  | some c =>
    rw [getElem?_cancelBackground_of_some found, Caller.cancelled]
    split
    · split
      · exact .inr ⟨c, rfl, ‹_ ∧ _›.2, ‹_›, rfl⟩
      · exact .inl rfl
    · exact .inl rfl

/-! ## Events -/

/-- The run has no say in who the callers are. -/
theorem callers_startRun (s : Site) (now : Stamp) (path : Path) :
    (s.startRun now path).gate.callers = s.gate.callers := by
  rcases loaded : Baseline.load now s.tree path with (defect | b) | expected
  all_goals simp only [startRun, breakRun, failRun, endRun, note, withGate, loaded]

theorem callers_createBaseline (s : Site) (now : Stamp) (path : Path) (actual : Snapshot) :
    (s.createBaseline now path actual).gate.callers = s.gate.callers := by
  rcases saved : Baseline.save s.tree path actual with ⟨tree, (e | b) | _⟩
  all_goals
    simp only [createBaseline, withGate, saved]
    rfl

theorem callers_finishRun (s : Site) (now : Stamp) (path : Path) (expected : Option Snapshot)
    (answer : Acquired) :
    (s.finishRun now path expected answer).gate.callers = s.gate.callers := by
  rcases answer with (message | b | _) | actual
  · rfl
  · rfl
  · rfl
  · cases expected with
    | none => exact callers_createBaseline s now path actual
    | some expected =>
      simp only [finishRun, compare]
      split <;> rfl

theorem callers_cancelRun (s : Site) : s.cancelRun.gate.callers = s.gate.callers := by
  unfold cancelRun
  split <;> rfl

/-- What any event does to the caller of a number: nothing, or a change; and a call adds one at
the end. -/
theorem callers_step (s : Site) (now : Stamp) (e : Event) (n : Nat) :
    (s.step now e).gate.callers[n]? = s.gate.callers[n]? ∨
      (∃ kind path, e = .call kind path ∧ s.gate.callers[n]? = none ∧
        (s.step now e).gate.callers[n]? = some ⟨kind, path, .called⟩) ∨
      ∃ c c', s.gate.callers[n]? = some c ∧ Change s n c e c' ∧
        (s.step now e).gate.callers[n]? = some c' := by
  cases e with
  | call kind path =>
    simp only [step, withGate, List.getElem?_append]
    split
    · exact .inl rfl
    · rename_i beyond
      rw [List.getElem?_singleton]
      split
      · exact .inr (.inl ⟨kind, path, rfl, List.getElem?_eq_none (Nat.le_of_not_lt beyond), rfl⟩)
      · exact .inl (List.getElem?_eq_none (Nat.le_of_not_lt beyond)).symm
  | «begin» m =>
    simp only [step]
    split
    · rename_i c found
      split
      · rename_i called
        by_cases same : m = n
        · subst same
          obtain ⟨c', change, changed⟩ := change_begin found called
          exact .inr (.inr ⟨c, c', found, change, changed⟩)
        · exact .inl (getElem?_begin_of_ne same called)
      · exact .inl rfl
    · exact .inl rfl
  | startRun =>
    left
    simp only [step]
    split
    · rw [callers_startRun]
    · rfl
  | acquired answer =>
    left
    simp only [step]
    split
    · rw [callers_finishRun]
    · rfl
  | wake m =>
    simp only [step]
    split
    · rename_i c path outcome found ended
      split
      · rename_i waiting
        by_cases same : m = n
        · subst same
          exact .inr (.inr ⟨c, _, found, .learn path outcome waiting ended,
            getElem?_finish_self (s := s.note _) found _⟩)
        · exact .inl (getElem?_finish_of_ne (s := s.note _) same c.kind _)
      · exact .inl rfl
    · exact .inl rfl
  | cancel m =>
    simp only [step]
    split
    · rename_i c found
      by_cases same : m = n
      · subst same
        have cancelled := getElem?_cancelCaller_self found
        unfold Caller.cancelled at cancelled
        by_cases pending : c.isPending = true
        · rw [if_pos pending] at cancelled
          exact .inr (.inr ⟨c, _, found, .giveUp pending, cancelled⟩)
        · rw [if_neg pending] at cancelled
          exact .inl (cancelled.trans found.symm)
      · exact .inl (getElem?_cancelCaller_of_ne same c)
    · exact .inl rfl
  | shutdown =>
    simp only [step]
    rcases getElem?_cancelBackground s.cancelRun (List.range s.gate.callers.length) n with
      same | ⟨c, found, background, pending, cancelled⟩
    · rw [callers_cancelRun] at same
      exact .inl same
    · rw [callers_cancelRun] at found
      exact .inr (.inr ⟨c, _, found, .sendAway _ (.inl rfl) background pending, cancelled⟩)
  | resistedShutdown =>
    simp only [step]
    split
    · rcases getElem?_cancelBackground s (List.range s.gate.callers.length) n with
        same | ⟨c, found, background, pending, cancelled⟩
      · exact .inl same
      · exact .inr (.inr ⟨c, _, found, .sendAway _ (.inr rfl) background pending, cancelled⟩)
    · exact .inl rfl

/-- What every caller has on arrival and keeps at every change, every caller has at every time. -/
theorem forall_callers_after {P : Caller → Prop} (arrives : ∀ kind path, P ⟨kind, path, .called⟩)
    (kept : ∀ {s : Site} {n : Nat} {c : Caller} {e : Event} {c' : Caller}, Change s n c e c' →
      P c → P c')
    (holds : ∀ (n : Nat) (c : Caller), s.gate.callers[n]? = some c → P c) (history : History) :
    ∀ (n : Nat) (c : Caller), (s.after history).gate.callers[n]? = some c → P c := by
  induction history generalizing s with
  | nil => exact holds
  | cons moment later ih =>
    obtain ⟨now, e⟩ := moment
    refine ih fun n c found => ?_
    rcases callers_step s now e n with same | ⟨kind, path, -, -, added⟩ |
      ⟨old, new, there, change, changed⟩
    · exact holds n c (same ▸ found)
    · obtain rfl := Option.some.inj (added.symm.trans found)
      exact arrives kind path
    · obtain rfl := Option.some.inj (changed.symm.trans found)
      exact kept change (holds n old there)

/-! ## Turns after the run -/

/-- A caller whose turn comes after the run has ended is told the end at once. -/
theorem step_turn_of_ended (active : s.core.mode ≠ .ignore) {path : Path} {outcome : RunEnd}
    (ended : s.core.run = .ended path outcome) (found : s.gate.callers[n]? = some c)
    (pending : c.isPending = true) (now : Stamp) :
    (s.step now (c.turn n)).gate.callers[n]? = some (c.ended (callEnd s.core.mode outcome)) := by
  have noted : s.gate.run = .ended path outcome := ended
  rcases phase : c.phase with _ | _ | e
  · simp only [Caller.turn, phase, step, found, if_true]
    obtain ⟨c', change, changed⟩ := change_begin found phase
    cases change with
    | dismiss called ignore => exact absurd ignore active
    | wait called _ unended => exact absurd ended (unended path outcome)
    | comeLate path' outcome' called _ ended' =>
      obtain ⟨-, rfl⟩ := Run.ended.inj (ended.symm.trans ended')
      exact changed
    | sendAway _ closing => rcases closing with closing | closing <;> cases closing
  · simp only [Caller.turn, phase, step, found, noted]
    exact getElem?_finish_self (s := s.note _) found _
  · exact absurd phase (CallPhase.finished_ne_of_isPending pending)

end Site

/-! ## How callers end -/

/-- How a caller can have come to an end where there is something to validate. -/
inductive Ending (s : Site) (history : History) (n : Nat) (c : Caller) : CallEnd → Prop
  | gaveUp (now : Stamp) (cancelled : (now, .cancel n) ∈ history) :
    Ending s history n c .cancelled
  | sentAway (now : Stamp) (e : Event) (closed : (now, e) ∈ history)
    (closing : e = .shutdown ∨ e = .resistedShutdown) (background : c.kind = .background) :
    Ending s history n c .cancelled
  /-- It was told how the run ended. -/
  | told (path : Path) (outcome : RunEnd) (ended : s.core.run = .ended path outcome) :
    Ending s history n c (endFor c.kind (callEnd s.core.mode outcome))

namespace Ending

variable {s : Site} {history : History} {n : Nat} {c : Caller} {outcome : CallEnd}

/-- An end stays explained whatever happens afterwards. -/
theorem step (ending : Ending s history n c outcome) (now : Stamp) (e : Event) :
    Ending (s.step now e) (history ++ [(now, e)]) n c outcome := by
  cases ending with
  | gaveUp time cancelled => exact .gaveUp time (List.mem_append_left _ cancelled)
  | sentAway time closing closed which background =>
    exact .sentAway time closing (List.mem_append_left _ closed) which background
  | told path outcome ended =>
    have same := Site.core_step_of_ended ended now e
    rw [← same] at ended ⊢
    exact .told path outcome ended

end Ending

namespace Site

variable {s : Site}

/-- Everyone who has come to an end was cancelled or told how the run ended. -/
theorem ending_after {mode : Mode} (active : mode ≠ .ignore) (tree : Tree) (log : List LogEntry)
    (history : History) {n : Nat} {c : Caller} {e : CallEnd}
    (found : ((Site.mk (.fresh mode) tree log).after history).gate.callers[n]? = some c)
    (finished : c.phase = .finished e) :
    Ending ((Site.mk (.fresh mode) tree log).after history) history n c e := by
  induction history using List.reverseRecOn generalizing n c e with
  | nil => cases found
  | append_singleton earlier moment ih =>
    obtain ⟨now, event⟩ := moment
    have sameMode : ((Site.mk (.fresh mode) tree log).after earlier).core.mode = mode :=
      mode_after _ earlier
    rw [after_concat] at found ⊢
    generalize (Site.mk (.fresh mode) tree log).after earlier = s at found ih sameMode ⊢
    rcases callers_step s now event n with same | ⟨kind, path, -, -, added⟩ |
      ⟨old, new, there, change, changed⟩
    · exact (ih (same ▸ found) finished).step now event
    · obtain rfl := Option.some.inj (added.symm.trans found)
      cases finished
    · obtain rfl := Option.some.inj (changed.symm.trans found)
      have last : (now, event) ∈ earlier ++ [(now, event)] :=
        List.mem_append_right _ List.mem_cons_self
      cases change with
      | dismiss called ignore => exact absurd (sameMode.symm.trans ignore) active
      | wait called active unended => cases finished
      | comeLate path outcome called active ended | learn path outcome waiting ended =>
        cases finished
        have told : Ending s earlier n (old.ended (callEnd s.core.mode outcome))
            (endFor old.kind (callEnd s.core.mode outcome)) :=
          .told path outcome ended
        exact told.step now _
      | giveUp pending =>
        obtain rfl := CallPhase.finished.inj finished
        rw [endFor_cancelled]
        exact .gaveUp now last
      | sendAway _ closing background pending =>
        obtain rfl := CallPhase.finished.inj finished
        rw [endFor_cancelled]
        exact .sentAway now event last closing background

end Site

end SchemaBaseline.Gate
