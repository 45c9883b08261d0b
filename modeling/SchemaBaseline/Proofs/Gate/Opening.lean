import SchemaBaseline.Proofs.Gate.Once

/-!
# The first caller decides

Before there is a run nothing has happened to the core, and nobody who has come has got a turn and
stayed: `exists_opening` finds, in a history that leads to a run, the turn at which the first
caller created it. From there on the core follows its own events alone, those by which the run
starts, is answered or is cancelled.

Together this says that whatever became of the core would have become of it with the first caller
on its own (`Opening.core_eq`). No other caller, nor the path it brought, shows in the run, in
what is known about it or in the files.
-/

namespace SchemaBaseline.Gate

open Files (Path Tree)
open Time (Stamp)

/-! ## The events of the core -/

/-- Whether an event reaches what the callers share, once there is a run. -/
def Event.reachesCore : Event → Bool
  | .startRun | .acquired _ | .shutdown => true
  | _ => false

/-- The events of a history that reach what the callers share. -/
def History.ofCore (history : History) : History :=
  history.filter fun moment => moment.2.reachesCore

theorem Core.react_of_idle {c : Core} (idle : c.run = .none) (now : Stamp) (e : Event) :
    c.react now e = c := by
  cases e <;> simp only [react, cancel, idle]

theorem Core.react_of_aside {e : Event} (aside : e.reachesCore = false) (now : Stamp) (c : Core) :
    c.react now e = c := by
  cases e with
  | startRun | acquired _ | shutdown => cases aside
  | call | «begin» | wake | cancel | resistedShutdown => rfl

namespace Site

variable {s t : Site}

/-- Once there is a run the other events do not matter. -/
theorem core_after_ofCore (under : s.core.run ≠ .none) (same : t.core = s.core)
    (history : History) :
    (t.after history.ofCore).core = (s.after history).core := by
  induction history generalizing s t with
  | nil => exact same
  | cons moment later ih =>
    obtain ⟨now, e⟩ := moment
    have under' : (s.step now e).core.run ≠ .none := (move_step s now e).run_ne_none under
    have reacts := core_step_of_run under now e
    -- An event that is left out moves neither site.
    cases reaches : e.reachesCore with
    | false =>
      have unmoved : t.core = (s.step now e).core := by
        rw [reacts, Core.react_of_aside reaches, same]
      rw [History.ofCore, List.filter_cons_of_neg (by simp [reaches])]
      exact ih under' unmoved
    | true =>
      have moved : (t.step now e).core = (s.step now e).core := by
        rw [core_step_of_run (same ▸ under) now e, same, reacts]
      rw [History.ofCore, List.filter_cons_of_pos (by simpa using reaches)]
      exact ih under' moved

/-- A run comes up at a caller's turn only. -/
theorem exists_turn_of_step {now : Stamp} {e : Event} (idle : s.core.run = .none)
    (under : (s.step now e).core.run ≠ .none) :
    ∃ n c, e = .begin n ∧ s.gate.callers[n]? = some c ∧ c.phase = .called := by
  rcases core_step s now e with reacted | ⟨n, c, turn, found, called, -⟩
  · rw [reacted, Core.react_of_idle idle] at under
    exact absurd idle under
  · exact ⟨n, c, turn, found, called⟩

end Site

/-! ## The first caller -/

/-- A caller is about to get the first turn: so far nothing has happened to the core, and whoever
else has come has not begun, unless it was cancelled before. -/
structure Opening (start : Site) (earlier : History) (n : Nat) (c : Caller) : Prop where
  found : (start.after earlier).gate.callers[n]? = some c
  called : c.phase = .called
  untouched : (start.after earlier).core = start.core
  others : ∀ (m : Nat) (d : Caller), (start.after earlier).gate.callers[m]? = some d →
    d.phase = .called ∨ d.phase = .finished .cancelled

/-- What remains of a history without the other callers. -/
def Caller.alone (c : Caller) (now : Stamp) (later : History) : History :=
  (now, .call c.kind c.path) :: (now, .begin 0) :: later.ofCore

section Fresh

variable {mode : Mode} {tree : Tree} {log : List LogEntry} {history : History}

/-- Where there is something to validate, nobody gets on before there is a run. -/
theorem phase_of_idle (active : mode ≠ .ignore)
    (idle : ((Site.mk (.fresh mode) tree log).after history).core.run = .none) {n : Nat}
    {c : Caller}
    (found : ((Site.mk (.fresh mode) tree log).after history).gate.callers[n]? = some c) :
    c.phase = .called ∨ c.phase = .finished .cancelled := by
  cases phase : c.phase with
  | called => exact .inl rfl
  | waiting =>
    have attended := Site.attended_after (Site.attended_fresh mode tree log) history
    exact absurd phase (attended idle n c found)
  | finished e =>
    right
    cases Site.ending_after active tree log history found phase with
    | gaveUp | sentAway => rfl
    | told path outcome ended => exact Run.noConfusion (idle.symm.trans ended)

/-- As long as there is no run nothing happens to the core. -/
theorem core_of_idle (idle : ((Site.mk (.fresh mode) tree log).after history).core.run = .none) :
    ((Site.mk (.fresh mode) tree log).after history).core =
      (Site.mk (.fresh mode) tree log).core := by
  induction history using List.reverseRecOn with
  | nil => rfl
  | append_singleton earlier moment ih =>
    obtain ⟨now, e⟩ := moment
    rw [Site.after_concat] at idle ⊢
    have before : ((Site.mk (.fresh mode) tree log).after earlier).core.run = .none :=
      Decidable.not_not.mp fun under => (Site.move_step _ now e).run_ne_none under idle
    rcases Site.core_step ((Site.mk (.fresh mode) tree log).after earlier) now e with
      reacted | ⟨_, c, -, -, -, -, -, created⟩
    · rw [reacted, Core.react_of_idle before, ih before]
    · rw [created] at idle
      cases idle

theorem active_of_run
    (under : ((Site.mk (.fresh mode) tree log).after history).core.run ≠ .none) :
    mode ≠ .ignore := by
  rintro rfl
  have lawful := Site.lawful_after (Site.lawful_fresh .ignore tree log) history
  exact under (lawful.idle_of_ignore (Site.mode_after _ history))

/-- A history that leads to a run contains the first caller's turn. -/
theorem exists_opening
    (under : ((Site.mk (.fresh mode) tree log).after history).core.run ≠ .none) :
    ∃ earlier now n c later, history = earlier ++ (now, .begin n) :: later ∧
      Opening (.mk (.fresh mode) tree log) earlier n c := by
  have active := active_of_run under
  induction history using List.reverseRecOn with
  | nil => exact absurd rfl under
  | append_singleton before moment ih =>
    obtain ⟨now, e⟩ := moment
    -- Either this very event is the turn, or the turn came before.
    by_cases idle : ((Site.mk (.fresh mode) tree log).after before).core.run = .none
    · rw [Site.after_concat] at under
      obtain ⟨n, c, rfl, found, called⟩ := Site.exists_turn_of_step idle under
      exact ⟨before, now, n, c, [], rfl, found, called, core_of_idle idle,
        fun _ _ => phase_of_idle active idle⟩
    · obtain ⟨earlier, time, n, c, later, rfl, opening⟩ := ih idle
      exact ⟨earlier, time, n, c, later ++ [(now, e)], by simp, opening⟩

namespace Opening

variable {earlier : History} {n : Nat} {c : Caller}

theorem core_turn (active : mode ≠ .ignore)
    (opening : Opening (.mk (.fresh mode) tree log) earlier n c) (now : Stamp) :
    (((Site.mk (.fresh mode) tree log).after earlier).step now (.begin n)).core =
      { (Site.mk (.fresh mode) tree log).core with run := .created c.path } := by
  rw [← opening.untouched]
  exact Site.core_step_begin_of_idle (opening.untouched ▸ active)
    (by rw [opening.untouched]; rfl) opening.found opening.called now

/-- The path of the run is the one that the first caller has brought. -/
theorem path?_eq (active : mode ≠ .ignore)
    (opening : Opening (.mk (.fresh mode) tree log) earlier n c) (now : Stamp) (later : History) :
    ((Site.mk (.fresh mode) tree log).after (earlier ++ (now, .begin n) :: later)).core.run.path?
      = some c.path := by
  rw [Site.after_append]
  refine Site.core_after_of_move (P := fun core => core.run.path? = some c.path)
    (fun _ _ _ move mine => move.path?_eq mine) ?_ later
  rw [opening.core_turn active now]
  rfl

/-- What becomes of the core would have become of it with the first caller alone. -/
theorem core_eq (active : mode ≠ .ignore)
    (opening : Opening (.mk (.fresh mode) tree log) earlier n c) (now : Stamp) (later : History) :
    ((Site.mk (.fresh mode) tree log).after (earlier ++ (now, .begin n) :: later)).core =
      ((Site.mk (.fresh mode) tree log).after (c.alone now later)).core := by
  let called : Site := (Site.mk (.fresh mode) tree log).step now (.call c.kind c.path)
  have turn := opening.core_turn active now
  have alone : (called.step now (.begin 0)).core =
      { (Site.mk (.fresh mode) tree log).core with run := .created c.path } :=
    Site.core_step_begin_of_idle (s := called) (c := ⟨c.kind, c.path, .called⟩) active
      rfl rfl rfl now
  have under : (((Site.mk (.fresh mode) tree log).after earlier).step now (.begin n)).core.run ≠
      .none := by
    rw [turn]
    exact Run.noConfusion
  rw [Site.after_append]
  exact (Site.core_after_ofCore under (alone.trans turn.symm) later).symm

end Opening

end Fresh

end SchemaBaseline.Gate
