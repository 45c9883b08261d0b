import SchemaBaseline.Proofs.Gate.Core

/-!
# What can become of the core

`Core.Move` lists everything that an event can do to the core, each with what it presupposes.
`Site.move_step` shows the list to be complete, so that what all events keep is shown by the cases
of a move.

`Site.after` carries out a history: events together with the times at which they happen.
-/

namespace SchemaBaseline.Gate

open Files (Path Tree)
open Time (Stamp)

theorem Run.path?_eq_none_iff {run : Run} : run.path? = Option.none ↔ run = .none := by
  cases run <;> simp [Run.path?]

namespace Core

/-- What one event can do to the core. -/
inductive Move (now : Stamp) (c : Core) : Core → Prop
  | stay : Move now c c
  /-- The first caller gets its turn. -/
  | create (path : Path) (active : c.mode ≠ .ignore) (idle : c.run = .none) :
    Move now c { c with run := .created path }
  /-- The run starts. -/
  | askKnown (path : Path) (known : Snapshot) (created : c.run = .created path)
    (loaded : Baseline.load now c.tree path = .ok known) : Move now c (c.ask path (some known))
  | askUnknown (path : Path) (defect : Baseline.Defect) (created : c.run = .created path)
    (loaded : Baseline.load now c.tree path = .error (.defect defect)) :
    Move now c (c.ask path none)
  | failLoading (path : Path) (b : Breakdown) (created : c.run = .created path)
    (loaded : Baseline.load now c.tree path = .error (.broke b)) :
    Move now c (c.countLoad.fail now path b)
  /-- The server answers. -/
  | compare (path : Path) (expected actual : Snapshot) (result : Findings)
    (acquiring : c.run = .acquiring path (some expected))
    (compared : expected.compare actual = .ok result) :
    Move now c (c.countComparison.finish path (.compared result now) (.completed (some result)))
  | failComparing (path : Path) (expected actual : Snapshot) (e : TypeRef.Malformed)
    (acquiring : c.run = .acquiring path (some expected))
    (compared : expected.compare actual = .error e) :
    Move now c (c.countComparison.fail now path (.malformedRef e))
  | store (path : Path) (actual : Snapshot) (acquiring : c.run = .acquiring path none)
    (whole : ∀ b, (Baseline.save c.tree path actual).2 ≠ .error (.broke b)) :
    Move now c ((c.store path actual).finish path (.baselineCreated now) (.completed none))
  | failStoring (path : Path) (actual : Snapshot) (b : Breakdown)
    (acquiring : c.run = .acquiring path none)
    (broke : (Baseline.save c.tree path actual).2 = .error (.broke b)) :
    Move now c ((c.store path actual).fail now path b)
  | refuse (path : Path) (expected : Option Snapshot) (message : String)
    (acquiring : c.run = .acquiring path expected) :
    Move now c (c.finish path (.failed message now) (.refused message))
  | failAsking (path : Path) (expected : Option Snapshot) (b : Breakdown)
    (acquiring : c.run = .acquiring path expected) :
    Move now c (c.fail now path b)
  /-- The run is cancelled. -/
  | cancelCreated (path : Path) (created : c.run = .created path) :
    Move now c (c.finish path c.progress .cancelled)
  | cancelAcquiring (path : Path) (expected : Option Snapshot)
    (acquiring : c.run = .acquiring path expected) :
    Move now c (c.finish path c.progress .cancelled)

theorem move_start {c : Core} (now : Stamp) {path : Path} (created : c.run = .created path) :
    c.Move now (c.start now path) := by
  unfold start
  split
  · rename_i known loaded
    exact .askKnown path known created loaded
  · rename_i defect loaded
    exact .askUnknown path defect created loaded
  · rename_i b loaded
    exact .failLoading path b created loaded

theorem move_answer {c : Core} (now : Stamp) {path : Path} {expected : Option Snapshot}
    (acquiring : c.run = .acquiring path expected) (answer : Acquired) :
    c.Move now (c.answer now path expected answer) := by
  rcases answer with (message | b | _) | actual
  · exact .refuse path expected message acquiring
  · exact .failAsking path expected b acquiring
  · exact .cancelAcquiring path expected acquiring
  · cases expected with
    | none =>
      simp only [Core.answer, createBaseline]
      split
      · rename_i b broke
        exact .failStoring path actual b acquiring broke
      · rename_i whole
        exact .store path actual acquiring whole
    | some expected =>
      simp only [Core.answer]
      split
      · rename_i result compared
        exact .compare path expected actual result acquiring compared
      · rename_i e compared
        exact .failComparing path expected actual e acquiring compared

theorem move_cancel (c : Core) (now : Stamp) : c.Move now c.cancel := by
  unfold cancel
  split
  · rename_i path created
    exact .cancelCreated path created
  · rename_i path expected acquiring
    exact .cancelAcquiring path expected acquiring
  · exact .stay

theorem move_react (c : Core) (now : Stamp) (e : Event) : c.Move now (c.react now e) := by
  cases e with
  | startRun =>
    rw [react]
    split
    · exact move_start now ‹_›
    · exact .stay
  | acquired answer =>
    rw [react]
    split
    · exact move_answer now ‹_› answer
    · exact .stay
  | shutdown => exact move_cancel c now
  | _ => exact .stay

namespace Move

variable {now : Stamp} {c c' : Core}

/-- The mode of a gate never changes. -/
theorem mode_eq (move : c.Move now c') : c'.mode = c.mode := by
  cases move <;> rfl

/-- A run is never taken back. -/
theorem run_ne_none (move : c.Move now c') (under : c.run ≠ .none) : c'.run ≠ .none := by
  cases move with
  | stay => exact under
  | _ => exact Run.noConfusion

/-- A run never gets another path. -/
theorem path?_eq (move : c.Move now c') {path : Path} (mine : c.run.path? = some path) :
    c'.run.path? = some path := by
  cases move with
  | stay => exact mine
  | create _ _ idle =>
    rw [idle] at mine
    cases mine
  | askKnown _ _ under | askUnknown _ _ under | failLoading _ _ under | compare _ _ _ _ under
  | failComparing _ _ _ _ under | store _ _ under | failStoring _ _ _ under | refuse _ _ _ under
  | failAsking _ _ _ under | cancelCreated _ under | cancelAcquiring _ _ under =>
    rw [under] at mine
    exact mine

/-- Where nothing is to be validated and there is no run, there never is one. -/
theorem eq_of_ignore (move : c.Move now c') (ignore : c.mode = .ignore) (idle : c.run = .none) :
    c' = c := by
  cases move with
  | stay => rfl
  | create path active => exact absurd ignore active
  | askKnown _ _ under | askUnknown _ _ under | failLoading _ _ under | compare _ _ _ _ under
  | failComparing _ _ _ _ under | store _ _ under | failStoring _ _ _ under | refuse _ _ _ under
  | failAsking _ _ _ under | cancelCreated _ under | cancelAcquiring _ _ under =>
    exact Run.noConfusion (idle.symm.trans under)

/-- What has come to its end stays as it is. -/
theorem eq_of_ended (move : c.Move now c') {path : Path} {outcome : RunEnd}
    (ended : c.run = .ended path outcome) : c' = c := by
  cases move with
  | stay => rfl
  | create _ _ under | askKnown _ _ under | askUnknown _ _ under | failLoading _ _ under
  | compare _ _ _ _ under | failComparing _ _ _ _ under | store _ _ under
  | failStoring _ _ _ under | refuse _ _ _ under | failAsking _ _ _ under | cancelCreated _ under
  | cancelAcquiring _ _ under =>
    exact Run.noConfusion (ended.symm.trans under)

end Move

end Core

/-! ## Histories -/

/-- Events with the times at which they happen, in the order in which they happen. -/
abbrev History := List (Stamp × Event)

namespace Site

/-- The site after a history. -/
def after (s : Site) (history : History) : Site :=
  history.foldl (fun s moment => s.step moment.1 moment.2) s

@[simp]
theorem after_nil (s : Site) : s.after [] = s :=
  rfl

@[simp]
theorem after_cons (s : Site) (now : Stamp) (e : Event) (later : History) :
    s.after ((now, e) :: later) = (s.step now e).after later :=
  rfl

theorem after_append (s : Site) (earlier later : History) :
    s.after (earlier ++ later) = (s.after earlier).after later := by
  rw [after, List.foldl_append]
  rfl

theorem after_concat (s : Site) (earlier : History) (now : Stamp) (e : Event) :
    s.after (earlier ++ [(now, e)]) = (s.after earlier).step now e :=
  after_append s earlier [(now, e)]

theorem run_eq_after (s : Site) (now : Stamp) (events : List Event) :
    s.run now events = s.after (events.map fun e => (now, e)) := by
  rw [run, after, List.foldl_map]

/-- Every event is a move. -/
theorem move_step (s : Site) (now : Stamp) (e : Event) : s.core.Move now (s.step now e).core := by
  rcases core_step s now e with reacted | ⟨_, c, -, -, -, active, idle, created⟩
  · rw [reacted]
    exact Core.move_react s.core now e
  · rw [created]
    exact .create c.path active idle

/-- What every move keeps is kept by every history. -/
theorem core_after_of_move {P : Core → Prop}
    (kept : ∀ (now : Stamp) (c c' : Core), c.Move now c' → P c → P c') {s : Site}
    (holds : P s.core) (history : History) : P (s.after history).core := by
  induction history generalizing s with
  | nil => exact holds
  | cons moment later ih =>
    obtain ⟨now, e⟩ := moment
    exact ih (kept now s.core _ (move_step s now e) holds)

theorem mode_after (s : Site) (history : History) : (s.after history).core.mode = s.core.mode :=
  core_after_of_move (P := fun c => c.mode = s.core.mode)
    (fun _ _ _ move same => move.mode_eq.trans same) rfl history

theorem core_step_of_ended {s : Site} {path : Path} {outcome : RunEnd}
    (ended : s.core.run = .ended path outcome) (now : Stamp) (e : Event) :
    (s.step now e).core = s.core :=
  (move_step s now e).eq_of_ended ended

/-- Once the run has ended, nothing that the callers share changes any more. -/
theorem core_after_of_ended {s : Site} {path : Path} {outcome : RunEnd}
    (ended : s.core.run = .ended path outcome) (history : History) :
    (s.after history).core = s.core := by
  refine core_after_of_move (P := fun c => c = s.core) (fun now c c' move same => ?_) rfl history
  subst same
  exact move.eq_of_ended ended

end Site

end SchemaBaseline.Gate
