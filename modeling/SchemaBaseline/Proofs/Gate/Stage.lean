import SchemaBaseline.Proofs.Gate.Move

/-!
# The stages of a run

`Stage` lists how far the run, its progress and its tally can have come, all three at once.
`Core.Lawful` says that a core is at one of these stages, and that there is no run where nothing
is to be validated. Every move leads from one lawful core to another (`Core.Lawful.move`), hence
every history does (`Site.lawful_after`), and a fresh gate is lawful (`Site.lawful_fresh`).
-/

namespace SchemaBaseline.Gate

open Files (Path Tree)
open Time (Stamp)

/-- How far a run has come, with its progress and its tally. A cancelled run keeps the progress it
had made. -/
inductive Stage : Run → Progress → Tally → Prop
  | idle : Stage .none .unstarted ⟨0, 0, 0, 0⟩
  | created (path : Path) : Stage (.created path) .unstarted ⟨0, 0, 0, 0⟩
  | acquiring (path : Path) (expected : Option Snapshot) :
    Stage (.acquiring path expected) .validating ⟨1, 1, 0, 0⟩
  | unreadable (path : Path) (b : Breakdown) (time : Stamp) :
    Stage (.ended path (.broke b)) (.failed b.message time) ⟨1, 0, 0, 0⟩
  | unanswered (path : Path) (b : Breakdown) (time : Stamp) :
    Stage (.ended path (.broke b)) (.failed b.message time) ⟨1, 1, 0, 0⟩
  | refused (path : Path) (message : String) (time : Stamp) :
    Stage (.ended path (.refused message)) (.failed message time) ⟨1, 1, 0, 0⟩
  | incomparable (path : Path) (b : Breakdown) (time : Stamp) :
    Stage (.ended path (.broke b)) (.failed b.message time) ⟨1, 1, 1, 0⟩
  | compared (path : Path) (result : Findings) (time : Stamp) :
    Stage (.ended path (.completed (some result))) (.compared result time) ⟨1, 1, 1, 0⟩
  | baselineCreated (path : Path) (time : Stamp) :
    Stage (.ended path (.completed none)) (.baselineCreated time) ⟨1, 1, 0, 1⟩
  | unstored (path : Path) (b : Breakdown) (time : Stamp) :
    Stage (.ended path (.broke b)) (.failed b.message time) ⟨1, 1, 0, 1⟩
  | cancelledEarly (path : Path) : Stage (.ended path .cancelled) .unstarted ⟨0, 0, 0, 0⟩
  | cancelledLate (path : Path) : Stage (.ended path .cancelled) .validating ⟨1, 1, 0, 0⟩

namespace Stage

variable {progress : Progress} {tally : Tally}

theorem of_none (stage : Stage .none progress tally) :
    progress = .unstarted ∧ tally = ⟨0, 0, 0, 0⟩ := by
  cases stage
  exact ⟨rfl, rfl⟩

theorem of_created {path : Path} (stage : Stage (.created path) progress tally) :
    progress = .unstarted ∧ tally = ⟨0, 0, 0, 0⟩ := by
  cases stage
  exact ⟨rfl, rfl⟩

theorem of_acquiring {path : Path} {expected : Option Snapshot}
    (stage : Stage (.acquiring path expected) progress tally) :
    progress = .validating ∧ tally = ⟨1, 1, 0, 0⟩ := by
  cases stage
  exact ⟨rfl, rfl⟩

theorem of_completed_none {path : Path}
    (stage : Stage (.ended path (.completed none)) progress tally) :
    (∃ time, progress = .baselineCreated time) ∧ tally = ⟨1, 1, 0, 1⟩ := by
  cases stage
  exact ⟨⟨_, rfl⟩, rfl⟩

theorem of_completed_some {path : Path} {result : Findings}
    (stage : Stage (.ended path (.completed (some result))) progress tally) :
    (∃ time, progress = .compared result time) ∧ tally = ⟨1, 1, 1, 0⟩ := by
  cases stage
  exact ⟨⟨_, rfl⟩, rfl⟩

end Stage

namespace Core

/-- The core is at a stage of a run, and idle where nothing is to be validated. -/
structure Lawful (c : Core) : Prop where
  stage : Stage c.run c.progress c.tally
  idle_of_ignore : c.mode = .ignore → c.run = .none

/-- Every move leads from one stage to another. -/
theorem Lawful.move {now : Stamp} {c c' : Core} (lawful : c.Lawful) (move : c.Move now c') :
    c'.Lawful where
  stage := by
    have stage := lawful.stage
    cases move with
    | stay => exact stage
    | create path active idle =>
      obtain ⟨progress, tally⟩ := (idle ▸ stage).of_none
      simp only [progress, tally]
      exact .created path
    | askKnown path known created =>
      obtain ⟨-, tally⟩ := (created ▸ stage).of_created
      simp only [ask, tally]
      exact .acquiring path (some known)
    | askUnknown path defect created =>
      obtain ⟨-, tally⟩ := (created ▸ stage).of_created
      simp only [ask, tally]
      exact .acquiring path none
    | failLoading path b created =>
      obtain ⟨-, tally⟩ := (created ▸ stage).of_created
      simp only [fail, finish, countLoad, tally]
      exact .unreadable path b now
    | compare path expected actual result acquiring =>
      obtain ⟨-, tally⟩ := (acquiring ▸ stage).of_acquiring
      simp only [finish, countComparison, tally]
      exact .compared path result now
    | failComparing path expected actual e acquiring =>
      obtain ⟨-, tally⟩ := (acquiring ▸ stage).of_acquiring
      simp only [fail, finish, countComparison, tally]
      exact .incomparable path (.malformedRef e) now
    | store path actual acquiring =>
      obtain ⟨-, tally⟩ := (acquiring ▸ stage).of_acquiring
      simp only [finish, Core.store, tally]
      exact .baselineCreated path now
    | failStoring path actual b acquiring =>
      obtain ⟨-, tally⟩ := (acquiring ▸ stage).of_acquiring
      simp only [fail, finish, Core.store, tally]
      exact .unstored path b now
    | refuse path expected message acquiring =>
      obtain ⟨-, tally⟩ := (acquiring ▸ stage).of_acquiring
      simp only [finish, tally]
      exact .refused path message now
    | failAsking path expected b acquiring =>
      obtain ⟨-, tally⟩ := (acquiring ▸ stage).of_acquiring
      simp only [fail, finish, tally]
      exact .unanswered path b now
    | cancelCreated path created =>
      obtain ⟨progress, tally⟩ := (created ▸ stage).of_created
      simp only [finish, progress, tally]
      exact .cancelledEarly path
    | cancelAcquiring path expected acquiring =>
      obtain ⟨progress, tally⟩ := (acquiring ▸ stage).of_acquiring
      simp only [finish, progress, tally]
      exact .cancelledLate path
  idle_of_ignore ignore := by
    have before : c.mode = .ignore := move.mode_eq ▸ ignore
    have idle := lawful.idle_of_ignore before
    rw [move.eq_of_ignore before idle]
    exact idle

end Core

namespace Site

variable {s : Site}

theorem lawful_fresh (mode : Mode) (tree : Tree) (log : List LogEntry) :
    (Site.mk (.fresh mode) tree log).core.Lawful where
  stage := .idle
  idle_of_ignore _ := rfl

/-- Every history leads from one stage to another. -/
theorem lawful_after (lawful : s.core.Lawful) (history : History) :
    (s.after history).core.Lawful :=
  core_after_of_move (P := Core.Lawful) (fun _ _ _ move lawful => lawful.move move) lawful history

/-- Where nothing is to be validated no history touches what the callers share. -/
theorem core_after_of_ignore (lawful : s.core.Lawful) (ignore : s.core.mode = .ignore)
    (history : History) :
    (s.after history).core = s.core := by
  refine core_after_of_move (P := fun c => c = s.core) (fun now c c' move same => ?_) rfl history
  subst same
  exact move.eq_of_ignore ignore (lawful.idle_of_ignore ignore)

end Site

end SchemaBaseline.Gate
