import SchemaBaseline.Proofs.Gate.Callers
import SchemaBaseline.Proofs.Gate.Stage

/-!
# A gate validates at most once

Whatever happens at a gate, in whatever order, the baseline is loaded at most once, the server is
asked at most once, and at most one of the two things that can follow, a comparison or a save, is
done, at most once as well. That much is read off the stages.

What is left is that a caller who gives up does no harm to the others. Someone who waits, waits
for a run (`Site.Attended`), and once there is a run the core goes its way without asking who the
callers are (`Site.core_after_of_run`); a cancelled caller is therefore missed by no one in any
future.
-/

namespace SchemaBaseline.Gate

open Files (Path Tree)
open Time (Stamp)

/-- Nothing was done twice, and schemas were compared only where none was stored. -/
structure Tally.AtMostOnce (t : Tally) : Prop where
  loads : t.loads ≤ 1
  acquires : t.acquires ≤ 1
  comparisons : t.comparisons ≤ 1
  saves : t.saves ≤ 1
  apart : t.comparisons = 0 ∨ t.saves = 0

theorem Stage.atMostOnce {run : Run} {progress : Progress} {tally : Tally}
    (stage : Stage run progress tally) :
    tally.AtMostOnce := by
  cases stage <;> constructor <;> decide

/-! ## A run goes its way -/

namespace Site

variable {s t : Site}

theorem core_step_of_run (under : s.core.run ≠ .none) (now : Stamp) (e : Event) :
    (s.step now e).core = s.core.react now e := by
  rcases core_step s now e with reacted | ⟨_, _, -, -, -, -, idle, -⟩
  · exact reacted
  · exact absurd idle under

/-- Sites that share a run have the same future run, whoever their callers are. -/
theorem core_after_of_run (under : s.core.run ≠ .none) (same : t.core = s.core)
    (history : History) :
    (t.after history).core = (s.after history).core := by
  induction history generalizing s t with
  | nil => exact same
  | cons moment later ih =>
    obtain ⟨now, e⟩ := moment
    refine ih ((move_step s now e).run_ne_none under) ?_
    calc (t.step now e).core
        = t.core.react now e := core_step_of_run (same ▸ under) now e
      _ = s.core.react now e := by rw [same]
      _ = (s.step now e).core := (core_step_of_run under now e).symm

/-! ## Whoever waits, waits for a run -/

/-- Nobody waits. -/
def NoneWaits (s : Site) : Prop :=
  ∀ (n : Nat) (c : Caller), s.gate.callers[n]? = some c → c.phase ≠ .waiting

/-- Nobody waits unless there is a run to wait for. -/
def Attended (s : Site) : Prop :=
  s.core.run = .none → s.NoneWaits

/-- The first caller does not wait without creating the run. -/
theorem attended_step (attended : s.Attended) (now : Stamp) (e : Event) :
    (s.step now e).Attended := by
  intro still n c found waiting
  have idle : s.core.run = .none :=
    Decidable.not_not.mp fun under => (move_step s now e).run_ne_none under still
  have none : s.NoneWaits := attended idle
  rcases callers_step s now e n with same | ⟨kind, path, -, -, added⟩ |
    ⟨old, new, there, change, changed⟩
  · exact none n c (same ▸ found) waiting
  · obtain rfl := Option.some.inj (added.symm.trans found)
    cases waiting
  · obtain rfl := Option.some.inj (changed.symm.trans found)
    cases change with
    | wait called active unended =>
      rw [core_step_begin_of_idle active idle there called now] at still
      cases still
    | dismiss | comeLate | learn | giveUp | sendAway => cases waiting

theorem attended_after (attended : s.Attended) (history : History) :
    (s.after history).Attended := by
  induction history generalizing s with
  | nil => exact attended
  | cons moment later ih => exact ih (attended_step attended moment.1 moment.2)

theorem attended_fresh (mode : Mode) (tree : Tree) (log : List LogEntry) :
    (Site.mk (.fresh mode) tree log).Attended := by
  intro _ n c found
  cases found

/-! ## Cancelling a caller -/

theorem core_cancel (s : Site) (now : Stamp) (caller : Nat) :
    (s.step now (.cancel caller)).core = s.core := by
  simp only [step]
  split
  · exact core_cancelCaller s caller _
  · rfl

/-- A waiting caller that is cancelled ends so, and the run does not notice, then or later. -/
theorem cancel_of_waiting (attended : s.Attended) {caller : Nat} {c : Caller}
    (found : s.gate.callers[caller]? = some c) (waiting : c.phase = .waiting) (now : Stamp) :
    (s.step now (.cancel caller)).gate.callers[caller]? =
      some { c with phase := .finished .cancelled } ∧
      ∀ later : History, ((s.step now (.cancel caller)).after later).core =
          (s.after later).core := by
  constructor
  · simp only [step, found, cancelCaller, waiting, finish, setPhase, withGate, note,
      endFor_cancelled, List.getElem?_modify_eq, Option.map_eq_map, Option.map_some]
  · have under : s.core.run ≠ .none := fun idle => attended idle caller c found waiting
    exact core_after_of_run under (core_cancel s now caller)

end Site

/-! ## Once -/

/-- Over the whole life of a gate, whatever happens at it: nothing is done twice; where nothing is
to be validated nothing is done at all; and a waiting caller that is cancelled leaves the run, and
all it does from then on, as it is. -/
theorem once_after (mode : Mode) (tree : Tree) (log : List LogEntry) (history : History) :
    let s := (Site.mk (.fresh mode) tree log).after history
    s.gate.tally.AtMostOnce ∧
      (mode = .ignore → s.gate.tally = ⟨0, 0, 0, 0⟩ ∧ s.gate.progress = .unstarted ∧
        s.tree = tree) ∧
      ∀ (caller : Nat) (c : Caller), s.gate.callers[caller]? = some c → c.phase = .waiting →
        ∀ now : Stamp,
          (s.step now (.cancel caller)).gate.callers[caller]? =
            some { c with phase := .finished .cancelled } ∧
            ∀ later : History, ((s.step now (.cancel caller)).after later).core =
                (s.after later).core := by
  intro s
  have fresh := Site.lawful_fresh mode tree log
  refine ⟨(Site.lawful_after fresh history).stage.atMostOnce, ?_, ?_⟩
  · intro ignore
    have same : s.core = (Site.mk (.fresh mode) tree log).core :=
      Site.core_after_of_ignore fresh ignore history
    exact ⟨congrArg Core.tally same, congrArg Core.progress same, congrArg Core.tree same⟩
  · intro caller c found waiting now
    have attended : s.Attended := Site.attended_after (Site.attended_fresh mode tree log) history
    exact Site.cancel_of_waiting attended found waiting now

theorem once_after_abandoned :
    let first : Path := ⟨"", ["first.json"]⟩
    let second : Path := ⟨"", ["second.json"]⟩
    let calls : History :=
      [(default, .call .foreground first), (default, .call .background second),
        (default, .begin 0), (default, .begin 1), (default, .startRun)]
    let s := (Site.mk (.fresh .warn) .empty []).after calls
    let ignored := (Site.mk (.fresh .ignore) .empty []).after calls
    s.gate.tally.AtMostOnce ∧ s.gate.tally = ⟨1, 1, 0, 0⟩ ∧
      (ignored.gate.tally = ⟨0, 0, 0, 0⟩ ∧ ignored.gate.progress = .unstarted) ∧
      ∀ message : String,
        ((s.step default (.cancel 0)).after
          [(default, .acquired (.error (.refused message)))]).gate.run =
            .ended first (.refused message) := by
  intro first second calls s ignored
  have active := once_after .warn .empty [] calls
  have quiet := (once_after .ignore .empty [] calls).2.1 rfl
  refine ⟨active.1, rfl, ⟨quiet.1, quiet.2.1⟩, fun message => ?_⟩
  have found : s.gate.callers[0]? = some ⟨.foreground, first, .waiting⟩ := rfl
  have same :=
    (active.2.2 0 _ found rfl default).2 [(default, .acquired (.error (.refused message)))]
  exact congrArg Core.run same

end SchemaBaseline.Gate
