import SchemaBaseline.CommandLine.Run

/-!
# The steps of commands

Every step of a command either fails, which ends the command, or hands over to the next step. For
each kind of step a lemma says which of the two happens and on what it depends. `Desk.Fails` is
what failures have in common that leave the files alone: nothing is printed and nothing is stored,
and the command has no success. `run_of_parse` leads from a command line to the command that is
carried out.
-/

namespace SchemaBaseline.CommandLine

open Files (Path Tree)
open Introspection (AcquireError Client Exchange Server)
open Time (Stamp)

variable {env : Settings.Environment} {settings : Settings} {args : List String} {verbose : Bool}
    {command : Command}

/-- The desk at which the command of a command line begins. -/
def Desk.opening (env : Settings.Environment) (tree : Tree) (verbose : Bool) : Desk :=
  { (Desk.start tree).note (Settings.loadLog env []) with verbose }

/-- What is carried out for a command line that can be read. -/
theorem run_of_parse (configured : Settings.load env [] = .ok settings)
    (asked : Invocation.parse settings args = .ok ⟨verbose, command⟩) (now : Stamp)
    (server : Server) (tree : Tree) :
    run now env server tree args =
      command.run now settings server (Desk.opening env tree verbose) := by
  unfold run
  rw [configured]
  simp only [asked]
  rfl

namespace Desk

variable {d : Desk} {o : Outcome}

/-- A command is over without success, and nothing more has been printed or stored. -/
structure Fails (d : Desk) (o : Outcome) : Prop where
  exit : o.exit ≠ .code 0
  output : o.output = d.output
  tree : o.tree = d.tree

/-- A refusal is a failure, whatever has been sent before. -/
theorem fails_refuse (d : Desk) (x : Exchange) (message : String) :
    d.Fails ({ d with exchange := x }.refuse message) :=
  ⟨fun same => absurd (Exit.code.inj same) (by decide), rfl, rfl⟩

theorem fails_giveUp (d : Desk) (x : Exchange) (b : Breakdown) :
    d.Fails ({ d with exchange := x }.giveUp b) :=
  ⟨Exit.noConfusion, rfl, rfl⟩

/-- A schema has been acquired and is handed on, or the command fails, with nothing else sent;
after a refusal the exit code is one. -/
theorem withAcquired_cases (d : Desk) (now : Stamp) (client : Client) (server : Server)
    (go : Desk → Snapshot → Outcome) :
    let acquired := client.acquire now server d.exchange
    (∃ s, acquired.1 = .ok s ∧ d.withAcquired now client server go =
      go { d with exchange := acquired.2 } s) ∨
      ∃ e, acquired.1 = .error e ∧ d.Fails (d.withAcquired now client server go) ∧
        (d.withAcquired now client server go).exchange.sent = acquired.2.sent ∧
        ∀ refusal, e = .refused refusal →
            (d.withAcquired now client server go).exit = .code 1 := by
  intro acquired
  unfold withAcquired
  rcases result : client.acquire now server d.exchange with ⟨(refusal | b) | s, x⟩
  · have failed : acquired = (.error (.refused refusal), x) := result
    rw [failed]
    exact .inr ⟨_, rfl, d.fails_refuse x refusal.message, rfl, fun _ _ => rfl⟩
  · have failed : acquired = (.error (.broke b), x) := result
    rw [failed]
    exact .inr ⟨_, rfl, d.fails_giveUp x b, rfl, fun _ same => by cases same⟩
  · have done : acquired = (.ok s, x) := result
    rw [done]
    exact .inl ⟨s, rfl, rfl⟩

theorem withBaseline_of_ok {now : Stamp} {path : Path} {s : Snapshot}
    (loaded : Baseline.load now d.tree path = .ok s) (go : Desk → Snapshot → Outcome) :
    d.withBaseline now path go = go d s := by
  simp only [withBaseline, loaded]

theorem withBaseline_of_defect {now : Stamp} {path : Path} {defect : Baseline.Defect}
    (loaded : Baseline.load now d.tree path = .error (.defect defect))
    (go : Desk → Snapshot → Outcome) :
    d.withBaseline now path go = d.refuse (Baseline.LoadError.mk path defect).message := by
  simp only [withBaseline, loaded]

/-- How a command ends that cannot save a file. -/
def exitOf : Baseline.SaveFailure → Exit
  | .unsaved _ => .code 1
  | .broke b => .broke b

theorem exitOf_ne_zero (failure : Baseline.SaveFailure) : exitOf failure ≠ .code 0 := by
  cases failure with
  | unsaved => exact fun same => absurd (Exit.code.inj same) (by decide)
  | broke => exact Exit.noConfusion

theorem unsaved_eq (d : Desk) (failure : Baseline.SaveFailure) :
    (d.unsaved failure).exit = exitOf failure ∧ (d.unsaved failure).tree = d.tree := by
  cases failure <;> exact ⟨rfl, rfl⟩

/-- A snapshot is stored before the next step, or the command fails and leaves behind what the
attempt has made of the files. -/
theorem saving_cases (d : Desk) (path : Path) (s : Snapshot) (go : Desk → Outcome) :
    (∃ d', (Baseline.save d.tree path s).2 = .ok () ∧ d'.tree = (Baseline.save d.tree path s).1 ∧
        d.saving path s go = go d') ∨
      ∃ failure, (Baseline.save d.tree path s).2 = .error failure ∧
        (d.saving path s go).exit = exitOf failure ∧
        (d.saving path s go).tree = (Baseline.save d.tree path s).1 := by
  unfold saving
  rcases Baseline.save d.tree path s with ⟨tree, failure | _⟩
  · obtain ⟨exit, files⟩ := unsaved_eq { d with tree } failure
    exact .inr ⟨failure, rfl, exit, files⟩
  · exact .inl ⟨_, rfl, rfl, rfl⟩

/-- The text of a schema is stored before the next step, or the command fails likewise. -/
theorem savingSdl_cases (d : Desk) (path : Path) (s : Snapshot) (go : Desk → Outcome) :
    (∃ d', (Baseline.saveSdl d.tree path s).2 = .ok () ∧
        d'.tree = (Baseline.saveSdl d.tree path s).1 ∧ d.savingSdl path s go = go d') ∨
      ∃ e, (Baseline.saveSdl d.tree path s).2 = .error e ∧
        (d.savingSdl path s go).exit ≠ .code 0 ∧
        (d.savingSdl path s go).tree = (Baseline.saveSdl d.tree path s).1 := by
  unfold savingSdl
  rcases Baseline.saveSdl d.tree path s with ⟨tree, (e | failure) | _⟩
  · exact .inr ⟨_, rfl, (fails_refuse { d with tree } d.exchange e.message).exit, rfl⟩
  · obtain ⟨exit, files⟩ := unsaved_eq { d with tree } failure
    exact .inr ⟨_, rfl, exit ▸ exitOf_ne_zero failure, files⟩
  · exact .inl ⟨_, rfl, rfl, rfl⟩

end Desk

end SchemaBaseline.CommandLine
