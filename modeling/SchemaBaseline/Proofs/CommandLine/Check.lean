import SchemaBaseline.Proofs.Compat.Report
import SchemaBaseline.Proofs.CommandLine.Steps
import SchemaBaseline.Proofs.Gate.Validates

/-!
# A check and a validation reach the same verdict

The schema of a server can be compared with the baseline in two ways: at once, by a command, or by
a gate, which goes on to serve. The two go about it differently and treat failures differently.
But both load, acquire and compare, and what they come to depends on `Snapshot.findings?` alone:
for a command by `Desk.check_cases`, for a gate by `Validates.cases`. `check_agrees` puts the two
beside each other.
-/

namespace SchemaBaseline.CommandLine

open Files (Path Tree)
open Gate (CallKind Site Validates)
open Introspection (AcquireError Client Exchange Server)
open Time (Stamp)

/-! ## The command -/

/-- With a baseline a check ends with the findings about what the client gets, which it prints, or
it fails if there are none. -/
theorem Desk.check_cases (d : Desk) {now : Stamp} {path : Path} {known : Snapshot}
    (loaded : Baseline.load now d.tree path = .ok known) (client : Client) (server : Server) :
    let acquired := client.acquire now server d.exchange
    let o := d.check now client server path
    o.exchange.sent = acquired.2.sent ∧
      ((∃ findings, known.findings? acquired.1 = some findings ∧
        o.exit = .code (if findings.isValid then 0 else 1) ∧
          o.output = d.output ++ (findings.report ++ "\n")) ∨
        known.findings? acquired.1 = none ∧ d.Fails o ∧
          ∀ refusal, acquired.1 = .error (.refused refusal) → o.exit = .code 1) := by
  intro acquired o
  have unfolded : o = d.check now client server path := rfl
  rw [check, withBaseline_of_ok loaded] at unfolded
  rcases d.withAcquired_cases now client server _ with
    ⟨actual, served, goesOn⟩ | ⟨e, failed, fails, sent, refused⟩
  · rw [goesOn] at unfolded
    have served : acquired.1 = .ok actual := served
    rw [served]
    rcases comparison : known.compare actual with e | findings
    · simp only [comparison] at unfolded
      have fails : d.Fails o := unfolded ▸ d.fails_refuse acquired.2 e.message
      refine ⟨by rw [unfolded]; rfl, .inr ⟨?_, fails, fun _ same => by cases same⟩⟩
      simp only [Snapshot.findings?, comparison, Except.toOption]
    · simp only [comparison] at unfolded
      refine ⟨by rw [unfolded]; rfl,
        .inl ⟨findings, ?_, by rw [unfolded]; rfl, by rw [unfolded]; rfl⟩⟩
      simp only [Snapshot.findings?, comparison, Except.toOption]
  · rw [unfolded]
    have failed : acquired.1 = .error e := failed
    rw [failed]
    exact ⟨sent, .inr ⟨rfl, fails, fun refusal same => refused refusal (Except.error.inj same)⟩⟩

/-! ## Verdicts -/

/-- A command tells the verdict of a validation: by its exit code, and by the report that it
prints. -/
structure Outcome.Agrees (o : Outcome) (p : Progress) : Prop where
  valid : o.exit = .code 0 ↔ p.status = .valid
  invalid : o.exit = .code 1 ∧ o.output ≠ "" ↔ p.status = .invalid
  report : p.status = .valid ∨ p.status = .invalid → o.output = p.report ++ "\n"

theorem Outcome.Agrees.compared {o : Outcome} {findings : Findings}
    (exit : o.exit = .code (if findings.isValid then 0 else 1))
    (output : o.output = findings.report ++ "\n") (time : Stamp) :
    o.Agrees (.compared findings time) := by
  have printed : o.output ≠ "" := fun nothing => by
    rw [output, String.append_eq_empty_iff] at nothing
    exact absurd nothing.2 (by decide)
  by_cases clean : findings.isValid = true
  · have status : (Progress.compared findings time).status = .valid := if_pos clean
    rw [if_pos clean] at exit
    refine ⟨iff_of_true exit status, iff_of_false (fun ended => ?_) (by rw [status]; decide),
      fun _ => output⟩
    exact absurd (Exit.code.inj (exit.symm.trans ended.1)) (by decide)
  · have status : (Progress.compared findings time).status = .invalid := if_neg clean
    rw [if_neg clean] at exit
    refine ⟨iff_of_false (fun ended => ?_) (by rw [status]; decide),
      iff_of_true ⟨exit, printed⟩ status, fun _ => output⟩
    exact absurd (Exit.code.inj (exit.symm.trans ended)) (by decide)

theorem Outcome.Agrees.failed {o : Outcome} (exit : o.exit ≠ .code 0) (output : o.output = "")
    (message : String) (time : Stamp) :
    o.Agrees (.failed message time) := by
  have status : (Progress.failed message time).status = .failed := rfl
  refine ⟨iff_of_false exit ?_, iff_of_false (fun ended => ended.2 output) ?_, fun said => ?_⟩
  · rw [status]
    decide
  · rw [status]
    decide
  · rw [status] at said
    exact absurd said (by decide)

/-- However the settings are, and whatever the server answers: a command line that asks for a
check tells the verdict that a fresh gate comes to with the same baseline, the same client and the
same server, whatever happens at the gate as long as nobody shuts it down. If no schema can be
acquired, the exit code is one, nothing is printed, and the validation has failed. A single visit
to a gate comes to a verdict, and sends the requests that the command sends. Where there is no
baseline, the exit code is one, nothing is sent, and the files stay as they are. -/
theorem check_agrees {env : Settings.Environment} {settings : Settings} {args : List String}
    {verbose : Bool} {address : String} {baseline : Path}
    (configured : Settings.load env [] = .ok settings)
    (asked : Invocation.parse settings args = .ok ⟨verbose, .check address baseline⟩)
    (now : Stamp) (server : Server) (tree : Tree) :
    let client := settings.client address 0
    let acquired := (client.acquire now server ⟨[], Settings.loadLog env []⟩).1
    let o := run now env server tree args
    (∀ time known, Baseline.load time tree baseline = .ok known →
      (∀ mode progress, Validates client server mode tree baseline progress → o.Agrees progress ∧
        ∀ refusal, acquired = .error (.refused refusal) → o.exit = .code 1 ∧ o.output = "" ∧
          progress.status = .failed) ∧
      ∀ mode, mode ≠ .ignore → ∀ (log : List LogEntry) (kind : CallKind) (x : Exchange),
        x.sent = [] →
        let visited := (Site.mk (.fresh mode) tree log).visit time client server kind baseline x
        Validates client server mode tree baseline visited.1.gate.progress ∧
          visited.2.sent = o.exchange.sent) ∧
    ∀ time defect, Baseline.load time tree baseline = .error (.defect defect) →
      o.exit = .code 1 ∧ o.exchange.sent = [] ∧ o.tree = tree := by
  intro client acquired o
  let desk := { Desk.opening env tree verbose with client := some client }
  have carriedOut : o = desk.check now client server baseline :=
    run_of_parse configured asked now server tree
  refine ⟨fun time known loaded => ?_, fun time defect unloadable => ?_⟩
  · obtain ⟨known', loaded'⟩ := Baseline.exists_load_of_load loaded now
    obtain ⟨sent, outcome⟩ := desk.check_cases loaded' client server
    rw [← carriedOut] at sent outcome
    refine ⟨fun mode progress validates => ?_, fun mode active log kind x first => ?_⟩
    · have verdict := validates.cases loaded' now (x := desk.exchange) rfl
      rcases outcome with ⟨findings, found, exit, output⟩ | ⟨nothing, fails, refused⟩
      · have output : o.output = findings.report ++ "\n" := by
          rw [output]; exact String.empty_append
        rcases verdict with ⟨findings', ended, found', rfl⟩ | ⟨nothing, -⟩
        · cases found.symm.trans found'
          refine ⟨.compared exit output ended, fun refusal failed => ?_⟩
          have failed : (client.acquire now server desk.exchange).1 = .error (.refused refusal) :=
            failed
          rw [failed] at found
          cases found
        · cases found.symm.trans nothing
      · rcases verdict with ⟨findings, ended, found, -⟩ | ⟨-, message, ended, rfl⟩
        · cases nothing.symm.trans found
        · have output : o.output = "" := fails.output
          exact ⟨.failed fails.exit output message ended,
            fun refusal failed => ⟨refused refusal failed, output, rfl⟩⟩
    · refine ⟨Gate.validates_visit active client server tree log time kind baseline first, ?_⟩
      rw [Gate.sent_visit active client server log kind loaded x, sent]
      exact (Introspection.schema_acquire_eq client server time now first).2
  · obtain ⟨defect', unloadable'⟩ := Baseline.exists_defect_of_defect unloadable now
    have unloadable' : Baseline.load now desk.tree baseline = .error (.defect defect') :=
      unloadable'
    rw [carriedOut, Desk.check, Desk.withBaseline_of_defect unloadable']
    exact ⟨rfl, rfl, rfl⟩

/-- A baseline, checked against three servers: one that has the schema of the baseline, one that
has lost its queries, and one that does not answer. The first two checks print a report. -/
theorem check_agrees_shelf :
    let s : Snapshot := ⟨.shelf, default, "", ""⟩
    let path : Path := ⟨"", ["schema", "suwayomi_schema.json"]⟩
    let content := Text.Utf8.encode (Baseline.textOf .json s)
    let tree : Tree := (Tree.empty.put ["schema"] .directory).put
      ["schema", "suwayomi_schema.json"] (.file content)
    let client := Settings.default.client "http://localhost:4567" 0
    let same := Server.ofSchema .shelf
    let poorer := Server.ofSchema { Schema.shelf with queryType := none }
    let silent := Server.ofScript [] []
    Baseline.load default tree path = .ok s ∧
      (∃ progress, Validates client same .strict tree path progress ∧ progress.status = .valid ∧
        (run default [] same tree ["check"]).exit = .code 0 ∧
        (run default [] same tree ["check"]).output = progress.report ++ "\n") ∧
      (∃ progress, Validates client poorer .strict tree path progress ∧
        progress.status = .invalid ∧ (run default [] poorer tree ["check"]).exit = .code 1 ∧
        (run default [] poorer tree ["check"]).output = progress.report ++ "\n") ∧
      ∃ progress, Validates client silent .strict tree path progress ∧ progress.status = .failed ∧
        (run default [] silent tree ["check"]).exit = .code 1 ∧
        (run default [] silent tree ["check"]).output = "" := by
  intro s path content tree client same poorer silent
  have configured : Settings.load [] [] = .ok .default := rfl
  have asked : Invocation.parse .default ["check"] =
      .ok ⟨false, .check "http://localhost:4567" path⟩ := rfl
  have holds : tree.Holds path content := ⟨_, rfl, Tree.get?_put_self _ _ (by decide)⟩
  have loaded : Baseline.load default tree path = .ok s :=
    Baseline.load_of_holds default Schema.shelf_sound Schema.shelf_shallow
      (Baseline.formatOf_eq_json (by decide)) holds
  -- From here on the content of the file does not matter.
  clear_value tree
  have visited (server : Server) : ∃ progress,
      Validates client server .strict tree path progress ∧
      (run default [] server tree ["check"]).Agrees progress ∧
      ∀ refusal, (client.acquire default server .start).1 = .error (.refused refusal) →
      (run default [] server tree ["check"]).exit = .code 1 ∧
      (run default [] server tree ["check"]).output = "" ∧ progress.status = .failed := by
    obtain ⟨stored, -⟩ := check_agrees configured asked default server tree
    obtain ⟨agrees, visits⟩ := stored default s loaded
    obtain ⟨validates, -⟩ := visits .strict (by decide) [] .foreground .start rfl
    exact ⟨_, validates, agrees .strict _ validates⟩
  refine ⟨loaded, ?_, ?_, ?_⟩
  · obtain ⟨progress, validates, agrees, -⟩ := visited same
    obtain ⟨info, x, acquired⟩ := Introspection.exists_acquire_of_within client
      (Introspection.describes_ofSchema Schema.shelf_sound) Schema.shelf_sound
      Schema.shelf_shallow (by decide) (by decide) (by decide) default .start
    have clean : Schema.shelf.compare .shelf = .ok .none := by decide +kernel
    obtain ⟨ended, rfl⟩ :=
      validates.exists_compared loaded rfl (congrArg Prod.fst acquired) clean
    exact ⟨_, validates, rfl, agrees.valid.mpr rfl, agrees.report (.inl rfl)⟩
  · obtain ⟨progress, validates, agrees, -⟩ := visited poorer
    have sound : Schema.Sound { Schema.shelf with queryType := none } := by decide
    obtain ⟨info, x, acquired⟩ := Introspection.exists_acquire_of_within client
      (Introspection.describes_ofSchema sound) sound Schema.shelf_shallow
      (by decide) (by decide) (by decide) default .start
    have flawed : Schema.shelf.compare { Schema.shelf with queryType := none } =
        .ok (.error "Query type is missing from server schema") := by
      decide +kernel
    obtain ⟨ended, rfl⟩ :=
      validates.exists_compared loaded rfl (congrArg Prod.fst acquired) flawed
    exact ⟨_, validates, rfl, (agrees.invalid.mpr rfl).1, agrees.report (.inr rfl)⟩
  · obtain ⟨progress, validates, -, failed⟩ := visited silent
    obtain ⟨exit, output, status⟩ := failed (.unreachable "no scripted response") rfl
    exact ⟨_, validates, status, exit, output⟩

end SchemaBaseline.CommandLine
