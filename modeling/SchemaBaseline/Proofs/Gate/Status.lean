import Mathlib.Logic.Relation
import SchemaBaseline.Gate.Views
import SchemaBaseline.Proofs.Compat.Report
import SchemaBaseline.Proofs.Gate.Stage

/-!
# The status of a gate

A validation gets on from `unstarted` through `validating` to one of its four ends, where it
stays: `Progress.Next` lists the steps, and `Core.Move.leads` shows that whatever happens to the
core is made of them. One event can take two: a baseline that cannot even be read has the
validation start and fail at once.

Nothing keeps a `Progress` from having a status that its findings, its time and its error belie.
`Progress.Coherent` says that they bear it out. It holds of what a run makes known at each of the
four places where it does so, hence every move keeps it (`Core.Move.coherent`), and with it every
history (`Site.coherent_after`). Whoever looks at a gate from outside is answered from one or
another part of its progress. Because it is coherent the report tells the status
(`Progress.Reported`), and everyone is shown the same (`Gate.Shown`).
-/

namespace SchemaBaseline

open Files (Path Tree)
open Time (Stamp)

namespace Progress

/-! ## Getting on -/

/-- One step by which a validation gets on. -/
inductive Next : Progress → Progress → Prop
  | start : Next .unstarted .validating
  | compare (result : Findings) (time : Stamp) : Next .validating (.compared result time)
  | createBaseline (time : Stamp) : Next .validating (.baselineCreated time)
  | fail (message : String) (time : Stamp) : Next .validating (.failed message time)

/-- A validation gets on by any number of steps. -/
abbrev Leads : Progress → Progress → Prop :=
  Relation.ReflTransGen Next

/-- What a validation that has come to its end can say of itself. -/
def finalStatuses : List Status :=
  [.valid, .invalid, .baselineCreated, .failed]

variable {p q : Progress}

theorem Next.not_final (next : Next p q) : p.status ∉ finalStatuses := by
  cases next <;> decide

/-- A validation that has come to its end stays as it is. -/
theorem Leads.eq_of_final (leads : Leads p q) (final : p.status ∈ finalStatuses) : q = p := by
  rcases Relation.ReflTransGen.cases_head leads with rfl | ⟨_, next, -⟩
  · rfl
  · exact absurd final next.not_final

/-! ## What is known at each status -/

/-- There are findings, a time and an error just where the status says so. -/
structure Coherent (p : Progress) : Prop where
  result : p.result.isSome ↔ p.status = .valid ∨ p.status = .invalid
  valid : p.status = .valid ↔ ∃ result, p.result = some result ∧ result.errors = []
  invalid : p.status = .invalid ↔ ∃ result, p.result = some result ∧ result.errors ≠ []
  time : p.endedAt.isSome ↔ p.status ∈ finalStatuses
  error : p.error.isSome ↔ p.status = .failed

theorem status_of_clean {result : Findings} (clean : result.errors = []) (time : Stamp) :
    (compared result time).status = .valid :=
  if_pos (Findings.isValid_iff.mpr clean)

theorem status_of_flawed {result : Findings} (flawed : result.errors ≠ []) (time : Stamp) :
    (compared result time).status = .invalid :=
  if_neg (mt Findings.isValid_iff.mp flawed)

theorem coherent_unstarted : Coherent .unstarted := by
  constructor <;> simp [finalStatuses]

theorem coherent_validating : Coherent .validating := by
  constructor <;> simp [finalStatuses]

theorem coherent_compared (result : Findings) (time : Stamp) :
    Coherent (.compared result time) := by
  by_cases clean : result.errors = []
  · have valid := status_of_clean clean time
    constructor <;> rw [valid] <;> simp [finalStatuses, clean]
  · have invalid := status_of_flawed clean time
    constructor <;> rw [invalid] <;> simp [finalStatuses, clean]

theorem coherent_baselineCreated (time : Stamp) : Coherent (.baselineCreated time) := by
  constructor <;> simp [finalStatuses]

theorem coherent_failed (message : String) (time : Stamp) : Coherent (.failed message time) := by
  constructor <;> simp [finalStatuses]

namespace Coherent

theorem isValid_iff (coherent : p.Coherent) : p.isValid = true ↔ p.status = .valid := by
  rw [coherent.valid]
  cases found : p.result <;> simp [isValid, found, Findings.isValid_iff]

/-- Without findings the status is none of a comparison. -/
theorem of_none (coherent : p.Coherent) (unknown : p.result = none) :
    p.status ≠ .valid ∧ p.status ≠ .invalid := by
  have neither := mt coherent.result.mpr (by rw [unknown]; exact Bool.false_ne_true)
  exact not_or.mp neither

/-- With findings the status is that of a comparison. -/
theorem of_some (coherent : p.Coherent) {result : Findings} (known : p.result = some result) :
    p.status = .valid ∧ result.errors = [] ∨ p.status = .invalid ∧ result.errors ≠ [] := by
  by_cases clean : result.errors = []
  · exact .inl ⟨coherent.valid.mpr ⟨result, known, clean⟩, clean⟩
  · exact .inr ⟨coherent.invalid.mpr ⟨result, known, clean⟩, clean⟩

end Coherent

/-! ## Reports -/

/-- The report tells the status. -/
structure Reported (p : Progress) : Prop where
  valid : "Schema Validation PASSED".toList <+: p.report.toList ↔ p.status = .valid
  invalid : "Schema Validation FAILED".toList <+: p.report.toList ↔ p.status = .invalid
  created : p.report = "Schema validation skipped (baseline created)" ↔
    p.status = .baselineCreated

theorem report_of_some {result : Findings} (known : p.result = some result) :
    p.report = result.report := by
  rw [report, known]

theorem report_of_none (unknown : p.result = none) :
    p.report = if p.status = .baselineCreated then "Schema validation skipped (baseline created)"
      else "Schema validation has not been performed yet" := by
  rw [report, unknown]

/-- The report on a comparison opens with its verdict. -/
theorem isPrefix_report_iff {result : Findings} (known : p.result = some result) {title : String}
    (length : title.toList.length = 24) :
    title.toList <+: p.report.toList ↔ title.toList = result.verdict.toList := by
  rw [report_of_some known]
  exact Findings.isPrefix_report_iff length

theorem Coherent.reported (coherent : p.Coherent) : p.Reported := by
  cases found : p.result with
  | none =>
    obtain ⟨notValid, notInvalid⟩ := coherent.of_none found
    have told := report_of_none found
    refine ⟨iff_of_false ?_ notValid, iff_of_false ?_ notInvalid, ?_⟩ <;> rw [told]
    · split <;> decide
    · split <;> decide
    · by_cases created : p.status = .baselineCreated
      · exact iff_of_true (if_pos created) created
      · exact iff_of_false (by rw [if_neg created]; decide) created
  | some result =>
    have skipped : p.report ≠ "Schema validation skipped (baseline created)" := by
      rw [report_of_some found]
      exact Findings.report_ne (by decide) (by decide)
    rcases coherent.of_some found with ⟨status, clean⟩ | ⟨status, flawed⟩
    · have verdict : result.verdict = "Schema Validation PASSED" :=
        if_pos (Findings.isValid_iff.mpr clean)
      refine ⟨?_, ?_, iff_of_false skipped (by rw [status]; decide)⟩ <;>
        rw [isPrefix_report_iff found (by decide), verdict, status] <;> decide
    · have verdict : result.verdict = "Schema Validation FAILED" :=
        if_neg (mt Findings.isValid_iff.mp flawed)
      refine ⟨?_, ?_, iff_of_false skipped (by rw [status]; decide)⟩ <;>
        rw [isPrefix_report_iff found (by decide), verdict, status] <;> decide

end Progress

theorem Value.ofTextOrNull_ne_null {text : Option String} :
    Value.ofTextOrNull text ≠ .null ↔ text.isSome := by
  cases text <;> simp [ofTextOrNull]

namespace Gate

open Progress (Leads finalStatuses)

/-! ## What is shown -/

/-- Whoever looks at a gate from outside is shown what its status says. The last findings come
with the time of any end, also of one without a comparison. -/
structure Shown (g : Gate) : Prop where
  isValid : g.progress.isValid = true ↔ g.progress.status = .valid
  lastResult : g.progress.result = some g.progress.lastResult.1 ∧
      (g.progress.status = .valid ∨ g.progress.status = .invalid) ∨
    g.progress.lastResult.1 = .none ∧ g.progress.status ≠ .valid ∧ g.progress.status ≠ .invalid
  lastTime : g.progress.lastResult.2.isSome ↔ g.progress.status ∈ finalStatuses
  report : g.progress.status = .valid ∨ g.progress.status = .invalid →
    g.progress.report = g.progress.lastResult.1.report
  reportView : (reportView g).field "report" = .text g.progress.report
  resultView : (Gate.reportView g).field "result" = g.progress.lastResult.1.toValue
  status : (statusView g).field "status" = .text g.progress.status.label
  statusValid : (statusView g).field "is_valid" = .bool (g.progress.status = .valid)
  statusTime : (statusView g).field "validated_at" ≠ .null ↔ g.progress.status ∈ finalStatuses
  statusError : (statusView g).field "error" ≠ .null ↔ g.progress.status = .failed
  health : (healthView g).field "schema_status" = .text g.progress.status.label
  healthValid : (healthView g).field "schema_valid" = .bool (g.progress.status = .valid)

theorem statusView_status (g : Gate) :
    (statusView g).field "status" = .text g.progress.status.label :=
  rfl

theorem isValid_of_coherent {g : Gate} (coherent : g.progress.Coherent) :
    g.progress.isValid = decide (g.progress.status = .valid) := by
  rw [Bool.eq_iff_iff, coherent.isValid_iff, decide_eq_true_iff]

theorem shown_of_coherent {g : Gate} (coherent : g.progress.Coherent) : g.Shown where
  isValid := coherent.isValid_iff
  lastResult := by
    cases found : g.progress.result with
    | none =>
      exact .inr ⟨by rw [Progress.lastResult, found]; rfl, coherent.of_none found⟩
    | some result =>
      refine .inl ⟨by rw [Progress.lastResult, found]; rfl, coherent.result.mp ?_⟩
      rw [found]
      rfl
  lastTime := coherent.time
  report compared := by
    obtain ⟨result, found⟩ := Option.isSome_iff_exists.mp (coherent.result.mpr compared)
    rw [Progress.report_of_some found, Progress.lastResult, found]
    rfl
  reportView := rfl
  resultView := rfl
  status := statusView_status g
  statusValid := by
    have told : (statusView g).field "is_valid" = .bool g.progress.isValid := rfl
    rw [told, isValid_of_coherent coherent]
  statusTime := by
    have told : (statusView g).field "validated_at" = timeValue g.progress.endedAt := rfl
    rw [told, ← coherent.time, timeValue, Value.ofTextOrNull_ne_null, Option.isSome_map]
  statusError := by
    have told : (statusView g).field "error" = .ofTextOrNull g.progress.error := rfl
    rw [told, Value.ofTextOrNull_ne_null, coherent.error]
  health := rfl
  healthValid := by
    have told : (healthView g).field "schema_valid" = .bool g.progress.isValid := rfl
    rw [told, isValid_of_coherent coherent]

/-! ## Histories -/

/-- Whatever a run makes known is coherent, and a cancellation makes nothing known. -/
theorem Core.Move.coherent {now : Stamp} {c c' : Core} (move : c.Move now c')
    (coherent : c.progress.Coherent) : c'.progress.Coherent := by
  cases move with
  | stay | create | cancelCreated | cancelAcquiring => exact coherent
  | askKnown | askUnknown => exact Progress.coherent_validating
  | compare _ _ _ result => exact Progress.coherent_compared result now
  | store => exact Progress.coherent_baselineCreated now
  | failLoading | failComparing | failStoring | refuse | failAsking =>
    exact Progress.coherent_failed _ now

theorem Site.coherent_after {s : Site} (coherent : s.core.progress.Coherent) (history : History) :
    (s.after history).core.progress.Coherent :=
  core_after_of_move (P := fun c => c.progress.Coherent)
    (fun _ _ _ move coherent => move.coherent coherent) coherent history

theorem Core.Move.leads {now : Stamp} {c c' : Core} (move : c.Move now c')
    (stage : Stage c.run c.progress c.tally) : Leads c.progress c'.progress := by
  cases move with
  | stay | create | cancelCreated | cancelAcquiring => exact .refl
  | askKnown _ _ created | askUnknown _ _ created =>
    obtain ⟨unstarted, -⟩ := (created ▸ stage).of_created
    rw [unstarted]
    exact .single .start
  | failLoading path b created =>
    obtain ⟨unstarted, -⟩ := (created ▸ stage).of_created
    rw [unstarted]
    -- One event, two steps: the validation starts and fails.
    exact .tail (.single .start) (.fail b.message now)
  | compare path expected actual result acquiring =>
    obtain ⟨validating, -⟩ := (acquiring ▸ stage).of_acquiring
    rw [validating]
    exact .single (.compare result now)
  | store path actual acquiring =>
    obtain ⟨validating, -⟩ := (acquiring ▸ stage).of_acquiring
    rw [validating]
    exact .single (.createBaseline now)
  | failComparing _ _ _ _ acquiring | failStoring _ _ _ acquiring | refuse _ _ _ acquiring
  | failAsking _ _ _ acquiring =>
    obtain ⟨validating, -⟩ := (acquiring ▸ stage).of_acquiring
    rw [validating]
    exact .single (.fail _ now)

theorem Site.leads_after {s : Site} (lawful : s.core.Lawful) (history : History) :
    Leads s.core.progress (s.after history).core.progress := by
  induction history generalizing s with
  | nil => exact .refl
  | cons moment later ih =>
    obtain ⟨now, e⟩ := moment
    have move := move_step s now e
    exact (move.leads lawful.stage).trans (ih (lawful.move move))

/-- Whatever happens at a gate, in whatever order: its status gets on step by step from where it
was before, and no further once the validation has come to an end; it says how far the run has
come; findings, time and error are there just where it says so; and everyone is shown the same. -/
theorem status_after (mode : Mode) (tree : Tree) (log : List LogEntry) (earlier later : History) :
    let s := (Site.mk (.fresh mode) tree log).after earlier
    Leads .unstarted s.gate.progress ∧
      Leads s.gate.progress (s.after later).gate.progress ∧
      (s.gate.progress.status ∈ finalStatuses →
        (s.after later).gate.progress = s.gate.progress) ∧
      Stage s.gate.run s.gate.progress s.gate.tally ∧
      s.gate.progress.Coherent ∧ s.gate.progress.Reported ∧ s.gate.Shown := by
  intro s
  have fresh := Site.lawful_fresh mode tree log
  have lawful : s.core.Lawful := Site.lawful_after fresh earlier
  have leads : Leads s.gate.progress (s.after later).gate.progress :=
    Site.leads_after lawful later
  have unstarted : (Site.mk (.fresh mode) tree log).core.progress.Coherent :=
    Progress.coherent_unstarted
  have coherent : s.gate.progress.Coherent := Site.coherent_after unstarted earlier
  exact ⟨Site.leads_after fresh earlier, leads, leads.eq_of_final, lawful.stage, coherent,
    coherent.reported, shown_of_coherent coherent⟩

theorem status_after_refusal :
    let path : Path := ⟨"", ["schema.json"]⟩
    let refused : History := [(default, .call .foreground path), (default, .begin 0),
      (default, .startRun), (default, .acquired (.error (.refused "down")))]
    let later : History := [(default, .shutdown), (default, .call .background path),
      (default, .begin 1), (default, .startRun)]
    ((Site.mk (.fresh .warn) .empty []).after refused).gate.progress.status = .failed ∧
      (((Site.mk (.fresh .warn) .empty []).after refused).after later).gate.progress =
        ((Site.mk (.fresh .warn) .empty []).after refused).gate.progress ∧
      ((Site.mk (.fresh .warn) .empty []).after refused).gate.progress.error = some "down" ∧
      (statusView ((Site.mk (.fresh .warn) .empty []).after refused).gate).field "error" ≠
        .null := by
  intro path refused later
  have failed : ((Site.mk (.fresh .warn) .empty []).after refused).gate.progress.status =
      .failed := by
    decide +kernel
  have message : ((Site.mk (.fresh .warn) .empty []).after refused).gate.progress.error =
      some "down" := by
    decide +kernel
  obtain ⟨-, -, stays, -, -, -, shown⟩ := status_after .warn .empty [] refused later
  exact ⟨failed, stays (by rw [failed]; decide), message, shown.statusError.mpr failed⟩

end Gate

end SchemaBaseline
