import SchemaBaseline.Compat.Findings
import SchemaBaseline.Time.Stamp

/-!
# What is known about the validation

A `Progress` is what a gate remembers of its validation: a status and, as far as there are any,
the findings, the time and the error. It is replaced as a whole whenever the validation gets on,
and whoever asks is answered from its parts. That the parts fit together is up to those who make
one.
-/

namespace SchemaBaseline

open Time (Stamp)

/-- What an incompatible schema leads to: refusal, a warning, or nothing since nothing is
validated. -/
inductive Mode
  | strict
  | warn
  | ignore
deriving Repr, DecidableEq

def Mode.label : Mode → String
  | .strict => "strict"
  | .warn => "warn"
  | .ignore => "ignore"

def Mode.ofLabel? (label : String) : Option Mode :=
  [Mode.strict, .warn, .ignore].find? fun mode => mode.label == label

/-- How far a validation has come. -/
inductive Status
  | unstarted
  | validating
  | valid
  | invalid
  | baselineCreated
  | failed
deriving Repr, DecidableEq

def Status.label : Status → String
  | .unstarted => "unstarted"
  | .validating => "validating"
  | .valid => "valid"
  | .invalid => "invalid"
  | .baselineCreated => "baseline_created"
  | .failed => "failed"

/-- What is known about a validation. -/
structure Progress where
  status : Status := .unstarted
  /-- The findings, if schemas were compared. -/
  result : Option Findings := none
  /-- When the validation came to its end. -/
  endedAt : Option Stamp := none
  error : Option String := none
deriving Repr, DecidableEq

namespace Progress

/-- Whether schemas were compared and found compatible. -/
def isValid (p : Progress) : Bool :=
  match p.result with
  | some result => result.isValid
  | none => false

/-- The findings, which are none before schemas were compared, and when the validation ended. -/
def lastResult (p : Progress) : Findings × Option Stamp :=
  (p.result.getD .none, p.endedAt)

/-- The findings as a text for reading, or why there are none. -/
def report (p : Progress) : String :=
  match p.result with
  | some result => result.report
  | none =>
    if p.status = .baselineCreated then "Schema validation skipped (baseline created)"
    else "Schema validation has not been performed yet"

end Progress

end SchemaBaseline
