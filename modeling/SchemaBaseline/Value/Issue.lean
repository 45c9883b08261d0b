import SchemaBaseline.Value.Basic

/-!
# Issues with values

A value that does not have the expected shape is reported as a list of issues, each with the place
where it lies. `Checked` is the result of a check; combining two results keeps the issues of both,
in order, so that a check of many parts reports all that is wrong with any of them.
-/

namespace SchemaBaseline

/-- What is wrong with a value. -/
inductive Problem
  | missing
  | notAnObject
  | notText
  | brokenText
  | notAList
  | notABool
  | unreadableBool
  | notAChoice
  | notAStamp
  | badStamp
  | unreadableStamp
  | tooDeep
  | rejected (reason : String)
  | notAnInt
  | unreadableInt
  | fractionalInt
  | oversizedInt
  | notFinite
  | notANumber
  | unreadableNumber
  | notAPath
  | unexpected
deriving Repr, DecidableEq

def Problem.code : Problem → String
  | .missing => "missing"
  | .notAnObject => "model_type"
  | .notText => "string_type"
  | .brokenText => "string_unicode"
  | .notAList => "tuple_type"
  | .notABool => "bool_type"
  | .unreadableBool => "bool_parsing"
  | .notAChoice => "literal_error"
  | .notAStamp => "datetime_type"
  | .badStamp => "datetime_parsing"
  | .unreadableStamp => "datetime_from_date_parsing"
  | .tooDeep => "recursion_loop"
  | .rejected _ => "value_error"
  | .notAnInt => "int_type"
  | .unreadableInt => "int_parsing"
  | .fractionalInt => "int_from_float"
  | .oversizedInt => "int_parsing_size"
  | .notFinite => "finite_number"
  | .notANumber => "float_type"
  | .unreadableNumber => "float_parsing"
  | .notAPath => "path_type"
  | .unexpected => "extra_forbidden"

/-- The explanation that comes with a problem, where there is one. -/
def Problem.detail : Problem → Option String
  | .rejected reason => some ("Value error, " ++ reason)
  | _ => none

/-- A step from a value to one of its parts. -/
inductive Step
  | name (key : String)
  | index (i : Nat)
deriving Repr, DecidableEq

/-- A problem and the place where it lies. -/
structure Issue where
  place : List Step
  problem : Problem
deriving Repr, DecidableEq

/-- An issue with a part, seen from the whole. -/
def Issue.under (step : Step) (issue : Issue) : Issue :=
  { issue with place := step :: issue.place }

/-- The result of a check: a value, or all that is wrong. -/
inductive Checked (α : Type)
  | ok (value : α)
  | bad (issues : List Issue)

namespace Checked

variable {α β : Type}

/-- A check that fails with one problem at the value itself. -/
def fail (problem : Problem) : Checked α :=
  .bad [⟨[], problem⟩]

/-- Applies a function to the result. -/
def map (f : α → β) : Checked α → Checked β
  | .ok a => .ok (f a)
  | .bad issues => .bad issues

/-- Combines two checks; the issues of both are kept. -/
def apply (f : Checked (α → β)) (a : Checked α) : Checked β :=
  match f, a with
  | .ok f, .ok a => .ok (f a)
  | .ok _, .bad issues => .bad issues
  | .bad issues, .ok _ => .bad issues
  | .bad first, .bad second => .bad (first ++ second)

/-- A further check of a good result. -/
def andThen (a : Checked α) (f : α → Checked β) : Checked β :=
  match a with
  | .ok a => f a
  | .bad issues => .bad issues

/-- A check of a part, seen from the whole. -/
def under (step : Step) : Checked α → Checked α
  | .ok a => .ok a
  | .bad issues => .bad (issues.map (Issue.under step))

/-- All that is wrong. -/
def issues : Checked α → List Issue
  | .ok _ => []
  | .bad issues => issues

@[simp] theorem map_ok (f : α → β) (a : α) : (Checked.ok a).map f = .ok (f a) := rfl

@[simp] theorem apply_ok_ok (f : α → β) (a : α) : (Checked.ok f).apply (.ok a) = .ok (f a) := rfl

@[simp] theorem under_ok (step : Step) (a : α) : (Checked.ok a).under step = .ok a := rfl

@[simp] theorem andThen_ok (a : α) (f : α → Checked β) : (Checked.ok a).andThen f = f a := rfl

/-- A combined check succeeds exactly when both parts do. -/
theorem apply_eq_ok_iff {f : Checked (α → β)} {a : Checked α} {b : β} :
    f.apply a = .ok b ↔ ∃ g x, f = .ok g ∧ a = .ok x ∧ g x = b := by
  cases f <;> cases a <;> simp [apply]

theorem map_eq_ok_iff {f : α → β} {a : Checked α} {b : β} :
    a.map f = .ok b ↔ ∃ x, a = .ok x ∧ f x = b := by
  cases a <;> simp [map]

theorem under_eq_ok_iff {step : Step} {a : Checked α} {x : α} :
    a.under step = .ok x ↔ a = .ok x := by
  cases a <;> simp [under]

theorem andThen_eq_ok_iff {a : Checked α} {f : α → Checked β} {b : β} :
    a.andThen f = .ok b ↔ ∃ x, a = .ok x ∧ f x = .ok b := by
  cases a <;> simp [andThen]

/-! The issues of a combined check are those of its parts. -/

variable {issue : Issue}

theorem mem_issues_map {f : α → β} {a : Checked α} :
    issue ∈ (a.map f).issues ↔ issue ∈ a.issues := by
  cases a <;> rfl

theorem mem_issues_apply {f : Checked (α → β)} {a : Checked α} :
    issue ∈ (f.apply a).issues ↔ issue ∈ f.issues ∨ issue ∈ a.issues := by
  cases f <;> cases a <;> simp [apply, issues]

theorem mem_issues_under {step : Step} {a : Checked α} :
    issue ∈ (a.under step).issues ↔ ∃ inside ∈ a.issues, inside.under step = issue := by
  cases a <;> simp [under, issues]

theorem mem_issues_andThen {a : Checked α} {f : α → Checked β} :
    issue ∈ (a.andThen f).issues ↔ issue ∈ a.issues ∨ ∃ x, a = .ok x ∧ issue ∈ (f x).issues := by
  cases a <;> simp [andThen, issues]

theorem eq_of_mem_issues_fail {problem : Problem}
    (member : issue ∈ (fail problem : Checked α).issues) : issue = ⟨[], problem⟩ :=
  List.mem_singleton.mp member

end Checked

end SchemaBaseline
