import SchemaBaseline.Value.Load
import SchemaBaseline.Value.Display

/-!
# Findings of a comparison

What a comparison of two schemas finds, in six lists. The comparison is passed when there are no
errors; warnings do not count. `Findings.report` lays the lists out for reading: a header, a
section for every list that is not empty, and a closing line when there is nothing to say.
-/

namespace SchemaBaseline

/-- The findings of a comparison, each list in the order in which things were found. -/
structure Findings where
  errors : List String
  warnings : List String
  missingTypes : List String
  missingFields : List String
  typeMismatches : List String
  deprecatedFields : List String
deriving Repr, DecidableEq, Inhabited

namespace Findings

/-- Nothing found. -/
def none : Findings := ⟨[], [], [], [], [], []⟩

/-- Findings followed by further findings, list by list. -/
def append (first second : Findings) : Findings where
  errors := first.errors ++ second.errors
  warnings := first.warnings ++ second.warnings
  missingTypes := first.missingTypes ++ second.missingTypes
  missingFields := first.missingFields ++ second.missingFields
  typeMismatches := first.typeMismatches ++ second.typeMismatches
  deprecatedFields := first.deprecatedFields ++ second.deprecatedFields

instance : Append Findings := ⟨append⟩

/-- The findings of many comparisons, one after the other. -/
def concat (parts : List Findings) : Findings :=
  parts.foldr append none

/-- An error that shows in no other list. -/
def error (message : String) : Findings :=
  { none with errors := [message] }

/-- A warning that shows in no other list. -/
def warning (message : String) : Findings :=
  { none with warnings := [message] }

/-- Whether the comparison is passed. -/
def isValid (f : Findings) : Bool :=
  f.errors.isEmpty

theorem append_eq (f g : Findings) : f ++ g = append f g := rfl

@[simp] theorem append_none (f : Findings) : f ++ none = f := by
  rw [append_eq]; simp [append, none]

@[simp] theorem none_append (f : Findings) : none ++ f = f := by
  rw [append_eq]; simp [append, none]

theorem append_assoc (f g h : Findings) : f ++ g ++ h = f ++ (g ++ h) := by
  simp only [append_eq]; simp only [append, List.append_assoc]

/-! ## Reports -/

/-- The lines of a section: a title with the number of items, the items with a marker, and an
empty line. -/
def sectionLines (title marker : String) (items : List String) : List String :=
  if items.isEmpty then []
  else s!"{title} ({items.length}):" :: items.map (fun item => s!"  {marker} {item}") ++ [""]

def reportLines (f : Findings) : List String :=
  [if f.isValid then "Schema Validation PASSED" else "Schema Validation FAILED", ""] ++
    sectionLines "Errors" "x" f.errors ++
    sectionLines "Warnings" "!" f.warnings ++
    sectionLines "Missing Types" "-" f.missingTypes ++
    sectionLines "Missing Fields" "-" f.missingFields ++
    sectionLines "Type Mismatches" "-" f.typeMismatches ++
    sectionLines "Deprecated Fields" "-" f.deprecatedFields ++
    (if f.isValid && f.warnings.isEmpty then ["All schema validations passed successfully!", ""]
      else [])

def report (f : Findings) : String :=
  joined "\n" f.reportLines

/-! ## As document values -/

def textsValue (items : List String) : Value :=
  .list (items.map Value.text)

/-- The value of findings, which also says whether the comparison is passed. -/
def toValue (f : Findings) : Value := .object [
  ("errors", textsValue f.errors), ("warnings", textsValue f.warnings),
  ("missing_types", textsValue f.missingTypes), ("missing_fields", textsValue f.missingFields),
  ("type_mismatches", textsValue f.typeMismatches),
  ("deprecated_fields", textsValue f.deprecatedFields), ("is_valid", .bool f.isValid)]

/-- Findings from a value; a list that is absent is empty. -/
def load (v : Value) : Checked Findings :=
  match v.entries? with
  | .none => .fail .notAnObject
  | some entries =>
    let texts (name : String) : Checked (List String) :=
      Entries.optional entries name name [] (Value.loadItems Value.loadText)
    (((((texts "errors").map Findings.mk).apply (texts "warnings")).apply
      (texts "missing_types")).apply (texts "missing_fields")).apply
      (texts "type_mismatches") |>.apply (texts "deprecated_fields")

end Findings

end SchemaBaseline
