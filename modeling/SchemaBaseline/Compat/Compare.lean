import SchemaBaseline.Compat.Findings
import SchemaBaseline.Schema.Basic

/-!
# Comparing schemas

`compare` holds an actual schema against an expected one. What is removed or changes its type is
an error; what the actual schema adds is not reported. No finding ends the comparison. Root
operation types come first, then the expected types with their parts, all in the order in which
they are stored. Types are compared by their spelling; a reference without a spelling makes the
comparison fail, which never happens with loaded schemas.
-/

namespace SchemaBaseline

open TypeRef (Malformed)

/-- A comparison that may meet a malformed reference. -/
abbrev Comparison := Except Malformed Findings

/-- Compares the parts of a list, one after the other. -/
def compareEach {α : Type} (check : α → Comparison) : List α → Comparison
  | [] => .ok .none
  | part :: rest => do
    let first ← check part
    let others ← compareEach check rest
    .ok (first ++ others)

/-- Compares two references. The first text names the place among the mismatches, the second one
in the error. -/
def compareRefs (place what : String) (expected actual : TypeRef) : Comparison := do
  let want ← expected.canonical
  let got ← actual.canonical
  .ok (if want = got then .none else
    { Findings.none with
      typeMismatches := [s!"{place}: expected {want}, got {got}"]
      errors := [s!"{what} type mismatch: expected {want}, got {got}"] })

/-- The trouble with a root operation type, if any. Roots that are not expected do not matter. -/
def rootProblem (label : String) (expected actual : Option String) : Option String :=
  match expected, actual with
  | none, _ => none
  | some _, none => some s!"{label} type is missing from server schema"
  | some want, some got =>
    if want = got then none else some s!"{label} type name mismatch: expected {want}, got {got}"

/-- Trouble with the query root is an error, with the others a warning. -/
def compareRoots (expected actual : Schema) : Findings :=
  ((rootProblem "Query" expected.queryType actual.queryType).map Findings.error).getD .none ++
    ((rootProblem "Mutation" expected.mutationType actual.mutationType).map
      Findings.warning).getD .none ++
    ((rootProblem "Subscription" expected.subscriptionType actual.subscriptionType).map
      Findings.warning).getD .none

def compareArg (place : String) (actual : FieldDef) (arg : InputValue) : Comparison :=
  match actual.arg? arg.name with
  | none => .ok (.error s!"Argument '{arg.name}' is missing from field '{place}'")
  | some found =>
    compareRefs s!"{place}({arg.name})" s!"Argument '{arg.name}' of field '{place}'"
      arg.type found.type

/-- A field that became deprecated is worth a warning. -/
def compareDeprecation (place : String) (expected actual : FieldDef) : Findings :=
  if actual.isDeprecated && !expected.isDeprecated then
    let reason := actual.deprecationReason.getD ""
    let reason := if reason.isEmpty then "no reason given" else reason
    { Findings.none with
      deprecatedFields := [place]
      warnings := [s!"Field '{place}' is deprecated: {reason}"] }
  else .none

/-- Compares a field of an object or interface type. -/
def compareField (actual : NamedType) (typeName : String) (field : FieldDef) : Comparison :=
  let place := s!"{typeName}.{field.name}"
  match actual.field? field.name with
  | none => .ok { Findings.none with
      missingFields := [place]
      errors := [s!"Field '{field.name}' is missing from type '{typeName}'"] }
  | some found => do
    let types ← compareRefs place s!"Field '{place}'" field.type found.type
    let args ← compareEach (compareArg place found) field.args
    .ok (types ++ compareDeprecation place field found ++ args)

def compareInputField (actual : NamedType) (typeName : String) (field : InputValue) :
    Comparison :=
  let place := s!"{typeName}.{field.name}"
  match actual.inputField? field.name with
  | none => .ok { Findings.none with
      missingFields := [place]
      errors := [s!"Input field '{field.name}' is missing from input object '{typeName}'"] }
  | some found => compareRefs place s!"Input field '{place}'" field.type found.type

def compareEnumValue (actual : NamedType) (typeName : String) (value : EnumValue) : Findings :=
  match actual.enumValue? value.name with
  | none => .error s!"Enum value '{value.name}' is missing from enum '{typeName}'"
  | some _ => .none

/-- Compares the parts of two types of the same kind. -/
def compareParts (expected actual : NamedType) : Comparison :=
  match expected.kind with
  | .object | .interface => compareEach (compareField actual expected.name) expected.fields
  | .enum => .ok (.concat (expected.enumValues.map (compareEnumValue actual expected.name)))
  | .inputObject => compareEach (compareInputField actual expected.name) expected.inputFields
  | .scalar | .union => .ok .none

/-- Compares an expected type with the actual type of its name. Types of the introspection system
do not matter. -/
def compareType (actual : Schema) (type : NamedType) : Comparison :=
  if type.isInternal then .ok .none
  else match actual.type? type.name with
    | none => .ok { Findings.none with
        missingTypes := [type.name]
        errors := [s!"Type '{type.name}' is missing from server schema"] }
    | some found =>
      if type.kind = found.kind then compareParts type found
      else .ok { Findings.none with
        typeMismatches := [s!"{type.name}: expected {type.kind.label}, got {found.kind.label}"]
        errors := [s!"Type '{type.name}' kind mismatch: " ++
          s!"expected {type.kind.label}, got {found.kind.label}"] }

def Schema.compare (expected actual : Schema) : Comparison := do
  let types ← compareEach (compareType actual) expected.types
  .ok (compareRoots expected actual ++ types)

/-- Compares the schemas of two snapshots. -/
def Snapshot.compare (expected actual : Snapshot) : Comparison :=
  expected.schema.compare actual.schema

end SchemaBaseline
