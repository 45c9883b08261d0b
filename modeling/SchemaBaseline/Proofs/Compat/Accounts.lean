import Mathlib.Algebra.BigOperators.Group.List.Basic
import Mathlib.Algebra.GroupWithZero.Nat
import SchemaBaseline.Proofs.Compat.Portions

/-!
# The lists of findings account for each other

Everything that is missing or has changed is reported as an error, and most of it is listed a
second time under what it is: a type, a field, or something of another kind or type. Not listed
are arguments and enumeration values that are absent, and the query root. Likewise every warning
is for a field that has become deprecated, which is listed, or for one of the other two roots. So
the lengths of the lists add up, and `Snapshot.compare_accounts` says how, with the fields that
have become deprecated named one by one.

`Held` pairs an expected part with the actual one that it is held against. What one comparison
contributes is `Findings.Accounts`, and `Comparison.accounts_compareEach` adds it up over a loop.
-/

namespace SchemaBaseline

variable {α : Type} {part found : α} {find : α → Option α}

/-! ## What is held against what -/

/-- An expected part and the actual part that it is held against. -/
structure Held (α : Type) where
  expected : α
  actual : α

/-- The parts for which a look-up finds an actual one, in their order. -/
def heldParts (find : α → Option α) (parts : List α) : List (Held α) :=
  parts.flatMap fun part => ((find part).map (Held.mk part)).toList

theorem heldParts_eq_flatMap (find : α → Option α) (parts : List α) :
    heldParts find parts = parts.flatMap fun part => heldParts find [part] := by
  simp only [heldParts, List.flatMap_singleton]

theorem heldParts_of_none (missing : find part = none) : heldParts find [part] = [] := by
  rw [heldParts, List.flatMap_singleton, missing]
  rfl

theorem heldParts_of_some (looked : find part = some found) :
    heldParts find [part] = [⟨part, found⟩] := by
  rw [heldParts, List.flatMap_singleton, looked]
  rfl

namespace Held

/-- The arguments of a field that the actual one lacks. -/
def absentArgs (field : Held FieldDef) : List InputValue :=
  field.expected.args.filter fun arg => (field.actual.arg? arg.name).isNone

/-- The actual field is deprecated, and the expected one was not. -/
def isNewlyDeprecated (field : Held FieldDef) : Bool :=
  field.actual.isDeprecated && !field.expected.isDeprecated

/-- Where a field of a type stands. -/
def place (typeName : String) (field : Held FieldDef) : String :=
  s!"{typeName}.{field.expected.name}"

/-- The fields of a type of a kind that has fields. -/
def fields (type : Held NamedType) : List (Held FieldDef) :=
  match type.expected.kind with
  | .object | .interface =>
    heldParts (fun field => type.actual.field? field.name) type.expected.fields
  | .enum | .inputObject | .scalar | .union => []

/-- The values of an enumeration that the actual one lacks. -/
def absentValues (type : Held NamedType) : List EnumValue :=
  match type.expected.kind with
  | .enum =>
    type.expected.enumValues.filter fun value => (type.actual.enumValue? value.name).isNone
  | .object | .interface | .inputObject | .scalar | .union => []

/-- The fields of a type that have become deprecated. -/
def newlyDeprecated (type : Held NamedType) : List String :=
  (type.fields.filter isNewlyDeprecated).map (place type.expected.name)

end Held

namespace Schema

/-- The type that a type is held against: it has the same name and the same kind. An internal type
is not held against any. -/
def counterpart? (actual : Schema) (type : NamedType) : Option NamedType :=
  if type.isInternal then none else (actual.type? type.name).filter fun found =>
    type.kind = found.kind

def heldTypes (expected actual : Schema) : List (Held NamedType) :=
  heldParts actual.counterpart? expected.types

def absentArgs (expected actual : Schema) : List InputValue :=
  (expected.heldTypes actual).flatMap fun type => type.fields.flatMap Held.absentArgs

def absentValues (expected actual : Schema) : List EnumValue :=
  (expected.heldTypes actual).flatMap Held.absentValues

def newlyDeprecated (expected actual : Schema) : List String :=
  (expected.heldTypes actual).flatMap Held.newlyDeprecated

end Schema

/-- An expected root operation type is missing or has another name. -/
def rootLost (expected actual : Option String) : Bool :=
  expected.isSome && actual != expected

/-! ## Findings that account for each other -/

/-- The errors are those that other lists show and some that are not listed, and the warnings are
for deprecated fields and some more. -/
structure Findings.Accounts (found : Findings) (unlisted warned : Nat)
    (deprecated : List String) : Prop where
  errors_length : found.errors.length =
    found.missingTypes.length + found.missingFields.length +
      found.typeMismatches.length + unlisted
  warnings_length : found.warnings.length = found.deprecatedFields.length + warned
  deprecatedFields_eq : found.deprecatedFields = deprecated

theorem Findings.accounts_none : Findings.none.Accounts 0 0 [] :=
  ⟨rfl, rfl, rfl⟩

theorem Findings.Accounts.append {f g : Findings} {unlisted unlisted' warned warned' : Nat}
    {deprecated deprecated' : List String} (first : f.Accounts unlisted warned deprecated)
    (second : g.Accounts unlisted' warned' deprecated') :
    (f ++ g).Accounts (unlisted + unlisted') (warned + warned') (deprecated ++ deprecated') := by
  obtain ⟨errors, warnings, rfl⟩ := first
  obtain ⟨errors', warnings', rfl⟩ := second
  refine ⟨?_, ?_, rfl⟩ <;> simp only [Findings.append_eq, Findings.append, List.length_append] <;>
    omega

namespace Comparison

/-- What a comparison finds accounts for itself, with no warnings but for deprecated fields. -/
abbrev Accounts (comparison : Comparison) (unlisted : Nat) (deprecated : List String) : Prop :=
  Gives (fun _ => True) (fun found => found.Accounts unlisted 0 deprecated) comparison

theorem accounts_compareEach {check : α → Comparison} {unlisted : α → Nat}
    {deprecated : α → List String} {parts : List α}
    (each : ∀ part ∈ parts, (check part).Accounts (unlisted part) (deprecated part)) :
    (compareEach check parts).Accounts (parts.map unlisted).sum (parts.flatMap deprecated) := by
  induction parts with
  | nil => exact Findings.accounts_none
  | cons part rest ih =>
      refine Gives.bind (each part List.mem_cons_self) fun first here => ?_
      refine Gives.bind (ih fun other member => each other (List.mem_cons_of_mem _ member))
        fun others there => ?_
      exact here.append there

/-- Parts that are not listed if they pass a test, and never warned of. -/
theorem accounts_compareEach_filter {check : α → Comparison} {p : α → Bool} (parts : List α)
    (each : ∀ part, (check part).Accounts ([part].filter p).length []) :
    (compareEach check parts).Accounts (parts.filter p).length [] := by
  have one : (parts.filter p).length = (parts.map fun part => ([part].filter p).length).sum := by
    rw [← List.length_flatMap, ← List.filter_flatMap, List.flatMap_singleton']
  have none : parts.flatMap (fun _ => ([] : List String)) = [] :=
    List.flatMap_eq_nil_iff.mpr fun _ _ => rfl
  rw [one, ← none]
  exact accounts_compareEach fun part _ => each part

/-- A mismatch is an error that is listed. -/
theorem accounts_compareRefs (place what : String) (expected actual : TypeRef) :
    (compareRefs place what expected actual).Accounts 0 [] := by
  unfold compareRefs
  cases expected.canonical with
  | error e => trivial
  | ok want =>
      cases actual.canonical with
      | error e => trivial
      | ok got =>
          by_cases same : want = got
          · simpa only [bind, Except.bind, Gives, same, if_true] using Findings.accounts_none
          · simp only [bind, Except.bind, Gives, same, if_false]
            exact ⟨rfl, rfl, rfl⟩

/-- An argument that is absent is an error that is not listed. -/
theorem accounts_compareArg (place : String) (actual : FieldDef) (arg : InputValue) :
    (compareArg place actual arg).Accounts
      ([arg].filter fun arg => (actual.arg? arg.name).isNone).length [] := by
  unfold compareArg
  split
  next missing =>
    rw [List.filter_singleton, missing]
    exact ⟨rfl, rfl, rfl⟩
  next found looked =>
    rw [List.filter_singleton, looked]
    exact accounts_compareRefs ..

theorem accounts_compareArgs (place : String) (field : Held FieldDef) :
    (compareEach (compareArg place field.actual) field.expected.args).Accounts
      field.absentArgs.length [] :=
  accounts_compareEach_filter field.expected.args fun arg =>
    accounts_compareArg place field.actual arg

/-- A field that has become deprecated is listed, with a warning. -/
theorem accounts_compareDeprecation (typeName : String) (field : Held FieldDef) :
    (compareDeprecation (field.place typeName) field.expected field.actual).Accounts 0 0
      (([field].filter Held.isNewlyDeprecated).map (Held.place typeName)) := by
  rw [compareDeprecation, List.filter_singleton, Held.isNewlyDeprecated]
  cases field.actual.isDeprecated && !field.expected.isDeprecated <;> exact ⟨rfl, rfl, rfl⟩

theorem accounts_compareField (actual : NamedType) (typeName : String) (field : FieldDef) :
    (compareField actual typeName field).Accounts
      ((heldParts (fun field => actual.field? field.name) [field]).flatMap Held.absentArgs).length
      (((heldParts (fun field => actual.field? field.name) [field]).filter
        Held.isNewlyDeprecated).map (Held.place typeName)) := by
  unfold compareField
  split
  next missing =>
    rw [heldParts_of_none missing]
    exact ⟨rfl, rfl, rfl⟩
  next found looked =>
    rw [heldParts_of_some looked, List.flatMap_singleton]
    refine Gives.bind (accounts_compareRefs ..) fun types typesHere => ?_
    refine Gives.bind (accounts_compareArgs _ ⟨field, found⟩) fun args argsHere => ?_
    have all :=
      (typesHere.append (accounts_compareDeprecation typeName ⟨field, found⟩)).append argsHere
    simp only [Nat.zero_add, List.nil_append, List.append_nil] at all
    exact all

/-- Comparing fields accounts for what is held against them, field by field. -/
theorem accounts_compareFields (actual : NamedType) (typeName : String) (fields : List FieldDef) :
    let held := heldParts (fun field => actual.field? field.name) fields
    (compareEach (compareField actual typeName) fields).Accounts
      (held.flatMap Held.absentArgs).length
      ((held.filter Held.isNewlyDeprecated).map (Held.place typeName)) := by
  have each :=
    accounts_compareEach fun field (_ : field ∈ fields) =>
      accounts_compareField actual typeName field
  -- What the loop gathers field by field is gathered from all held fields at once.
  rw [← List.length_flatMap, ← List.flatMap_assoc, ← List.map_flatMap, ← List.filter_flatMap,
    ← heldParts_eq_flatMap] at each
  exact each

/-- Whatever is wrong with an input field is listed, so the test that singles out what is not is
one that none passes. -/
theorem accounts_compareInputField (actual : NamedType) (typeName : String) (field : InputValue) :
    (compareInputField actual typeName field).Accounts
      ([field].filter fun _ => false).length [] := by
  unfold compareInputField
  split
  · exact ⟨rfl, rfl, rfl⟩
  · exact accounts_compareRefs ..

theorem accounts_compareEnumValue (actual : NamedType) (typeName : String) (value : EnumValue) :
    Accounts (.ok (compareEnumValue actual typeName value))
      ([value].filter fun value => (actual.enumValue? value.name).isNone).length [] := by
  unfold compareEnumValue
  rw [List.filter_singleton]
  split
  next missing =>
    rw [missing]
    exact ⟨rfl, rfl, rfl⟩
  next found looked =>
    rw [looked]
    exact ⟨rfl, rfl, rfl⟩

theorem accounts_compareParts (type : Held NamedType) :
    (compareParts type.expected type.actual).Accounts
      ((type.fields.flatMap Held.absentArgs).length + type.absentValues.length)
      type.newlyDeprecated := by
  unfold compareParts Held.newlyDeprecated Held.absentValues Held.fields
  cases type.expected.kind with
  | object | interface =>
    exact accounts_compareFields type.actual type.expected.name type.expected.fields
  | enum =>
      have values := accounts_compareEach_filter type.expected.enumValues fun value =>
        accounts_compareEnumValue type.actual type.expected.name value
      rw [compareEach_ok] at values
      simpa only [List.flatMap_nil, List.length_nil, Nat.zero_add, List.filter_nil, List.map_nil]
        using values
  | inputObject =>
      have inputs := accounts_compareEach_filter type.expected.inputFields fun input =>
        accounts_compareInputField type.actual type.expected.name input
      rwa [List.filter_false] at inputs
  | scalar | union => exact Findings.accounts_none

theorem accounts_compareType (actual : Schema) (type : NamedType) :
    let held := heldParts actual.counterpart? [type]
    (compareType actual type).Accounts
      ((held.flatMap fun type => type.fields.flatMap Held.absentArgs).length +
        (held.flatMap Held.absentValues).length)
      (held.flatMap Held.newlyDeprecated) := by
  intro held
  unfold compareType
  by_cases internal : type.isInternal = true
  · have none : held = [] := heldParts_of_none (if_pos internal)
    rw [none, if_pos internal]
    exact Findings.accounts_none
  · have counterpart : actual.counterpart? type = (actual.type? type.name).filter fun found =>
        type.kind = found.kind := if_neg internal
    rw [if_neg internal]
    split
    next missing =>
      have none : held = [] := heldParts_of_none (by simp [counterpart, missing])
      rw [none]
      exact ⟨rfl, rfl, rfl⟩
    next found looked =>
      by_cases sameKind : type.kind = found.kind
      · have one : held = [⟨type, found⟩] :=
          heldParts_of_some (by simp [counterpart, looked, sameKind])
        rw [one, if_pos sameKind]
        simpa using accounts_compareParts ⟨type, found⟩
      · have none : held = [] := heldParts_of_none (by simp [counterpart, looked, sameKind])
        rw [none, if_neg sameKind]
        exact ⟨rfl, rfl, rfl⟩

/-- Comparing types accounts for what is held against them, type by type. -/
theorem accounts_compareTypes (expected actual : Schema) :
    (compareEach (compareType actual) expected.types).Accounts
      ((expected.absentArgs actual).length + (expected.absentValues actual).length)
        (expected.newlyDeprecated actual) := by
  have each :=
    accounts_compareEach fun type (_ : type ∈ expected.types) => accounts_compareType actual type
  have typewise {β : Type} (f : Held NamedType → List β) : (expected.heldTypes actual).flatMap f =
      expected.types.flatMap fun type => (heldParts actual.counterpart? [type]).flatMap f := by
    rw [Schema.heldTypes, heldParts_eq_flatMap, List.flatMap_assoc]
  rw [Schema.absentArgs, Schema.absentValues, Schema.newlyDeprecated, typewise, typewise,
    typewise, List.length_flatMap, List.length_flatMap, ← List.sum_map_add]
  exact each

end Comparison

/-! ## Schemas -/

theorem rootProblem_isSome (label : String) (expected actual : Option String) :
    (rootProblem label expected actual).isSome = rootLost expected actual := by
  cases expected with
  | none => rfl
  | some want =>
      cases actual with
      | none => rfl
      | some got =>
          by_cases same : want = got
          · simp [rootProblem, rootLost, same]
          · simp [rootProblem, rootLost, same, Ne.symm same]

theorem accounts_rootError (label : String) (expected actual : Option String) :
    (((rootProblem label expected actual).map Findings.error).getD .none).Accounts
      (rootLost expected actual).toNat 0 [] := by
  rw [← rootProblem_isSome label]
  cases rootProblem label expected actual <;> exact ⟨rfl, rfl, rfl⟩

theorem accounts_rootWarning (label : String) (expected actual : Option String) :
    (((rootProblem label expected actual).map Findings.warning).getD .none).Accounts 0
      (rootLost expected actual).toNat [] := by
  rw [← rootProblem_isSome label]
  cases rootProblem label expected actual <;> exact ⟨rfl, rfl, rfl⟩

theorem accounts_compareRoots (expected actual : Schema) :
    (compareRoots expected actual).Accounts (rootLost expected.queryType actual.queryType).toNat
      ((rootLost expected.mutationType actual.mutationType).toNat +
        (rootLost expected.subscriptionType actual.subscriptionType).toNat)
      [] := by
  have all := ((accounts_rootError "Query" expected.queryType actual.queryType).append
    (accounts_rootWarning "Mutation" expected.mutationType actual.mutationType)).append
    (accounts_rootWarning "Subscription" expected.subscriptionType actual.subscriptionType)
  simp only [Nat.add_zero, Nat.zero_add] at all
  exact all

theorem Schema.accounts_compare (expected actual : Schema) :
    Gives (fun _ => True) (fun found => found.Accounts
      ((rootLost expected.queryType actual.queryType).toNat +
        ((expected.absentArgs actual).length + (expected.absentValues actual).length))
      ((rootLost expected.mutationType actual.mutationType).toNat +
        (rootLost expected.subscriptionType actual.subscriptionType).toNat)
      (expected.newlyDeprecated actual)) (expected.compare actual) :=
  Gives.bind (Comparison.accounts_compareTypes expected actual) fun _ typesHere =>
    (accounts_compareRoots expected actual).append typesHere

namespace Snapshot

/-- For loaded snapshots every error is for a type or field that is missing, for a mismatch, for
an argument of a field or a value of an enumeration that is absent, or for the query root. Every
warning is for a field that has become deprecated or for one of the other two roots. The fields
that have become deprecated are listed in the order of the expected schema, and no others. -/
theorem compare_accounts {expected actual : Snapshot} (loaded : expected.Loaded)
    (actualLoaded : actual.Loaded) :
    ∃ found, expected.compare actual = .ok found ∧
      found.errors.length = found.missingTypes.length + found.missingFields.length +
        found.typeMismatches.length +
        (expected.schema.absentArgs actual.schema).length +
          (expected.schema.absentValues actual.schema).length +
        (rootLost expected.schema.queryType actual.schema.queryType).toNat ∧
      found.warnings.length = found.deprecatedFields.length +
        (rootLost expected.schema.mutationType actual.schema.mutationType).toNat +
        (rootLost expected.schema.subscriptionType actual.schema.subscriptionType).toNat ∧
      found.deprecatedFields = expected.schema.newlyDeprecated actual.schema := by
  obtain ⟨found, ok, -⟩ := Schema.decides_compare loaded.sound actualLoaded.sound
  obtain ⟨errors, warnings, deprecated⟩ :=
    (Schema.accounts_compare expected.schema actual.schema).ok ok
  refine ⟨found, ok, ?_, ?_, deprecated⟩ <;> omega

/-- The small schema is worn down by a type, an argument and a value, its query root is renamed,
and its first field is deprecated. It is held against the small schema with one more root. -/
theorem compare_accounts_worn :
    let rooted : Snapshot :=
      ⟨{ Schema.shelf with subscriptionType := some "Updates" }, default, "", ""⟩
    let query := Schema.shelf.types[0]
    let genre := Schema.shelf.types[2]
    let worn : Snapshot := ⟨{ Schema.shelf with
      queryType := some "Root"
      types := [
        { query with
          fields := query.fields.map fun field =>
            { field with args := [], isDeprecated := true } },
        { genre with enumValues := genre.enumValues.take 1 }] }, default, "", ""⟩
    rooted.Loaded ∧ worn.Loaded ∧ ∃ found, rooted.compare worn = .ok found ∧
      found.errors.length = found.missingTypes.length + found.missingFields.length +
        found.typeMismatches.length + 1 + 1 + 1 ∧
      found.warnings.length = found.deprecatedFields.length + 0 + 1 ∧
      found.deprecatedFields = ["Query.books"] := by
  intro rooted query genre worn
  have rootedLoaded : rooted.Loaded := loaded_of_sound (by decide) (by decide)
  have wornLoaded : worn.Loaded := loaded_of_sound (by decide) (by decide)
  exact ⟨rootedLoaded, wornLoaded, compare_accounts rootedLoaded wornLoaded⟩

end Snapshot

end SchemaBaseline
