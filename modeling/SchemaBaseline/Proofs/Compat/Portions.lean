import SchemaBaseline.Proofs.Compat.Edits
import SchemaBaseline.Proofs.Compat.Itself
import SchemaBaseline.Proofs.Compat.Verdict

/-!
# Findings of a schema in portions

A comparison goes through an expected schema in the order in which it is stored and never stops
early. So what is found for a schema is what is found for a first portion of it and then, in each
of the six lists, what is found for the rest (`Findings.Joins`). A schema may be cut between two
types, a type between two of the parts that count for its kind (`NamedType.Cut`), and a field
between two arguments. `Snapshot.compare_portions` says so for all of them.

Both kinds of cut come down to loops: comparing is a loop over types, and comparing a type that is
matched is a loop over the same type with one part at a time (`compareType_eq_parts`).
-/

namespace SchemaBaseline

variable {α β : Type}

/-! ## One after the other -/

/-- Findings that are, list by list, those found first and then those found after them. -/
structure Findings.Joins (whole first second : Findings) : Prop where
  errors : whole.errors = first.errors ++ second.errors
  warnings : whole.warnings = first.warnings ++ second.warnings
  missingTypes : whole.missingTypes = first.missingTypes ++ second.missingTypes
  missingFields : whole.missingFields = first.missingFields ++ second.missingFields
  typeMismatches : whole.typeMismatches = first.typeMismatches ++ second.typeMismatches
  deprecatedFields : whole.deprecatedFields = first.deprecatedFields ++ second.deprecatedFields

namespace Comparison

/-- A comparison that finds what two comparisons find, one after the other. Of two that fail the
first one counts. -/
inductive Joins : Comparison → Comparison → Comparison → Prop
  | found {whole first second : Findings} :
    whole.Joins first second → Joins (.ok whole) (.ok first) (.ok second)
  | failsFirst {e : TypeRef.Malformed} {second : Comparison} : Joins (.error e) (.error e) second
  | failsSecond {e : TypeRef.Malformed} {first : Findings} :
    Joins (.error e) (.ok first) (.error e)

/-- Two comparisons, one after the other. -/
def andThen (first second : Comparison) : Comparison := do
  let found ← first
  let others ← second
  .ok (found ++ others)

theorem joins_andThen (first second : Comparison) :
    Joins (first.andThen second) first second := by
  cases first with
  | error e => exact .failsFirst
  | ok found =>
      cases second with
      | error e => exact .failsSecond
      | ok others => exact .found ⟨rfl, rfl, rfl, rfl, rfl, rfl⟩

theorem andThen_assoc (a b c : Comparison) :
    (a.andThen b).andThen c = a.andThen (b.andThen c) := by
  cases a <;> cases b <;> cases c <;> simp [andThen, bind, Except.bind, Findings.append_assoc]

@[simp]
theorem none_andThen (c : Comparison) : andThen (.ok .none) c = c := by
  cases c <;> simp [andThen, bind, Except.bind]

@[simp]
theorem andThen_none (c : Comparison) : c.andThen (.ok .none) = c := by
  cases c <;> simp [andThen, bind, Except.bind]

end Comparison

theorem compareEach_cons (check : α → Comparison) (part : α) (rest : List α) :
    compareEach check (part :: rest) = (check part).andThen (compareEach check rest) :=
  rfl

theorem compareEach_singleton (check : α → Comparison) (part : α) :
    compareEach check [part] = check part :=
  Comparison.andThen_none (check part)

theorem compareEach_append (check : α → Comparison) (first second : List α) :
    compareEach check (first ++ second) =
      (compareEach check first).andThen (compareEach check second) := by
  induction first with
  | nil => exact (Comparison.none_andThen _).symm
  | cons part first ih =>
    rw [List.cons_append, compareEach_cons, compareEach_cons, ih, Comparison.andThen_assoc]

theorem compareEach_map (check : β → Comparison) (f : α → β) (parts : List α) :
    compareEach check (parts.map f) = compareEach (fun part => check (f part)) parts := by
  induction parts with
  | nil => rfl
  | cons part parts ih => rw [List.map_cons, compareEach_cons, compareEach_cons, ih]

/-- Findings put together are a loop that cannot fail. -/
theorem compareEach_ok (findings : α → Findings) (parts : List α) :
    compareEach (fun part => .ok (findings part)) parts = .ok (.concat (parts.map findings)) := by
  induction parts with
  | nil => rfl
  | cons part parts ih =>
      rw [compareEach_cons, ih]
      rfl

/-! ## Types in portions -/

/-- A type once for each part that counts for its kind, with this part alone. -/
def NamedType.parts (type : NamedType) : List NamedType :=
  match type.kind with
  | .object | .interface => type.fields.map fun field => { type with fields := [field] }
  | .enum => type.enumValues.map fun value => { type with enumValues := [value] }
  | .inputObject => type.inputFields.map fun field => { type with inputFields := [field] }
  | .scalar | .union => []

/-- A type cut in two, between two of the parts that count for its kind. -/
inductive NamedType.Cut (type : NamedType) : NamedType → NamedType → Prop
  | fields {first second : List FieldDef} :
    type.kind = .object ∨ type.kind = .interface → type.fields = first ++ second →
      Cut type { type with fields := first } { type with fields := second }
  | enumValues {first second : List EnumValue} :
    type.kind = .enum → type.enumValues = first ++ second →
      Cut type { type with enumValues := first } { type with enumValues := second }
  | inputFields {first second : List InputValue} :
    type.kind = .inputObject → type.inputFields = first ++ second →
      Cut type { type with inputFields := first } { type with inputFields := second }

/-- An actual schema has a type of the name and kind of a type. -/
def Schema.Matches (actual : Schema) (type found : NamedType) : Prop :=
  actual.type? type.name = some found ∧ found.kind = type.kind

variable {actual : Schema} {type first second found : NamedType}

theorem NamedType.Cut.parts_eq (cut : type.Cut first second) :
    type.parts = first.parts ++ second.parts := by
  cases cut with
  | fields kind split => rcases kind with kind | kind <;> simp [parts, kind, split]
  | enumValues kind split => simp [parts, kind, split]
  | inputFields kind split => simp [parts, kind, split]

theorem Findings.concat_singleton (f : Findings) : concat [f] = f :=
  append_none f

theorem compareType_of_matches (matched : actual.Matches type found) :
    compareType actual type = if type.isInternal then .ok .none else compareParts type found := by
  simp only [compareType, matched.1, matched.2, if_true]

theorem compareParts_eq_parts (type found : NamedType) :
    compareParts type found = compareEach (fun part => compareParts part found) type.parts := by
  unfold NamedType.parts
  cases kind : type.kind with
  | object | interface =>
      rw [compareEach_map]
      simp only [compareParts, kind, compareEach_singleton]
  | enum =>
      rw [compareEach_map]
      simp only [compareParts, kind, List.map_cons, List.map_nil, Findings.concat_singleton,
        compareEach_ok]
  | inputObject =>
      rw [compareEach_map]
      simp only [compareParts, kind, compareEach_singleton]
  | scalar | union => simp only [compareParts, kind, compareEach]

/-- A part of a type goes by the name and kind of the type. -/
theorem NamedType.name_kind_of_mem_parts {part : NamedType} (member : part ∈ type.parts) :
    part.name = type.name ∧ part.kind = type.kind := by
  unfold parts at member
  split at member
  all_goals first
    | obtain ⟨_, -, rfl⟩ := List.mem_map.mp member
      exact ⟨rfl, rfl⟩
    | cases member

/-- Comparing a type is a loop over its parts. -/
theorem compareType_eq_parts (matched : actual.Matches type found) :
    compareType actual type = compareEach (compareType actual) type.parts := by
  have each {part : NamedType} (member : part ∈ type.parts) : compareType actual part =
      if type.isInternal then .ok .none else compareParts part found := by
    obtain ⟨name, kind⟩ := NamedType.name_kind_of_mem_parts member
    have partMatched : actual.Matches part found := by rwa [Schema.Matches, name, kind]
    rw [compareType_of_matches partMatched, NamedType.isInternal, NamedType.isInternal, name]
  rw [compareType_of_matches matched]
  cases internal : type.isInternal with
  | true =>
      refine (compareEach_eq_none_iff.mpr fun part member => ?_).symm
      rw [each member, internal, if_pos rfl]
  | false =>
      rw [if_neg Bool.false_ne_true, compareParts_eq_parts]
      refine compareEach_congr fun part member => ?_
      rw [each member, internal, if_neg Bool.false_ne_true]

theorem NamedType.Cut.compareType_eq (cut : type.Cut first second)
    (matched : actual.Matches type found) :
    compareType actual type = (compareType actual first).andThen (compareType actual second) := by
  have firstMatched : actual.Matches first found := by cases cut <;> exact matched
  have secondMatched : actual.Matches second found := by cases cut <;> exact matched
  rw [compareType_eq_parts matched, compareType_eq_parts firstMatched,
    compareType_eq_parts secondMatched, cut.parts_eq, compareEach_append]

/-! ## Fields in portions -/

/-- Comparing a field goes on from what is found for the field itself to its arguments. -/
theorem compareField_eq_andThen {typeName : String} {foundField : FieldDef} (field : FieldDef)
    (looked : found.field? field.name = some foundField) :
    compareField found typeName field =
      (compareField found typeName { field with args := [] }).andThen
      (compareEach (compareArg s!"{typeName}.{field.name}" foundField) field.args) := by
  unfold compareField
  simp only [looked]
  generalize s!"{typeName}.{field.name}" = place
  generalize compareRefs place s!"Field '{place}'" field.type foundField.type = types
  generalize compareEach (compareArg place foundField) field.args = args
  cases types with
  | error e => rfl
  | ok types =>
      cases args with
      | error e => rfl
      | ok args =>
          simp only [Comparison.andThen, compareEach, bind, Except.bind, Findings.append_none]
          rfl

/-- A type with one field alone, and with other arguments in it. -/
def NamedType.withField (type : NamedType) (field : FieldDef) (args : List InputValue) :
    NamedType :=
  { type with fields := [{ field with args := args }] }

theorem compareType_withField (fielded : type.kind = .object ∨ type.kind = .interface)
    (matched : actual.Matches type found) (field : FieldDef) (args : List InputValue) :
    compareType actual (type.withField field args) =
      if type.isInternal then .ok .none
      else compareField found type.name { field with args := args } := by
  have parts : compareParts (type.withField field args) found =
      compareField found type.name { field with args := args } := by
    rcases fielded with kind | kind <;>
      simp only [compareParts, NamedType.withField, kind, compareEach_singleton]
  have withMatched : actual.Matches (type.withField field args) found := matched
  rw [compareType_of_matches withMatched, parts]
  rfl

/-- Arguments add the same to what is found for a field, whichever come before them. -/
theorem exists_compareType_args {field foundField : FieldDef}
    (fielded : type.kind = .object ∨ type.kind = .interface) (matched : actual.Matches type found)
    (looked : found.field? field.name = some foundField) (before after : List InputValue) :
    ∃ more, compareType actual (type.withField field (before ++ after)) =
        (compareType actual (type.withField field before)).andThen more ∧
      compareType actual (type.withField field after) =
        (compareType actual (type.withField field [])).andThen more := by
  simp only [compareType_withField fielded matched]
  cases type.isInternal with
  | true => exact ⟨.ok .none, rfl, rfl⟩
  | false =>
      simp only [Bool.false_eq_true, if_false]
      have adds (args : List InputValue) : compareField found type.name
          { field with args := args } = (compareField found type.name
          { field with args := [] }).andThen
          (compareEach (compareArg s!"{type.name}.{field.name}" foundField) args) :=
        compareField_eq_andThen { field with args := args } looked
      refine ⟨compareEach (compareArg s!"{type.name}.{field.name}" foundField) after,
        ?_, adds after⟩
      rw [adds (before ++ after), adds before, compareEach_append, Comparison.andThen_assoc]

namespace Snapshot

/-- A snapshot with other types. -/
def withTypes (s : Snapshot) (types : List NamedType) : Snapshot :=
  { s with schema := { s.schema with types := types } }

/-- A snapshot with other types and without root operation types. -/
def rootless (s : Snapshot) (types : List NamedType) : Snapshot :=
  { s with schema := ⟨none, none, none, types⟩ }

/-- A snapshot cut in two, between two types or within a type that is matched. The first portion
keeps the root operation types. -/
inductive Cut (expected : Snapshot) (actual : Schema) : Snapshot → Snapshot → Prop
  | betweenTypes {first second : List NamedType} : expected.schema.types = first ++ second →
      Cut expected actual (expected.withTypes first) (expected.rootless second)
  | withinType {before after : List NamedType} {type first second found : NamedType} :
      expected.schema.types = before ++ type :: after → type.Cut first second →
      actual.Matches type found →
      Cut expected actual (expected.withTypes (before ++ [first]))
        (expected.rootless (second :: after))

theorem compare_withTypes (expected actual : Snapshot) (types : List NamedType) :
    (expected.withTypes types).compare actual =
      Comparison.andThen (.ok (compareRoots expected.schema actual.schema))
        (compareEach (compareType actual.schema) types) :=
  rfl

theorem compare_rootless (expected actual : Snapshot) (types : List NamedType) :
    (expected.rootless types).compare actual = compareEach (compareType actual.schema) types :=
  Comparison.none_andThen _

theorem compare_rootless_singleton (expected actual : Snapshot) (type : NamedType) :
    (expected.rootless [type]).compare actual = compareType actual.schema type := by
  rw [compare_rootless, compareEach_singleton]

theorem compare_append (expected actual : Snapshot) (first second : List NamedType) :
    (expected.withTypes (first ++ second)).compare actual =
      ((expected.withTypes first).compare actual).andThen
        ((expected.rootless second).compare actual) := by
  rw [compare_withTypes, compare_withTypes, compare_rootless, compareEach_append,
    Comparison.andThen_assoc]

theorem Cut.compare_eq {expected actual first second : Snapshot}
    (cut : expected.Cut actual.schema first second) :
    expected.compare actual = (first.compare actual).andThen (second.compare actual) := by
  have whole :
      expected.compare actual = (expected.withTypes expected.schema.types).compare actual := rfl
  cases cut with
  | betweenTypes split => rw [whole, split, compare_append]
  | @withinType before after type first second found split cut matched =>
      -- The type that is cut goes with the portion in front of it, and its second half with what
      -- follows.
      have within : (expected.rootless (type :: after)).compare actual =
          ((expected.rootless [first]).compare actual).andThen
          ((expected.rootless (second :: after)).compare actual) := by
        rw [compare_rootless_singleton, compare_rootless, compare_rootless, compareEach_cons,
          compareEach_cons, cut.compareType_eq matched, Comparison.andThen_assoc]
      rw [whole, split, compare_append, within, ← Comparison.andThen_assoc, ← compare_append]

/-- Wherever a schema is cut, what is found for it is what is found for the first portion and
then, in each of the six lists, what is found for the second one, which has no roots. What
arguments add to the findings for their field does not depend on the arguments before them. So the
findings for the roots come first, then those for the types in their order, and for a type that is
matched those for its parts in theirs. Of loaded snapshots all of this is found. -/
theorem compare_portions (expected actual : Snapshot) :
    (∀ first second, expected.Cut actual.schema first second →
      Comparison.Joins (expected.compare actual) (first.compare actual) (second.compare actual)) ∧
    (∀ type found field foundField before after, type.kind = .object ∨ type.kind = .interface →
      actual.schema.Matches type found →
      found.field? field.name = some foundField → ∃ more,
        Comparison.Joins
          ((expected.rootless [type.withField field (before ++ after)]).compare actual)
          ((expected.rootless [type.withField field before]).compare actual) more ∧
        Comparison.Joins ((expected.rootless [type.withField field after]).compare actual)
          ((expected.rootless [type.withField field []]).compare actual) more) ∧
    Comparison.Joins (expected.compare actual) ((expected.withTypes []).compare actual)
      (compareEach (fun type => (expected.rootless [type]).compare actual)
        expected.schema.types) ∧
    (∀ type found, actual.schema.Matches type found →
      (expected.rootless [type]).compare actual =
        compareEach (fun part => (expected.rootless [part]).compare actual) type.parts) ∧
    (expected.Loaded → actual.Loaded → ∃ found, expected.compare actual = .ok found) := by
  simp only [compare_rootless_singleton]
  refine ⟨fun first second cut => ?_,
    fun type found field foundField before after fielded matched looked => ?_, ?_,
    fun type found matched => compareType_eq_parts matched, fun loaded actualLoaded => ?_⟩
  · rw [cut.compare_eq]
    exact Comparison.joins_andThen _ _
  · obtain ⟨more, adds, addsAlone⟩ := exists_compareType_args fielded matched looked before after
    rw [adds, addsAlone]
    exact ⟨more, Comparison.joins_andThen _ _, Comparison.joins_andThen _ _⟩
  · have cut : expected.Cut actual.schema (expected.withTypes [])
        (expected.rootless expected.schema.types) := .betweenTypes rfl
    rw [cut.compare_eq, compare_rootless]
    exact Comparison.joins_andThen _ _
  · obtain ⟨found, ok, -⟩ := Schema.decides_compare loaded.sound actualLoaded.sound
    exact ⟨found, ok⟩

/-- The small schema is held against its grown form. It is cut between the two values of its last
type, and in its first type the only argument is taken away from the only field. -/
theorem compare_portions_shelf :
    let genre (values : List EnumValue) : NamedType :=
      ⟨.enum, "Genre", none, [], [], [], values, []⟩
    let fiction : EnumValue := ⟨"FICTION", none, false, none⟩
    let science : EnumValue := ⟨"SCIENCE", none, true, some ""⟩
    let query := Schema.shelf.types[0]
    let books := query.fields[0]
    let known : Snapshot := ⟨.shelf, default, "", ""⟩
    let grown : Snapshot := ⟨.grownShelf, default, "", ""⟩
    let first := known.withTypes (Schema.shelf.types.take 2 ++ [genre [fiction]])
    let second := known.rootless [genre [science]]
    known.Cut grown.schema first second ∧
      Comparison.Joins (known.compare grown) (first.compare grown) (second.compare grown) ∧
      (∃ more, Comparison.Joins ((known.rootless [query.withField books books.args]).compare
        grown)
        ((known.rootless [query.withField books []]).compare grown) more) ∧
      known.Loaded ∧ grown.Loaded ∧ ∃ found, known.compare grown = .ok found := by
  intro genre fiction science query books known grown first second
  have genreMatched :
      grown.schema.Matches (genre [fiction, science]) Schema.grownShelf.types[3] := ⟨rfl, rfl⟩
  have queryMatched : grown.schema.Matches query Schema.grownShelf.types[1] := ⟨rfl, rfl⟩
  have split :
      Schema.shelf.types = Schema.shelf.types.take 2 ++ genre [fiction, science] :: [] := rfl
  have cut : known.Cut grown.schema first second :=
    .withinType split (@NamedType.Cut.enumValues (genre [fiction, science]) [fiction]
      [science] rfl rfl) genreMatched
  have knownLoaded : known.Loaded := loaded_of_sound Schema.shelf_sound Schema.shelf_shallow
  have grownLoaded : grown.Loaded := loaded_of_sound (by decide) (by decide)
  obtain ⟨joins, args, -, -, ends⟩ := compare_portions known grown
  obtain ⟨more, adds, -⟩ := args query _ books _ [] books.args (.inl rfl) queryMatched rfl
  exact ⟨cut, joins first second cut, ⟨more, adds⟩, knownLoaded, grownLoaded,
    ends knownLoaded grownLoaded⟩

end Snapshot

end SchemaBaseline
