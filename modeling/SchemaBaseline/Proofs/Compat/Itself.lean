import SchemaBaseline.Proofs.Compat.Compatible
import SchemaBaseline.Proofs.Results
import SchemaBaseline.Proofs.Schema.RoundTrip

/-!
# A schema beside itself

Compared with itself a schema should give no findings, and it does where no type repeats the name
of a field or input field and no field that of an argument (`Schema.PartsDistinct`). Loading keeps
only the names of types apart, however, and a comparison takes the first part of a name for all of
them. `NamedType.RepeatsAgree` is what it comes to where names are repeated: the later parts must
not ask for more than the first one offers. `Snapshot.compare_self` says that this is all there is
to it, and that nothing is ever missing.

The way there is one lemma for each comparison, saying when it finds nothing at all. None of them
needs the references to be well formed, for a malformed one is never found to be spelled like
anything.
-/

namespace SchemaBaseline

variable {α : Type}

/-! ## Parts that repeat a name -/

/-- A field asks for no more than another one offers, which is not deprecated unless the field is
deprecated itself. -/
def FieldDef.Follows (field first : FieldDef) : Prop :=
  field.Agrees first ∧ (first.isDeprecated = true → field.isDeprecated = true)

/-- Whatever the kind of a type makes part of its promise asks for no more than the first part of
the same name offers. -/
def NamedType.RepeatsAgree (type : NamedType) : Prop :=
  match type.kind with
  | .object | .interface => Kept FieldDef.name FieldDef.Follows type.fields type.fields
  | .inputObject => Kept InputValue.name InputValue.Agrees type.inputFields type.inputFields
  | .enum | .scalar | .union => True

/-- No name of a field, of an argument within its field, or of an input field is repeated. -/
structure NamedType.PartsDistinct (type : NamedType) : Prop where
  fields : (type.fields.map FieldDef.name).Nodup
  args : ∀ field ∈ type.fields, (field.args.map InputValue.name).Nodup
  inputFields : (type.inputFields.map InputValue.name).Nodup

instance (type : NamedType) : Decidable type.PartsDistinct :=
  decidable_of_iff ((type.fields.map FieldDef.name).Nodup ∧
    (∀ field ∈ type.fields, (field.args.map InputValue.name).Nodup) ∧
      (type.inputFields.map InputValue.name).Nodup)
    ⟨fun ⟨fields, args, inputFields⟩ => ⟨fields, args, inputFields⟩,
      fun ⟨fields, args, inputFields⟩ => ⟨fields, args, inputFields⟩⟩

/-- No type of a schema repeats the name of a part. -/
def Schema.PartsDistinct (s : Schema) : Prop :=
  ∀ type ∈ s.types, type.PartsDistinct

instance (s : Schema) : Decidable s.PartsDistinct :=
  inferInstanceAs (Decidable (∀ type ∈ s.types, type.PartsDistinct))

/-- Where no name is repeated every part is the first one of its name. -/
theorem firstNamed_self {nameOf : α → String} {parts : List α}
    (distinct : (parts.map nameOf).Nodup) {part : α} (member : part ∈ parts) :
    FirstNamed nameOf (nameOf part) parts part :=
  find?_eq_some_iff_firstNamed.mp ((find?_name_eq_some_iff distinct).mpr ⟨member, rfl⟩)

theorem Kept.self {nameOf : α → String} {Agree : α → α → Prop} {parts : List α}
    (distinct : (parts.map nameOf).Nodup) (agrees : ∀ part ∈ parts, Agree part part) :
    Kept nameOf Agree parts parts :=
  fun part member => ⟨part, firstNamed_self distinct member, agrees part member⟩

theorem SameSpelling.self {ref : TypeRef} (wf : ref.WellFormed) : SameSpelling ref ref := by
  obtain ⟨spelling, spelled⟩ := wf.canonical
  exact ⟨spelling, spelled, spelled⟩

theorem FieldDef.follows_self {field : FieldDef} (wf : field.WellFormed)
    (distinct : (field.args.map InputValue.name).Nodup) :
    field.Follows field :=
  ⟨⟨.self wf.1, .self distinct fun arg member => .self (wf.2 arg member)⟩,
    fun deprecated => deprecated⟩

/-- Without repeated names there is nothing that could disagree. -/
theorem NamedType.PartsDistinct.repeatsAgree {type : NamedType} (distinct : type.PartsDistinct)
    (wf : type.WellFormed) :
    type.RepeatsAgree := by
  unfold NamedType.RepeatsAgree
  cases type.kind with
  | object | interface =>
      exact .self distinct.fields fun field member =>
        FieldDef.follows_self (wf.field member) (distinct.args field member)
  | inputObject =>
    exact .self distinct.inputFields fun input member => .self (wf.inputField member)
  | enum | scalar | union => trivial

/-! ## Comparisons that find nothing -/

theorem Findings.append_eq_none_iff {f g : Findings} :
    f ++ g = .none ↔ f = .none ∧ g = .none := by
  cases f
  cases g
  simp only [append_eq, append, none, Findings.mk.injEq, List.append_eq_nil_iff]
  tauto

/-- Two comparisons one after the other, with what else is found between them. -/
theorem comparison_append_eq_none_iff {first second : Comparison} {between : Findings} :
    (do let f ← first; let g ← second; .ok (f ++ between ++ g) : Comparison) = .ok .none ↔
      first = .ok .none ∧ between = .none ∧ second = .ok .none := by
  cases first <;> cases second <;>
    simp [bind, Except.bind, Findings.append_eq_none_iff, and_assoc]

/-- A loop finds nothing exactly if nothing is found in any part. -/
theorem compareEach_eq_none_iff {check : α → Comparison} {parts : List α} :
    compareEach check parts = .ok .none ↔ ∀ part ∈ parts, check part = .ok .none := by
  induction parts with
  | nil => simp [compareEach]
  | cons part rest ih =>
      have both : (do let f ← check part; let g ← compareEach check rest; .ok (f ++ .none ++ g) :
          Comparison) = .ok .none ↔ _ :=
        comparison_append_eq_none_iff
      simp only [Findings.append_none, true_and] at both
      rw [compareEach, both, ih, List.forall_mem_cons]

theorem concat_map_eq_none_iff {findings : α → Findings} {parts : List α} :
    Findings.concat (parts.map findings) = .none ↔ ∀ part ∈ parts, findings part = .none := by
  induction parts with
  | nil => simp [Findings.concat]
  | cons part rest ih =>
      rw [List.forall_mem_cons, ← ih]
      exact Findings.append_eq_none_iff (g := Findings.concat (rest.map findings))

theorem compareRefs_eq_none_iff {place what : String} {expected actual : TypeRef} :
    compareRefs place what expected actual = .ok .none ↔ SameSpelling expected actual := by
  unfold compareRefs SameSpelling
  cases expected.canonical with
  | error e => simp [bind, Except.bind]
  | ok want =>
      cases actual.canonical with
      | error e => simp [bind, Except.bind]
      | ok got =>
        by_cases same : want = got <;> simp [bind, Except.bind, same, Findings.none, eq_comm]

theorem compareArg_eq_none_iff {place : String} {actual : FieldDef} {arg : InputValue} :
    compareArg place actual arg = .ok .none ↔
      ∃ found, FirstNamed InputValue.name arg.name actual.args found ∧ arg.Agrees found := by
  unfold compareArg
  split
  next missing =>
    exact iff_of_false (by simp [Findings.error, Findings.none])
      (not_exists_firstNamed_of_find? missing)
  next found looked =>
    rw [compareRefs_eq_none_iff]
    exact (exists_firstNamed_iff_of_find? (P := arg.Agrees) looked).symm

theorem compareInputField_eq_none_iff {actual : NamedType} {typeName : String}
    {field : InputValue} :
    compareInputField actual typeName field = .ok .none ↔
      ∃ found, FirstNamed InputValue.name field.name actual.inputFields found ∧
        field.Agrees found := by
  unfold compareInputField
  split
  next missing =>
    exact iff_of_false (by simp [Findings.none]) (not_exists_firstNamed_of_find? missing)
  next found looked =>
    rw [compareRefs_eq_none_iff]
    exact (exists_firstNamed_iff_of_find? (P := field.Agrees) looked).symm

theorem compareDeprecation_eq_none_iff {place : String} {expected actual : FieldDef} :
    compareDeprecation place expected actual = .none ↔
      (actual.isDeprecated = true → expected.isDeprecated = true) := by
  unfold compareDeprecation
  cases actual.isDeprecated <;> cases expected.isDeprecated <;> simp [Findings.none]

theorem compareField_eq_none_iff {actual : NamedType} {typeName : String} {field : FieldDef} :
    compareField actual typeName field = .ok .none ↔
      ∃ found, FirstNamed FieldDef.name field.name actual.fields found ∧ field.Follows found := by
  unfold compareField
  split
  next missing =>
    exact iff_of_false (by simp [Findings.none]) (not_exists_firstNamed_of_find? missing)
  next found looked =>
    have args (place : String) : compareEach (compareArg place found) field.args = .ok .none ↔
        Kept InputValue.name InputValue.Agrees field.args found.args :=
      compareEach_eq_none_iff.trans (forall₂_congr fun arg _ => compareArg_eq_none_iff)
    rw [exists_firstNamed_iff_of_find? (P := field.Follows) looked]
    dsimp only
    rw [comparison_append_eq_none_iff, compareRefs_eq_none_iff, compareDeprecation_eq_none_iff,
      args, and_comm (b := Kept ..), ← and_assoc]
    exact Iff.rfl

/-- A value is found among the values that it belongs to. -/
theorem compareEnumValue_self {type : NamedType} {typeName : String} {value : EnumValue}
    (member : value ∈ type.enumValues) :
    compareEnumValue type typeName value = .none := by
  have found : (compareEnumValue type typeName value).errors = [] :=
    errors_compareEnumValue_eq_nil_iff.mpr ⟨value, member, rfl⟩
  unfold compareEnumValue at found ⊢
  split
  next missing => simp [missing, Findings.error] at found
  next => rfl

theorem compareEnumValues_self (type : NamedType) :
    Findings.concat (type.enumValues.map (compareEnumValue type type.name)) = .none :=
  concat_map_eq_none_iff.mpr fun _ member => compareEnumValue_self member

theorem compareParts_self_eq_none_iff {type : NamedType} :
    compareParts type type = .ok .none ↔ type.RepeatsAgree := by
  unfold compareParts NamedType.RepeatsAgree
  cases type.kind with
  | object | interface =>
    exact compareEach_eq_none_iff.trans (forall₂_congr fun field _ => compareField_eq_none_iff)
  | enum => exact iff_of_true (congrArg Except.ok (compareEnumValues_self type)) trivial
  | inputObject =>
    exact compareEach_eq_none_iff.trans
      (forall₂_congr fun field _ => compareInputField_eq_none_iff)
  | scalar | union => exact iff_of_true rfl trivial

/-! ## Nothing is missing -/

/-- Neither a type nor a field is missing. -/
def Findings.NothingMissing (f : Findings) : Prop :=
  f.missingTypes = [] ∧ f.missingFields = []

theorem Findings.NothingMissing.append {f g : Findings} (first : f.NothingMissing)
    (second : g.NothingMissing) :
    (f ++ g).NothingMissing :=
  ⟨List.append_eq_nil_iff.mpr ⟨first.1, second.1⟩, List.append_eq_nil_iff.mpr ⟨first.2, second.2⟩⟩

/-- A comparison that finds neither a type nor a field missing, if it comes to an end. -/
abbrev Comparison.NothingMissing (comparison : Comparison) : Prop :=
  Gives (fun _ => True) Findings.NothingMissing comparison

theorem nothingMissing_compareEach {check : α → Comparison} {parts : List α}
    (each : ∀ part ∈ parts, (check part).NothingMissing) :
    (compareEach check parts).NothingMissing := by
  induction parts with
  | nil => exact ⟨rfl, rfl⟩
  | cons part rest ih =>
      refine Gives.bind (each part List.mem_cons_self) fun first firstHere => ?_
      refine Gives.bind (ih fun other member => each other (List.mem_cons_of_mem _ member))
        fun others othersHere => ?_
      exact firstHere.append othersHere

theorem nothingMissing_compareRefs (place what : String) (expected actual : TypeRef) :
    (compareRefs place what expected actual).NothingMissing := by
  unfold compareRefs
  cases expected.canonical with
  | error e => trivial
  | ok want =>
      cases actual.canonical with
      | error e => trivial
      | ok got =>
        by_cases same : want = got <;>
          simp [bind, Except.bind, same, Gives, Findings.NothingMissing, Findings.none]

/-- An argument that is missing is an error and shows in no list of what is missing. -/
theorem nothingMissing_compareArg (place : String) (actual : FieldDef) (arg : InputValue) :
    (compareArg place actual arg).NothingMissing := by
  unfold compareArg
  split
  · exact ⟨rfl, rfl⟩
  · exact nothingMissing_compareRefs ..

/-- A part is found among the parts that it belongs to. -/
theorem find?_self_ne_none {nameOf : α → String} {parts : List α} {part : α}
    (member : part ∈ parts) :
    parts.find? (fun other => nameOf other == nameOf part) ≠ none := by
  intro missing
  exact List.find?_eq_none.mp missing part member (beq_self_eq_true _)

theorem nothingMissing_compareField_self {type : NamedType} {typeName : String} {field : FieldDef}
    (member : field ∈ type.fields) :
    (compareField type typeName field).NothingMissing := by
  unfold compareField
  split
  next missing => exact absurd missing (find?_self_ne_none member)
  next found _ =>
    refine Gives.bind (nothingMissing_compareRefs ..) fun types typesHere => ?_
    refine Gives.bind (nothingMissing_compareEach fun arg _ =>
      nothingMissing_compareArg _ found arg) fun args argsHere => ?_
    have deprecation (place : String) :
        (compareDeprecation place field found).NothingMissing := by
      unfold compareDeprecation
      split <;> exact ⟨rfl, rfl⟩
    exact (typesHere.append (deprecation _)).append argsHere

theorem nothingMissing_compareInputField_self {type : NamedType} {typeName : String}
    {input : InputValue} (member : input ∈ type.inputFields) :
    (compareInputField type typeName input).NothingMissing := by
  unfold compareInputField
  split
  next missing => exact absurd missing (find?_self_ne_none member)
  next => exact nothingMissing_compareRefs ..

theorem nothingMissing_compareParts_self (type : NamedType) :
    (compareParts type type).NothingMissing := by
  unfold compareParts
  cases type.kind with
  | object | interface =>
    exact nothingMissing_compareEach fun field member => nothingMissing_compareField_self member
  | enum =>
      simp only [compareEnumValues_self]
      exact ⟨rfl, rfl⟩
  | inputObject =>
    exact nothingMissing_compareEach fun input member =>
      nothingMissing_compareInputField_self member
  | scalar | union => exact ⟨rfl, rfl⟩

/-! ## Schemas -/

namespace Schema

variable {s : Schema}

theorem compareRoots_self (s : Schema) : compareRoots s s = .none := by
  have unchanged (label : String) (root : Option String) :
      rootProblem label root root = none := by
    cases root <;> simp [rootProblem]
  simp only [compareRoots, unchanged, Option.map_none, Option.getD_none, Findings.append_none]

/-- Type names being unique, a type is looked up as itself. -/
theorem compareType_self (sound : s.Sound) {type : NamedType} (member : type ∈ s.types)
    (external : type.isInternal = false) :
    compareType s type = compareParts type type := by
  have looked : s.type? type.name = some type := sound.type?_eq_some_iff.mpr ⟨member, rfl⟩
  simp [compareType, external, looked]

theorem compareType_self_eq_none_iff (sound : s.Sound) {type : NamedType}
    (member : type ∈ s.types) :
    compareType s type = .ok .none ↔
      (¬ "__".toList <+: type.name.toList → type.RepeatsAgree) := by
  rw [← isInternal_iff_underscores]
  cases internal : type.isInternal with
  | true => simp [compareType, internal]
  | false =>
      rw [compareType_self sound member internal, compareParts_self_eq_none_iff]
      simp

/-- A sound schema is found unchanged beside itself exactly if the parts that repeat a name agree
with the first one. -/
theorem compare_self_eq_none_iff (sound : s.Sound) :
    s.compare s = .ok .none ↔ ∀ type ∈ s.types, ¬ "__".toList <+: type.name.toList →
      type.RepeatsAgree := by
  have types : compareEach (compareType s) s.types = .ok .none ↔
      ∀ type ∈ s.types, ¬ "__".toList <+: type.name.toList → type.RepeatsAgree :=
    compareEach_eq_none_iff.trans (forall₂_congr fun type member =>
      compareType_self_eq_none_iff sound member)
  rw [Schema.compare, compareRoots_self, ← types]
  cases compareEach (compareType s) s.types <;> simp [bind, Except.bind]

theorem compare_self_of_partsDistinct (sound : s.Sound) (distinct : s.PartsDistinct) :
    s.compare s = .ok .none :=
  (compare_self_eq_none_iff sound).mpr fun type member _ =>
    (distinct type member).repeatsAgree fun ref refMember =>
      sound.refs_wellFormed ref (List.mem_flatMap.mpr ⟨type, member, refMember⟩)

theorem nothingMissing_compare_self (sound : s.Sound) : (s.compare s).NothingMissing := by
  rw [Schema.compare, compareRoots_self]
  refine Gives.bind (nothingMissing_compareEach fun type member => ?_) fun types typesHere => ?_
  · cases internal : type.isInternal with
    | true =>
        rw [compareType, if_pos internal]
        exact ⟨rfl, rfl⟩
    | false =>
        rw [compareType_self sound member internal]
        exact nothingMissing_compareParts_self type
  · rw [Findings.none_append]
    exact typesHere

end Schema

namespace Snapshot

/-- Compared with itself a loaded snapshot never misses a type or a field. It gives no findings at
all exactly if every part asks for no more than the first part of its name offers, so in
particular if no name is repeated. -/
theorem compare_self {s : Snapshot} (loaded : s.Loaded) :
    ∃ found, s.compare s = .ok found ∧ found.missingTypes = [] ∧ found.missingFields = [] ∧
      (found = .none ↔ ∀ type ∈ s.schema.types, ¬ "__".toList <+: type.name.toList →
        type.RepeatsAgree) ∧
      (s.schema.PartsDistinct → found = .none) := by
  have sound := loaded.sound
  obtain ⟨found, ok, -⟩ := Schema.decides_compare sound sound
  have nothing : found.NothingMissing := (Schema.nothingMissing_compare_self sound).ok ok
  have unchanged : found = .none ↔ s.schema.compare s.schema = .ok .none := by
    rw [ok, Except.ok.injEq]
  refine ⟨found, ok, nothing.1, nothing.2, ?_, fun distinct => ?_⟩
  · exact unchanged.trans (Schema.compare_self_eq_none_iff sound)
  · exact unchanged.mpr (Schema.compare_self_of_partsDistinct sound distinct)

/-- The small schema is found unchanged beside itself. -/
theorem compare_self_shelf :
    let known : Snapshot := ⟨.shelf, default, "", ""⟩
    known.Loaded ∧ Schema.shelf.PartsDistinct ∧ known.compare known = .ok .none := by
  intro known
  have loaded : known.Loaded := loaded_of_sound Schema.shelf_sound Schema.shelf_shallow
  have distinct : Schema.shelf.PartsDistinct := by decide
  obtain ⟨found, ok, -, -, -, unchanged⟩ := compare_self loaded
  rw [unchanged distinct] at ok
  exact ⟨loaded, distinct, ok⟩

/-- A schema in which two fields share a name. -/
def doubled : Snapshot where
  schema := ⟨some "Query", none, none, [
    ⟨.object, "Query", none, [⟨"size", none, [], .named "Int", false, none⟩,
      ⟨"size", none, [], .named "String", false, none⟩], [], [], [], []⟩]⟩
  fetchedAt := default
  source := ""
  info := ""

/-- The second of two fields of one name is taken for the first one, whose type is another. -/
theorem compare_self_doubled :
    doubled.Loaded ∧ doubled.compare doubled = .ok { Findings.none with
      typeMismatches := ["Query.size: expected String, got Int"]
      errors := ["Field 'Query.size' type mismatch: expected String, got Int"] } :=
  ⟨loaded_of_sound (by decide) (by decide), rfl⟩

end Snapshot

end SchemaBaseline
