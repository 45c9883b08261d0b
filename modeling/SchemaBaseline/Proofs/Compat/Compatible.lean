import SchemaBaseline.Compat.Compare
import SchemaBaseline.Proofs.Schema.Loaded

/-!
# Compatible schemas

`Schema.Compatible` says, without a comparison, when an actual schema still offers all that an
expected one promises. Types are looked up by their name; among fields, arguments and input fields
of one name the first one counts (`FirstNamed`), and it has to be spelled alike (`SameSpelling`).
`Schema.decides_compare` ties the comparison to it: with well-formed references it comes to an
end, and it finds no error exactly if the schemas are compatible.

The comparison collects findings through four nested loops. `Comparison.Decides` is what one call
of each of them guarantees, and `decides_compareEach` carries it through a loop, so that every
function needs one lemma about itself.
-/

namespace SchemaBaseline

variable {α : Type}

/-! ## What an expected schema promises -/

/-- The first of some parts that has a name. -/
def FirstNamed (nameOf : α → String) (name : String) (parts : List α) (part : α) : Prop :=
  ∃ before after, parts = before ++ part :: after ∧ nameOf part = name ∧
    ∀ other ∈ before, nameOf other ≠ name

/-- Every expected part has a first actual part of its name, and the two agree. -/
def Kept (nameOf : α → String) (Agree : α → α → Prop) (expected actual : List α) : Prop :=
  ∀ part ∈ expected, ∃ found, FirstNamed nameOf (nameOf part) actual found ∧ Agree part found

/-- Both references have a spelling, and it is the same. -/
def SameSpelling (a b : TypeRef) : Prop :=
  ∃ spelling, a.canonical = .ok spelling ∧ b.canonical = .ok spelling

/-- Arguments and input fields agree in their types. -/
def InputValue.Agrees (expected actual : InputValue) : Prop :=
  SameSpelling expected.type actual.type

/-- Fields agree in their types, and every expected argument is kept. -/
def FieldDef.Agrees (expected actual : FieldDef) : Prop :=
  SameSpelling expected.type actual.type ∧
    Kept InputValue.name InputValue.Agrees expected.args actual.args

/-- What the kind of a type makes part of its promise is kept. -/
def NamedType.PartsKept (expected actual : NamedType) : Prop :=
  match expected.kind with
  | .object | .interface => Kept FieldDef.name FieldDef.Agrees expected.fields actual.fields
  | .enum => ∀ value ∈ expected.enumValues, ∃ found ∈ actual.enumValues, found.name = value.name
  | .inputObject => Kept InputValue.name InputValue.Agrees expected.inputFields actual.inputFields
  | .scalar | .union => True

/-- An actual schema offers all that an expected one promises. -/
structure Schema.Compatible (expected actual : Schema) : Prop where
  query_kept : expected.queryType = none ∨ actual.queryType = expected.queryType
  types_kept : ∀ type ∈ expected.types, ¬ "__".toList <+: type.name.toList →
    ∃ found ∈ actual.types, found.name = type.name ∧ found.kind = type.kind ∧ type.PartsKept found

/-! ## Looking up -/

theorem find?_eq_some_iff_firstNamed {nameOf : α → String} {name : String} {parts : List α}
    {part : α} :
    parts.find? (fun p => nameOf p == name) = some part ↔ FirstNamed nameOf name parts part := by
  rw [List.find?_eq_some_iff_append]
  constructor
  · rintro ⟨named, before, after, split, others⟩
    exact ⟨before, after, split, by simpa using named,
      fun other member => by simpa using others other member⟩
  · rintro ⟨before, after, split, named, others⟩
    exact ⟨by simpa using named, before, after, split,
      fun other member => by simpa using others other member⟩

theorem FirstNamed.mem {nameOf : α → String} {name : String} {parts : List α} {part : α}
    (first : FirstNamed nameOf name parts part) : part ∈ parts := by
  obtain ⟨before, after, rfl, -, -⟩ := first
  exact List.mem_append_right before List.mem_cons_self

theorem FirstNamed.name_eq {nameOf : α → String} {name : String} {parts : List α} {part : α}
    (first : FirstNamed nameOf name parts part) : nameOf part = name := by
  obtain ⟨_, _, _, named, _⟩ := first
  exact named

theorem FirstNamed.unique {nameOf : α → String} {name : String} {parts : List α} {part other : α}
    (first : FirstNamed nameOf name parts part) (second : FirstNamed nameOf name parts other) :
    part = other := by
  rw [← find?_eq_some_iff_firstNamed] at first second
  exact Option.some.inj (first.symm.trans second)

/-- With a look-up in hand, some first part agrees exactly if the one that was found does. -/
theorem exists_firstNamed_iff_of_find? {nameOf : α → String} {name : String} {parts : List α}
    {P : α → Prop} {part : α} (found : parts.find? (fun p => nameOf p == name) = some part) :
    (∃ q, FirstNamed nameOf name parts q ∧ P q) ↔ P part := by
  have first := find?_eq_some_iff_firstNamed.mp found
  constructor
  · rintro ⟨q, firstQ, holds⟩
    exact first.unique firstQ ▸ holds
  · exact fun holds => ⟨part, first, holds⟩

/-- Without one there is no part of the name at all. -/
theorem not_exists_firstNamed_of_find? {nameOf : α → String} {name : String} {parts : List α}
    {P : α → Prop} (missing : parts.find? (fun p => nameOf p == name) = none) :
    ¬ ∃ q, FirstNamed nameOf name parts q ∧ P q := by
  rintro ⟨q, first, -⟩
  rw [← find?_eq_some_iff_firstNamed, missing] at first
  cases first

/-! ## What one comparison decides -/

/-- A comparison comes to an end and finds no error exactly under a condition. -/
def Comparison.Decides (comparison : Comparison) (condition : Prop) : Prop :=
  ∃ found, comparison = .ok found ∧ (found.errors = [] ↔ condition)

namespace Comparison.Decides

theorem none {condition : Prop} (holds : condition) : Decides (.ok .none) condition :=
  ⟨.none, rfl, iff_of_true rfl holds⟩

theorem of_error {found : Findings} {message : String} {condition : Prop}
    (error : found.errors = [message]) (fails : ¬ condition) : Decides (.ok found) condition :=
  ⟨found, rfl, iff_of_false (by simp [error]) fails⟩

theorem congr {comparison : Comparison} {condition other : Prop}
    (decides : Decides comparison condition) (same : condition ↔ other) :
    Decides comparison other := by
  obtain ⟨found, ok, errors⟩ := decides
  exact ⟨found, ok, errors.trans same⟩

end Comparison.Decides

theorem Findings.errors_append (f g : Findings) : (f ++ g).errors = f.errors ++ g.errors := rfl

theorem Findings.errors_append_eq_nil_iff {f g : Findings} :
    (f ++ g).errors = [] ↔ f.errors = [] ∧ g.errors = [] := by
  rw [errors_append, List.append_eq_nil_iff]

/-- A loop decides whether every part passes. -/
theorem decides_compareEach {check : α → Comparison} {Passes : α → Prop} (parts : List α)
    (each : ∀ part ∈ parts, (check part).Decides (Passes part)) :
    (compareEach check parts).Decides (∀ part ∈ parts, Passes part) := by
  induction parts with
  | nil => exact .none (by simp)
  | cons part rest ih =>
      obtain ⟨first, firstOk, firstErrors⟩ := each part List.mem_cons_self
      obtain ⟨others, othersOk, othersErrors⟩ :=
        ih fun other member => each other (List.mem_cons_of_mem _ member)
      refine ⟨first ++ others, ?_, ?_⟩
      · rw [compareEach, firstOk, othersOk]
        rfl
      · rw [Findings.errors_append_eq_nil_iff, firstErrors, othersErrors, List.forall_mem_cons]

theorem TypeRef.WellFormed.canonical {ref : TypeRef} (wf : ref.WellFormed) :
    ∃ spelling, ref.canonical = .ok spelling := by
  obtain ⟨cs, spelled⟩ := wf.canonicalChars
  exact ⟨String.ofList cs, by rw [TypeRef.canonical, spelled]⟩

theorem decides_compareRefs {p w : String} {expected actual : TypeRef}
    (wf : expected.WellFormed) (wf' : actual.WellFormed) :
    (compareRefs p w expected actual).Decides (SameSpelling expected actual) := by
  obtain ⟨want, wanted⟩ := wf.canonical
  obtain ⟨got, gotten⟩ := wf'.canonical
  have spelled : SameSpelling expected actual ↔ want = got := by
    simp [SameSpelling, wanted, gotten, eq_comm]
  refine Comparison.Decides.congr ?_ spelled.symm
  unfold compareRefs
  rw [wanted, gotten]
  by_cases same : want = got
  · exact ⟨.none, by subst same; simp [bind, Except.bind], iff_of_true rfl same⟩
  · exact ⟨_, rfl, iff_of_false (by simp [same]) same⟩

/-! ## Fields and their arguments -/

theorem decides_compareArg {p : String} {actual : FieldDef} {arg : InputValue}
    (wf : arg.type.WellFormed) (actualWf : ∀ other ∈ actual.args, other.type.WellFormed) :
    (compareArg p actual arg).Decides
      (∃ found, FirstNamed InputValue.name arg.name actual.args found ∧ arg.Agrees found) := by
  unfold compareArg
  split
  next missing => exact .of_error rfl (not_exists_firstNamed_of_find? missing)
  next found looked =>
    have member := (find?_eq_some_iff_firstNamed.mp looked).mem
    exact (decides_compareRefs wf (actualWf found member)).congr
      (exists_firstNamed_iff_of_find? (P := arg.Agrees) looked).symm

theorem errors_compareDeprecation (place : String) (expected actual : FieldDef) :
    (compareDeprecation place expected actual).errors = [] := by
  unfold compareDeprecation
  split <;> rfl

/-- All references of a field are well formed. -/
def FieldDef.WellFormed (field : FieldDef) : Prop :=
  field.type.WellFormed ∧ ∀ arg ∈ field.args, arg.type.WellFormed

theorem decides_compareField {actual : NamedType} {typeName : String} {field : FieldDef}
    (wf : field.WellFormed) (actualWf : ∀ other ∈ actual.fields, other.WellFormed) :
    (compareField actual typeName field).Decides
      (∃ found, FirstNamed FieldDef.name field.name actual.fields found ∧
        field.Agrees found) := by
  unfold compareField
  split
  next missing => exact .of_error rfl (not_exists_firstNamed_of_find? missing)
  next found looked =>
    have foundWf := actualWf found (find?_eq_some_iff_firstNamed.mp looked).mem
    refine Comparison.Decides.congr ?_ (exists_firstNamed_iff_of_find? looked).symm
    generalize s!"{typeName}.{field.name}" = place
    obtain ⟨types, typesOk, typesErrors⟩ :=
      decides_compareRefs (p := place) (w := s!"Field '{place}'") wf.1 foundWf.1
    obtain ⟨args, argsOk, argsErrors⟩ := decides_compareEach field.args fun arg member =>
      decides_compareArg (p := place) (wf.2 arg member) foundWf.2
    refine ⟨types ++ compareDeprecation place field found ++ args, ?_, ?_⟩
    · dsimp only
      rw [typesOk, argsOk]
      rfl
    · rw [Findings.errors_append_eq_nil_iff, Findings.errors_append_eq_nil_iff,
        errors_compareDeprecation, typesErrors, argsErrors, and_iff_left rfl]
      exact Iff.rfl

theorem decides_compareInputField {actual : NamedType} {typeName : String} {field : InputValue}
    (wf : field.type.WellFormed)
    (actualWf : ∀ other ∈ actual.inputFields, other.type.WellFormed) :
    (compareInputField actual typeName field).Decides
      (∃ found, FirstNamed InputValue.name field.name actual.inputFields found ∧
        field.Agrees found) := by
  unfold compareInputField
  split
  next missing => exact .of_error rfl (not_exists_firstNamed_of_find? missing)
  next found looked =>
    have member := (find?_eq_some_iff_firstNamed.mp looked).mem
    exact (decides_compareRefs wf (actualWf found member)).congr
      (exists_firstNamed_iff_of_find? (P := field.Agrees) looked).symm

/-! ## Enumeration values -/

theorem errors_compareEnumValue_eq_nil_iff {actual : NamedType} {typeName : String}
    {value : EnumValue} :
    (compareEnumValue actual typeName value).errors = [] ↔
      ∃ found ∈ actual.enumValues, found.name = value.name := by
  unfold compareEnumValue NamedType.enumValue?
  split
  next missing =>
    refine iff_of_false (by simp [Findings.error]) ?_
    rintro ⟨found, member, named⟩
    have differs := List.find?_eq_none.mp missing found member
    simp [named] at differs
  next found looked =>
    have first := find?_eq_some_iff_firstNamed.mp looked
    exact iff_of_true rfl ⟨found, first.mem, first.name_eq⟩

theorem errors_concat_map_eq_nil_iff {findings : α → Findings} {parts : List α} :
    (Findings.concat (parts.map findings)).errors = [] ↔
      ∀ part ∈ parts, (findings part).errors = [] := by
  induction parts with
  | nil => simp [Findings.concat, Findings.none]
  | cons part rest ih =>
      rw [List.forall_mem_cons, ← ih]
      exact Findings.errors_append_eq_nil_iff (g := Findings.concat (rest.map findings))

/-! ## Types and schemas -/

/-- All references of a type are well formed. -/
def NamedType.WellFormed (type : NamedType) : Prop :=
  ∀ ref ∈ type.refs, ref.WellFormed

theorem NamedType.WellFormed.field {type : NamedType} (wf : type.WellFormed) {field : FieldDef}
    (member : field ∈ type.fields) : field.WellFormed := by
  simp only [NamedType.WellFormed, NamedType.refs, List.mem_append, List.mem_flatMap,
    List.mem_cons, List.mem_map] at wf
  exact ⟨wf _ (.inl (.inl (.inl ⟨field, member, .inl rfl⟩))),
    fun arg argMember => wf _ (.inl (.inl (.inl ⟨field, member, .inr ⟨arg, argMember, rfl⟩⟩)))⟩

theorem NamedType.WellFormed.inputField {type : NamedType} (wf : type.WellFormed)
    {input : InputValue} (member : input ∈ type.inputFields) : input.type.WellFormed := by
  simp only [NamedType.WellFormed, NamedType.refs, List.mem_append, List.mem_map] at wf
  exact wf _ (.inl (.inl (.inr ⟨input, member, rfl⟩)))

theorem decides_compareParts {expected actual : NamedType} (wf : expected.WellFormed)
    (actualWf : actual.WellFormed) :
    (compareParts expected actual).Decides (expected.PartsKept actual) := by
  have fields : (compareEach (compareField actual expected.name) expected.fields).Decides
      (Kept FieldDef.name FieldDef.Agrees expected.fields actual.fields) :=
    decides_compareEach expected.fields fun field member =>
      decides_compareField (wf.field member) fun other otherMember => actualWf.field otherMember
  unfold compareParts NamedType.PartsKept
  cases expected.kind with
  | object => exact fields
  | interface => exact fields
  | enum =>
      refine ⟨_, rfl, ?_⟩
      rw [errors_concat_map_eq_nil_iff]
      exact forall₂_congr fun value _ => errors_compareEnumValue_eq_nil_iff
  | inputObject =>
      exact decides_compareEach expected.inputFields fun field member =>
        decides_compareInputField (wf.inputField member) fun other otherMember =>
          actualWf.inputField otherMember
  | scalar => exact .none trivial
  | union => exact .none trivial

theorem isInternal_iff_underscores {type : NamedType} :
    type.isInternal = true ↔ "__".toList <+: type.name.toList := by
  rw [NamedType.isInternal, isInternalName, List.isPrefixOf_iff_prefix]

theorem decides_compareType {actual : Schema} (sound : actual.Sound) {type : NamedType}
    (wf : type.WellFormed) :
    (compareType actual type).Decides (¬ "__".toList <+: type.name.toList →
      ∃ found ∈ actual.types, found.name = type.name ∧ found.kind = type.kind ∧
        type.PartsKept found) := by
  unfold compareType
  by_cases internal : type.isInternal = true
  · rw [if_pos internal]
    exact .none fun external => (external (isInternal_iff_underscores.mp internal)).elim
  · rw [if_neg internal]
    have external : ¬ "__".toList <+: type.name.toList :=
      fun h => internal (isInternal_iff_underscores.mpr h)
    split
    next missing =>
      refine .of_error rfl fun kept => ?_
      obtain ⟨found, member, named, -⟩ := kept external
      rw [sound.type?_eq_some_iff.mpr ⟨member, named⟩] at missing
      cases missing
    next found looked =>
      obtain ⟨member, named⟩ := sound.type?_eq_some_iff.mp looked
      -- The type that was looked up is the only candidate, so the existential comes down to it.
      have only : (∃ other ∈ actual.types, other.name = type.name ∧ other.kind = type.kind ∧
          type.PartsKept other) ↔ found.kind = type.kind ∧ type.PartsKept found := by
        constructor
        · rintro ⟨other, otherMember, otherNamed, kept⟩
          have same := looked.symm.trans (sound.type?_eq_some_iff.mpr ⟨otherMember, otherNamed⟩)
          injection same with same
          exact same ▸ kept
        · exact fun kept => ⟨found, member, named, kept⟩
      by_cases sameKind : type.kind = found.kind
      · rw [if_pos sameKind]
        have foundWf : found.WellFormed := fun ref refMember =>
          sound.refs_wellFormed ref (List.mem_flatMap.mpr ⟨found, member, refMember⟩)
        refine (decides_compareParts wf foundWf).congr ?_
        rw [only, and_iff_right sameKind.symm]
        exact ⟨fun kept _ => kept, fun kept => kept external⟩
      · rw [if_neg sameKind]
        exact .of_error rfl fun kept => sameKind (only.mp (kept external)).1.symm

theorem errors_compareRoots_eq_nil_iff {expected actual : Schema} :
    (compareRoots expected actual).errors = [] ↔
      expected.queryType = none ∨ actual.queryType = expected.queryType := by
  have warned (problem : Option String) :
      ((problem.map Findings.warning).getD .none).errors = [] := by
    cases problem <;> rfl
  rw [compareRoots, Findings.errors_append_eq_nil_iff, Findings.errors_append_eq_nil_iff, warned,
    warned, and_iff_left rfl, and_iff_left rfl]
  unfold rootProblem
  cases expected.queryType with
  | none => exact iff_of_true rfl (.inl rfl)
  | some want =>
      cases actual.queryType with
      | none => simp [Findings.error]
      | some got =>
          by_cases same : want = got
          · simp [same, Findings.none]
          · simp [same, Findings.error, eq_comm]

/-- The comparison of sound schemas comes to an end and finds no error exactly if they are
compatible. -/
theorem Schema.decides_compare {expected actual : Schema} (sound : expected.Sound)
    (actualSound : actual.Sound) :
    (expected.compare actual).Decides (expected.Compatible actual) := by
  obtain ⟨types, typesOk, typesErrors⟩ :=
    decides_compareEach expected.types fun type member =>
      decides_compareType actualSound fun ref refMember =>
        sound.refs_wellFormed ref (List.mem_flatMap.mpr ⟨type, member, refMember⟩)
  refine ⟨compareRoots expected actual ++ types, ?_, ?_⟩
  · rw [Schema.compare, typesOk]
    rfl
  · rw [Findings.errors_append_eq_nil_iff, errors_compareRoots_eq_nil_iff, typesErrors]
    exact ⟨fun ⟨query, kept⟩ => ⟨query, kept⟩, fun ⟨query, kept⟩ => ⟨query, kept⟩⟩

end SchemaBaseline
