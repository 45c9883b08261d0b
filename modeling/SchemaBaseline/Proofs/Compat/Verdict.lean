import Mathlib.Logic.Basic
import SchemaBaseline.Proofs.Compat.Compatible
import SchemaBaseline.Proofs.Schema.RoundTrip

/-!
# What a verdict rests on

A comparison is passed when it finds no error. `Snapshot.isValid_compare_iff` says that this
happens exactly for compatible schemas, and that nothing beyond them has a say: the verdict stays
the same as long as the essence of both schemas does. The essence of a schema (`Schema.essence`)
leaves out the mutation and subscription roots, deprecations and descriptions, and of the actual
schema only the part counts that lies within the expected one (`Schema.within`).
-/

namespace SchemaBaseline

variable {α β : Type}

/-! ## The essence of a schema -/

/-- An argument or input field as far as it matters: its name and type. -/
def InputValue.essence (v : InputValue) : InputValue :=
  { v with description := none, defaultValue := none }

/-- A field as far as it matters; whether it is deprecated does not. -/
def FieldDef.essence (f : FieldDef) : FieldDef where
  name := f.name
  description := none
  args := f.args.map InputValue.essence
  type := f.type
  isDeprecated := false
  deprecationReason := none

/-- An enumeration value as far as it matters: its name. -/
def EnumValue.essence (v : EnumValue) : EnumValue :=
  ⟨v.name, none, false, none⟩

/-- A type as far as it matters. -/
def NamedType.essence (t : NamedType) : NamedType where
  kind := t.kind
  name := t.name
  description := none
  fields := t.fields.map FieldDef.essence
  inputFields := t.inputFields.map InputValue.essence
  interfaces := []
  enumValues := t.enumValues.map EnumValue.essence
  possibleTypes := []

/-- A schema as far as it matters: of the roots only the one for queries does. -/
def Schema.essence (s : Schema) : Schema where
  queryType := s.queryType
  mutationType := none
  subscriptionType := none
  types := s.types.map NamedType.essence

/-! ## The part within an expected schema -/

/-- A field without the arguments that no expected field of its name has. -/
def FieldDef.within (field : FieldDef) (expected : List FieldDef) : FieldDef :=
  { field with args := field.args.filter fun arg =>
      expected.any fun f => f.name == field.name && f.args.any (·.name == arg.name) }

/-- A type without the fields, input fields and values that the expected type does not have. -/
def NamedType.within (type expected : NamedType) : NamedType :=
  { type with
    fields := (type.fields.filter fun f => expected.fields.any (·.name == f.name)).map
      (·.within expected.fields)
    inputFields := type.inputFields.filter fun i => expected.inputFields.any (·.name == i.name)
    enumValues := type.enumValues.filter fun v => expected.enumValues.any (·.name == v.name) }

/-- A schema without the types that the expected one does not have, the others being cut down
likewise. -/
def Schema.within (actual expected : Schema) : Schema :=
  { actual with types := actual.types.filterMap fun t => (expected.type? t.name).map t.within }

/-! ## First parts of changed lists -/

theorem firstNamed_map_iff {nameOf : α → String} {g : α → α}
    (keeps : ∀ p, nameOf (g p) = nameOf p) {name : String} {parts : List α} {part : α} :
    FirstNamed nameOf name (parts.map g) part ↔ ∃ p, FirstNamed nameOf name parts p ∧
      g p = part := by
  have same : (fun p => nameOf p == name) ∘ g = fun p => nameOf p == name :=
    funext fun p => by rw [Function.comp_apply, keeps]
  simp only [← find?_eq_some_iff_firstNamed, List.find?_map, same, Option.map_eq_some_iff]

theorem firstNamed_filter_iff {nameOf : α → String} {name : String} {parts : List α}
    {keep : α → Bool} (keeps : ∀ p, nameOf p = name → keep p = true) {part : α} :
    FirstNamed nameOf name (parts.filter keep) part ↔ FirstNamed nameOf name parts part := by
  have same : (fun p => decide (keep p = true ∧ (nameOf p == name) = true)) = fun p =>
      nameOf p == name := by
    funext p
    by_cases named : nameOf p = name
    · simp [named, keeps p named]
    · simp [named]
  simp only [← find?_eq_some_iff_firstNamed, List.find?_filter, same]

/-- Changing expected and actual parts does not matter if neither names nor agreement change. -/
theorem kept_map_iff {nameOf : α → String} {g : α → α} (keeps : ∀ p, nameOf (g p) = nameOf p)
    {Agree : α → α → Prop} (agrees : ∀ p q, Agree (g p) (g q) ↔ Agree p q)
    {expected actual : List α} :
    Kept nameOf Agree (expected.map g) (actual.map g) ↔ Kept nameOf Agree expected actual := by
  simp only [Kept, List.forall_mem_map, keeps, firstNamed_map_iff keeps]
  refine forall₂_congr fun part _ => ?_
  constructor
  · rintro ⟨_, ⟨found, first, rfl⟩, agree⟩
    exact ⟨found, first, (agrees part found).mp agree⟩
  · rintro ⟨found, first, agree⟩
    exact ⟨g found, ⟨found, first, rfl⟩, (agrees part found).mpr agree⟩

/-- Actual parts that are dropped do not matter if no expected part has their name. -/
theorem kept_filter_iff {nameOf : α → String} {Agree : α → α → Prop} {expected actual : List α}
    {keep : α → Bool} (keeps : ∀ part ∈ expected, ∀ p, nameOf p = nameOf part → keep p = true) :
    Kept nameOf Agree expected (actual.filter keep) ↔ Kept nameOf Agree expected actual :=
  forall₂_congr fun part member => exists_congr fun _ =>
    and_congr_left fun _ => firstNamed_filter_iff (keeps part member)

/-! ## Compatibility depends on the essence alone -/

theorem FieldDef.agrees_essence_iff {expected actual : FieldDef} :
    expected.essence.Agrees actual.essence ↔ expected.Agrees actual :=
  and_congr_right fun _ =>
    kept_map_iff (g := InputValue.essence) (fun _ => rfl) fun _ _ => Iff.rfl

theorem NamedType.partsKept_essence_iff {expected actual : NamedType} :
    expected.essence.PartsKept actual.essence ↔ expected.PartsKept actual := by
  have fields : Kept FieldDef.name FieldDef.Agrees (expected.fields.map FieldDef.essence)
      (actual.fields.map FieldDef.essence) ↔
      Kept FieldDef.name FieldDef.Agrees expected.fields actual.fields :=
    kept_map_iff (g := FieldDef.essence) (fun _ => rfl) fun _ _ => FieldDef.agrees_essence_iff
  have inputs : Kept InputValue.name InputValue.Agrees
      (expected.inputFields.map InputValue.essence) (actual.inputFields.map InputValue.essence) ↔
      Kept InputValue.name InputValue.Agrees expected.inputFields actual.inputFields :=
    kept_map_iff (g := InputValue.essence) (fun _ => rfl) fun _ _ => Iff.rfl
  have values : (∀ value ∈ expected.enumValues.map EnumValue.essence,
      ∃ found ∈ actual.enumValues.map EnumValue.essence, found.name = value.name) ↔
      ∀ value ∈ expected.enumValues, ∃ found ∈ actual.enumValues, found.name = value.name := by
    rw [List.forall_mem_map]
    simp only [List.mem_map, exists_exists_and_eq_and]
    exact Iff.rfl
  unfold NamedType.PartsKept
  have kind : expected.essence.kind = expected.kind := rfl
  rw [kind]
  cases expected.kind with
  | object => exact fields
  | interface => exact fields
  | enum => exact values
  | inputObject => exact inputs
  | scalar => exact Iff.rfl
  | union => exact Iff.rfl

theorem Schema.compatible_essence_iff {expected actual : Schema} :
    expected.essence.Compatible actual.essence ↔ expected.Compatible actual := by
  have types : (∀ type ∈ expected.essence.types, ¬ "__".toList <+: type.name.toList →
      ∃ found ∈ actual.essence.types, found.name = type.name ∧ found.kind = type.kind ∧
      type.PartsKept found) ↔ ∀ type ∈ expected.types, ¬ "__".toList <+: type.name.toList →
      ∃ found ∈ actual.types, found.name = type.name ∧ found.kind = type.kind ∧
      type.PartsKept found := by
    rw [Schema.essence, Schema.essence, List.forall_mem_map]
    simp only [List.mem_map, exists_exists_and_eq_and, NamedType.partsKept_essence_iff]
    exact Iff.rfl
  exact ⟨fun ⟨query, kept⟩ => ⟨query, types.mp kept⟩,
    fun ⟨query, kept⟩ => ⟨query, types.mpr kept⟩⟩

/-! ## Compatibility depends on what is expected alone -/

theorem FieldDef.agrees_within_iff {expected : List FieldDef} {field actual : FieldDef}
    (member : field ∈ expected) (named : actual.name = field.name) :
    field.Agrees (actual.within expected) ↔ field.Agrees actual := by
  refine and_congr_right fun _ => kept_filter_iff fun arg argMember other same => ?_
  refine List.any_eq_true.mpr ⟨field, member, ?_⟩
  rw [Bool.and_eq_true, beq_iff_eq, List.any_eq_true]
  exact ⟨named.symm, arg, argMember, by simpa using same.symm⟩

theorem NamedType.fieldsKept_within_iff {expected actual : NamedType} :
    Kept FieldDef.name FieldDef.Agrees expected.fields (actual.within expected).fields ↔
      Kept FieldDef.name FieldDef.Agrees expected.fields actual.fields := by
  refine forall₂_congr fun field member => ?_
  have kept : ∀ p : FieldDef, p.name = field.name →
      expected.fields.any (·.name == p.name) = true :=
    fun p named => List.any_eq_true.mpr ⟨field, member, by simpa using named.symm⟩
  have cut : ∀ p : FieldDef, (p.within expected.fields).name = p.name := fun _ => rfl
  simp only [NamedType.within, firstNamed_map_iff cut, firstNamed_filter_iff kept]
  constructor
  · rintro ⟨_, ⟨found, first, rfl⟩, agrees⟩
    exact ⟨found, first, (FieldDef.agrees_within_iff member first.name_eq).mp agrees⟩
  · rintro ⟨found, first, agrees⟩
    exact ⟨_, ⟨found, first, rfl⟩, (FieldDef.agrees_within_iff member first.name_eq).mpr agrees⟩

theorem NamedType.valuesKept_within_iff {expected actual : NamedType} :
    (∀ value ∈ expected.enumValues, ∃ found ∈ (actual.within expected).enumValues,
      found.name = value.name) ↔
      ∀ value ∈ expected.enumValues, ∃ found ∈ actual.enumValues, found.name = value.name := by
  refine forall₂_congr fun value member => exists_congr fun found => ?_
  rw [NamedType.within, List.mem_filter, and_assoc]
  refine and_congr_right fun _ => and_iff_right_of_imp fun named => ?_
  exact List.any_eq_true.mpr ⟨value, member, by simpa using named.symm⟩

theorem NamedType.partsKept_within_iff {expected actual : NamedType} :
    expected.PartsKept (actual.within expected) ↔ expected.PartsKept actual := by
  have inputs : Kept InputValue.name InputValue.Agrees expected.inputFields
      (actual.within expected).inputFields ↔
      Kept InputValue.name InputValue.Agrees expected.inputFields actual.inputFields :=
    kept_filter_iff fun input member other named =>
      List.any_eq_true.mpr ⟨input, member, by simpa using named.symm⟩
  unfold NamedType.PartsKept
  cases expected.kind with
  | object => exact NamedType.fieldsKept_within_iff
  | interface => exact NamedType.fieldsKept_within_iff
  | enum => exact NamedType.valuesKept_within_iff
  | inputObject => exact inputs
  | scalar => exact Iff.rfl
  | union => exact Iff.rfl

theorem Schema.compatible_within_iff {expected actual : Schema} (sound : expected.Sound) :
    expected.Compatible (actual.within expected) ↔ expected.Compatible actual := by
  have types (type : NamedType) (member : type ∈ expected.types) :
      (∃ found ∈ (actual.within expected).types, found.name = type.name ∧ found.kind = type.kind ∧
      type.PartsKept found) ↔ ∃ found ∈ actual.types, found.name = type.name ∧
      found.kind = type.kind ∧ type.PartsKept found := by
    simp only [Schema.within, List.mem_filterMap, Option.map_eq_some_iff]
    constructor
    · rintro ⟨_, ⟨found, foundMember, other, looked, rfl⟩, named, kind, kept⟩
      -- The name is that of `type`, and `expected` has no second type of it.
      have self : expected.type? found.name = some type :=
        sound.type?_eq_some_iff.mpr ⟨member, named.symm⟩
      have same : other = type := Option.some.inj (looked.symm.trans self)
      subst same
      exact ⟨found, foundMember, named, kind, NamedType.partsKept_within_iff.mp kept⟩
    · rintro ⟨found, foundMember, named, kind, kept⟩
      exact ⟨found.within type, ⟨found, foundMember, type,
        sound.type?_eq_some_iff.mpr ⟨member, named.symm⟩, rfl⟩, named, kind,
        NamedType.partsKept_within_iff.mpr kept⟩
  constructor
  · exact fun ⟨query, kept⟩ => ⟨query, fun type member external => (types type member).mp
      (kept type member external)⟩
  · exact fun ⟨query, kept⟩ => ⟨query, fun type member external => (types type member).mpr
      (kept type member external)⟩

/-- Schemas of the same essence are compatible with the same schemas. -/
theorem Schema.compatible_congr {expected actual other other' : Schema} (sound : expected.Sound)
    (sameExpected : other.essence = expected.essence)
    (sameActual : (other'.within expected).essence = (actual.within expected).essence) :
    other.Compatible other' ↔ expected.Compatible actual := by
  calc other.Compatible other'
      ↔ other.essence.Compatible other'.essence := compatible_essence_iff.symm
    _ ↔ expected.essence.Compatible other'.essence := by rw [sameExpected]
    _ ↔ expected.Compatible other' := compatible_essence_iff
    _ ↔ expected.Compatible (other'.within expected) := (compatible_within_iff sound).symm
    _ ↔ expected.essence.Compatible (other'.within expected).essence :=
      compatible_essence_iff.symm
    _ ↔ expected.essence.Compatible (actual.within expected).essence := by rw [sameActual]
    _ ↔ expected.Compatible (actual.within expected) := compatible_essence_iff
    _ ↔ expected.Compatible actual := compatible_within_iff sound

/-! ## The verdict -/

theorem Findings.isValid_iff {found : Findings} : found.isValid = true ↔ found.errors = [] :=
  List.isEmpty_iff

theorem Findings.isValid_eq_false_iff {found : Findings} :
    found.isValid = false ↔ found.errors ≠ [] :=
  Bool.eq_false_iff.trans (not_congr isValid_iff)

/-- Comparing loaded snapshots comes to an end, and is passed exactly if the schemas are
compatible. Whatever else changes about either of them, as long as the essence of the expected
schema and that of the actual schema within it stay, so does the verdict. -/
theorem Snapshot.isValid_compare_iff {expected actual : Snapshot} (loaded : expected.Loaded)
    (actualLoaded : actual.Loaded) :
    ∃ found, expected.compare actual = .ok found ∧
      (found.isValid = true ↔ expected.schema.Compatible actual.schema) ∧
      ∀ other other' : Snapshot, other.Loaded → other'.Loaded →
        other.schema.essence = expected.schema.essence →
        (other'.schema.within expected.schema).essence =
          (actual.schema.within expected.schema).essence →
        ∃ found', other.compare other' = .ok found' ∧ found'.isValid = found.isValid := by
  obtain ⟨found, ok, errors⟩ := Schema.decides_compare loaded.sound actualLoaded.sound
  have verdict : found.isValid = true ↔ expected.schema.Compatible actual.schema :=
    Findings.isValid_iff.trans errors
  refine ⟨found, ok, verdict,
    fun other other' otherLoaded otherLoaded' sameExpected sameActual => ?_⟩
  obtain ⟨found', ok', errors'⟩ := Schema.decides_compare otherLoaded.sound otherLoaded'.sound
  refine ⟨found', ok', ?_⟩
  rw [Bool.eq_iff_iff, verdict, Findings.isValid_iff, errors']
  exact Schema.compatible_congr loaded.sound sameExpected sameActual

/-- A schema that has since grown by a root, a type and a field, and in which everything is
deprecated. -/
def Schema.grownShelf : Schema :=
  { shelf with
    mutationType := some "Mutation"
    types := ⟨.scalar, "Date", none, [], [], [], [], []⟩ :: shelf.types.map fun t =>
      { t with fields := ⟨"added", none, [], .named "Date", true, none⟩ ::
          t.fields.map fun f => { f with isDeprecated := true } } }

/-- Compared with itself a schema gets the verdict that its grown form gets from a schema with one
more root. -/
theorem Snapshot.isValid_compare_shelf :
    let known : Snapshot := ⟨.shelf, default, "", ""⟩
    let rooted : Snapshot :=
      ⟨{ Schema.shelf with subscriptionType := some "Updates" }, default, "", ""⟩
    let grown : Snapshot := ⟨.grownShelf, default, "", ""⟩
    known.Loaded ∧ rooted.Loaded ∧ grown.Loaded ∧ ∃ found, known.compare known = .ok found ∧
      (found.isValid = true ↔ Schema.shelf.Compatible Schema.shelf) ∧
      ∃ found', rooted.compare grown = .ok found' ∧ found'.isValid = found.isValid := by
  intro known rooted grown
  have knownLoaded : known.Loaded := loaded_of_sound Schema.shelf_sound Schema.shelf_shallow
  have rootedLoaded : rooted.Loaded := loaded_of_sound (by decide) (by decide)
  have grownLoaded : grown.Loaded := loaded_of_sound (by decide) (by decide)
  obtain ⟨found, ok, verdict, stays⟩ := isValid_compare_iff knownLoaded knownLoaded
  exact ⟨knownLoaded, rootedLoaded, grownLoaded, found, ok, verdict,
    stays rooted grown rootedLoaded grownLoaded (by decide) (by decide)⟩

end SchemaBaseline
