import Mathlib.Logic.Relation
import SchemaBaseline.Proofs.Compat.Compatible
import SchemaBaseline.Proofs.Schema.RoundTrip

/-!
# Edits that a comparison does not see

`Snapshot.Edit expected` is one edit of an actual snapshot that does not touch what `expected`
asks for: a part that `expected` does not have is put in somewhere, a type that it does not have
goes away, types change places, a description, a default value, an interface, a member or the
deprecation of an enumeration value changes, or a root operation type that is not expected.
`Schema.HiddenEdit` puts an internal type into the expected schema or takes one out.
`Snapshot.compare_of_edits` says that any number of such edits leaves all findings of a comparison
as they are.

A comparison reads an actual schema only through look-ups. So each edit is followed to the
look-ups that it may change (`ListEdit.find?`), and what is found before and after is compared
again one level deeper.
-/

namespace SchemaBaseline

variable {α : Type}

/-! ## Editing lists -/

/-- One edit of a list: a new part is put in somewhere, or a part is changed where it stands. -/
inductive ListEdit (New : α → Prop) (Changed : α → α → Prop) : List α → List α → Prop
  | insert {before after : List α} {part : α} (new : New part) :
      ListEdit New Changed (before ++ after) (before ++ part :: after)
  | change {before after : List α} {part other : α} (changed : Changed part other) :
      ListEdit New Changed (before ++ part :: after) (before ++ other :: after)

/-- Two look-ups that find the same, or a part before and after a change. -/
def SameOr (Changed : α → α → Prop) : Option α → Option α → Prop :=
  Option.Rel fun part other => part = other ∨ Changed part other

theorem SameOr.refl {Changed : α → α → Prop} (found : Option α) : SameOr Changed found found := by
  cases found with
  | none => exact .none
  | some part => exact .some (.inl rfl)

/-- A look-up by name does not see a part of another name. -/
theorem find?_insert_of_ne {nameOf : α → String} {name : String} {part : α}
    (other : nameOf part ≠ name) (before after : List α) :
    (before ++ part :: after).find? (fun part => nameOf part == name) =
      (before ++ after).find? fun part => nameOf part == name := by
  rw [List.find?_append, List.find?_append, List.find?_cons_of_neg (by simpa using other)]

/-- New parts of other names are not seen, and a change that leaves the name alone shows only in
what is found. -/
theorem ListEdit.find? {New : α → Prop} {Changed : α → α → Prop} {nameOf : α → String}
    {name : String} {parts parts' : List α} (edit : ListEdit New Changed parts parts')
    (others : ∀ part, New part → nameOf part ≠ name)
    (keeps : ∀ part other, Changed part other → nameOf other = nameOf part) :
    SameOr Changed (parts.find? fun part => nameOf part == name)
      (parts'.find? fun part => nameOf part == name) := by
  cases edit with
  | @insert before after part new =>
      rw [find?_insert_of_ne (others part new)]
      exact .refl _
  | @change before after part other changed =>
      have same : (nameOf other == name) = (nameOf part == name) := by
        rw [keeps part other changed]
      rw [List.find?_append, List.find?_append]
      cases before.find? fun part => nameOf part == name with
      | some earlier => exact .refl _
      | none =>
          simp only [Option.none_or, List.find?_cons, same]
          cases nameOf part == name with
          | true => exact .some (.inr changed)
          | false => exact .refl _

/-! ## Edits of parts -/

/-- An edit of an argument or input field: neither its description nor its default value
matters. -/
inductive InputValue.Edit : InputValue → InputValue → Prop
  | describe (v : InputValue) (description : Option String) :
    Edit v { v with description := description }
  | setDefault (v : InputValue) (defaultValue : Option String) :
    Edit v { v with defaultValue := defaultValue }

/-- An edit of an enumeration value, of which nothing but its name matters. -/
inductive EnumValue.Edit : EnumValue → EnumValue → Prop
  | describe (v : EnumValue) (description : Option String) :
    Edit v { v with description := description }
  | deprecate (v : EnumValue) (isDeprecated : Bool) (reason : Option String) :
      Edit v { v with isDeprecated := isDeprecated, deprecationReason := reason }

/-- No expected type of a name has a part of a name. -/
def Schema.Lacks (expected : Schema) (partNames : NamedType → List String)
    (typeName name : String) : Prop :=
  ∀ type ∈ expected.types, type.name = typeName → name ∉ partNames type

instance (expected : Schema) (partNames : NamedType → List String) (typeName name : String) :
    Decidable (expected.Lacks partNames typeName name) :=
  inferInstanceAs (Decidable (∀ type ∈ expected.types, type.name = typeName →
    name ∉ partNames type))

/-- The names of the arguments of all fields of a name. -/
def NamedType.argNames (fieldName : String) (type : NamedType) : List String :=
  (type.fields.filter fun field => field.name == fieldName).flatMap fun field =>
    field.args.map InputValue.name

/-- An edit of a field of a type: its description, or an argument, which is new or changed. -/
inductive FieldDef.Edit (expected : Schema) (typeName : String) : FieldDef → FieldDef → Prop
  | describe (f : FieldDef) (description : Option String) :
    Edit expected typeName f { f with description := description }
  | args {f : FieldDef} {args : List InputValue}
      (edit : ListEdit (fun arg => expected.Lacks (NamedType.argNames f.name) typeName arg.name)
        InputValue.Edit f.args args) :
      Edit expected typeName f { f with args := args }

/-- An edit of a type: what it says of itself, its interfaces and members, or a part that is new
or changed. -/
inductive NamedType.Edit (expected : Schema) : NamedType → NamedType → Prop
  | describe (t : NamedType) (description : Option String) :
    Edit expected t { t with description := description }
  | interfaces (t : NamedType) (interfaces : List TypeRef) :
    Edit expected t { t with interfaces := interfaces }
  | possibleTypes (t : NamedType) (members : List TypeRef) :
    Edit expected t { t with possibleTypes := members }
  | fields {t : NamedType} {fields : List FieldDef}
      (edit : ListEdit (fun field =>
        expected.Lacks (·.fields.map FieldDef.name) t.name field.name)
        (FieldDef.Edit expected t.name)
        t.fields fields) : Edit expected t { t with fields := fields }
  | inputFields {t : NamedType} {inputs : List InputValue}
      (edit : ListEdit (fun input =>
        expected.Lacks (·.inputFields.map InputValue.name) t.name input.name) InputValue.Edit
        t.inputFields inputs) : Edit expected t { t with inputFields := inputs }
  | enumValues {t : NamedType} {values : List EnumValue}
      (edit : ListEdit (fun value =>
        expected.Lacks (·.enumValues.map EnumValue.name) t.name value.name) EnumValue.Edit
        t.enumValues values) : Edit expected t { t with enumValues := values }

/-- A type that an expected schema does not ask for: it is internal, or no expected type has its
name. -/
def Schema.Ignores (expected : Schema) (type : NamedType) : Prop :=
  type.isInternal = true ∨ type.name ∉ expected.types.map NamedType.name

instance (expected : Schema) (type : NamedType) : Decidable (expected.Ignores type) :=
  inferInstanceAs (Decidable (_ ∨ _))

/-- An edit of an actual schema. -/
inductive Schema.Edit (expected : Schema) : Schema → Schema → Prop
  | types {s : Schema} {types : List NamedType}
    (edit : ListEdit expected.Ignores (NamedType.Edit expected) s.types types) :
    Edit expected s { s with types := types }
  | remove {s : Schema} {before after : List NamedType} {type : NamedType}
    (ignored : expected.Ignores type) (split : s.types = before ++ type :: after) :
    Edit expected s { s with types := before ++ after }
  | permute {s : Schema} {types : List NamedType} (moved : s.types.Perm types) :
    Edit expected s { s with types := types }
  | query {s : Schema} (absent : expected.queryType = none) (root : Option String) :
      Edit expected s { s with queryType := root }
  | mutation {s : Schema} (absent : expected.mutationType = none) (root : Option String) :
      Edit expected s { s with mutationType := root }
  | subscription {s : Schema} (absent : expected.subscriptionType = none) (root : Option String) :
      Edit expected s { s with subscriptionType := root }

/-- No two types share a name. -/
def Schema.Distinct (s : Schema) : Prop :=
  (s.types.map NamedType.name).Nodup

instance (s : Schema) : Decidable s.Distinct :=
  inferInstanceAs (Decidable (List.Nodup _))

/-- An edit of an actual snapshot: of its schema, type names staying unique, or of what is told
about it. -/
inductive Snapshot.Edit (expected : Snapshot) : Snapshot → Snapshot → Prop
  | schema {s : Snapshot} {schema : Schema} (edit : Schema.Edit expected.schema s.schema schema)
    (distinct : schema.Distinct) :
      Edit expected s { s with schema := schema }
  | metadata (s : Snapshot) (fetchedAt : Time.Stamp) (source info : String) :
      Edit expected s ⟨s.schema, fetchedAt, source, info⟩

/-- An edit of an expected snapshot: an internal type is put in or taken out. -/
inductive Snapshot.HiddenEdit : Snapshot → Snapshot → Prop
  | insert {s : Snapshot} {before after : List NamedType} {type : NamedType}
    (hidden : type.isInternal = true) (split : s.schema.types = before ++ after) :
      HiddenEdit s { s with schema := { s.schema with types := before ++ type :: after } }
  | remove {s : Snapshot} {before after : List NamedType} {type : NamedType}
    (hidden : type.isInternal = true) (split : s.schema.types = before ++ type :: after) :
      HiddenEdit s { s with schema := { s.schema with types := before ++ after } }

/-! ## What edits leave alone -/

namespace InputValue.Edit

variable {v v' : InputValue}

theorem name_eq (edit : Edit v v') : v'.name = v.name := by
  cases edit <;> rfl

theorem type_eq (edit : Edit v v') : v'.type = v.type := by
  cases edit <;> rfl

end InputValue.Edit

theorem EnumValue.Edit.name_eq {v v' : EnumValue} (edit : Edit v v') : v'.name = v.name := by
  cases edit <;> rfl

namespace FieldDef.Edit

variable {expected : Schema} {typeName : String} {f f' : FieldDef}

theorem name_eq (edit : Edit expected typeName f f') : f'.name = f.name := by
  cases edit <;> rfl

theorem type_eq (edit : Edit expected typeName f f') : f'.type = f.type := by
  cases edit <;> rfl

theorem compareDeprecation_eq (edit : Edit expected typeName f f') (place : String)
    (field : FieldDef) :
    compareDeprecation place field f' = compareDeprecation place field f := by
  cases edit <;> rfl

/-- The look-up of an argument that an expected field of the same name has. -/
theorem sameOr_arg? (edit : Edit expected typeName f f') {type : NamedType} {field : FieldDef}
    {arg : InputValue} (member : type ∈ expected.types) (typeNamed : type.name = typeName)
    (fieldMember : field ∈ type.fields) (named : field.name = f.name)
    (argMember : arg ∈ field.args) :
    SameOr InputValue.Edit (f.arg? arg.name) (f'.arg? arg.name) := by
  cases edit with
  | describe description => exact .refl _
  | args edit =>
      refine edit.find? (fun other lacks same => lacks type member typeNamed ?_) fun _ _ =>
        InputValue.Edit.name_eq
      rw [same]
      exact List.mem_flatMap.mpr ⟨field, List.mem_filter.mpr ⟨fieldMember, by simpa using named⟩,
        List.mem_map_of_mem argMember⟩

end FieldDef.Edit

namespace NamedType.Edit

variable {expected : Schema} {t t' : NamedType}

theorem name_eq (edit : Edit expected t t') : t'.name = t.name := by
  cases edit <;> rfl

theorem kind_eq (edit : Edit expected t t') : t'.kind = t.kind := by
  cases edit <;> rfl

section

variable (edit : Edit expected t t') {type : NamedType} (member : type ∈ expected.types)
    (named : type.name = t.name)
include edit member named

theorem sameOr_field? {field : FieldDef} (fieldMember : field ∈ type.fields) :
    SameOr (FieldDef.Edit expected t.name) (t.field? field.name) (t'.field? field.name) := by
  cases edit with
  | fields edit =>
      refine edit.find? (fun other lacks same => lacks type member named ?_) fun _ _ =>
        FieldDef.Edit.name_eq
      rw [same]
      exact List.mem_map_of_mem fieldMember
  | describe | interfaces | possibleTypes | inputFields | enumValues => exact .refl _

theorem sameOr_inputField? {input : InputValue} (inputMember : input ∈ type.inputFields) :
    SameOr InputValue.Edit (t.inputField? input.name) (t'.inputField? input.name) := by
  cases edit with
  | inputFields edit =>
      refine edit.find? (fun other lacks same => lacks type member named ?_) fun _ _ =>
        InputValue.Edit.name_eq
      rw [same]
      exact List.mem_map_of_mem inputMember
  | describe | interfaces | possibleTypes | fields | enumValues => exact .refl _

theorem sameOr_enumValue? {value : EnumValue} (valueMember : value ∈ type.enumValues) :
    SameOr EnumValue.Edit (t.enumValue? value.name) (t'.enumValue? value.name) := by
  cases edit with
  | enumValues edit =>
      refine edit.find? (fun other lacks same => lacks type member named ?_) fun _ _ =>
        EnumValue.Edit.name_eq
      rw [same]
      exact List.mem_map_of_mem valueMember
  | describe | interfaces | possibleTypes | fields | inputFields => exact .refl _

end

end NamedType.Edit

/-! ## Comparisons that find the same -/

theorem compareEach_congr {check check' : α → Comparison} {parts : List α}
    (same : ∀ part ∈ parts, check' part = check part) :
    compareEach check' parts = compareEach check parts := by
  induction parts with
  | nil => rfl
  | cons part rest ih =>
      rw [compareEach, compareEach, same part List.mem_cons_self,
        ih fun other member => same other (List.mem_cons_of_mem _ member)]

theorem compareArg_of_sameOr {place : String} {found found' : FieldDef} {arg : InputValue}
    (looked : SameOr InputValue.Edit (found.arg? arg.name) (found'.arg? arg.name)) :
    compareArg place found' arg = compareArg place found arg := by
  unfold compareArg
  generalize found.arg? arg.name = before at looked
  generalize found'.arg? arg.name = after at looked
  cases looked with
  | none => rfl
  | some same =>
      rcases same with rfl | edit
      · rfl
      · simp only [edit.type_eq]

theorem compareInputField_of_sameOr {typeName : String} {found found' : NamedType}
    {input : InputValue}
    (looked : SameOr InputValue.Edit (found.inputField? input.name)
      (found'.inputField? input.name)) :
    compareInputField found' typeName input = compareInputField found typeName input := by
  unfold compareInputField
  generalize found.inputField? input.name = before at looked
  generalize found'.inputField? input.name = after at looked
  cases looked with
  | none => rfl
  | some same =>
      rcases same with rfl | edit
      · rfl
      · simp only [edit.type_eq]

theorem compareEnumValue_of_sameOr {typeName : String} {found found' : NamedType}
    {value : EnumValue}
    (looked : SameOr EnumValue.Edit (found.enumValue? value.name)
      (found'.enumValue? value.name)) :
    compareEnumValue found' typeName value = compareEnumValue found typeName value := by
  unfold compareEnumValue
  generalize found.enumValue? value.name = before at looked
  generalize found'.enumValue? value.name = after at looked
  cases looked <;> rfl

theorem compareField_of_sameOr {expected : Schema} {typeName : String} {found found' : NamedType}
    {field : FieldDef}
    (looked : SameOr (FieldDef.Edit expected typeName) (found.field? field.name)
      (found'.field? field.name))
    (args : ∀ {f f'}, found.field? field.name = some f → FieldDef.Edit expected typeName f f' →
      ∀ arg ∈ field.args, SameOr InputValue.Edit (f.arg? arg.name) (f'.arg? arg.name)) :
    compareField found' typeName field = compareField found typeName field := by
  unfold compareField
  generalize found.field? field.name = before at looked args
  generalize found'.field? field.name = after at looked
  cases looked with
  | none => rfl
  | some same =>
      rcases same with rfl | edit
      · rfl
      · have argsSame (place : String) : compareEach (compareArg place _) field.args =
            compareEach (compareArg place _) field.args :=
          compareEach_congr fun arg member => compareArg_of_sameOr (args rfl edit arg member)
        simp only [edit.type_eq, edit.compareDeprecation_eq, argsSame]

/-- An expected type is compared with an edited type as with the type before. -/
theorem compareParts_of_edit {expected : Schema} {type found found' : NamedType}
    (edit : NamedType.Edit expected found found') (member : type ∈ expected.types)
    (named : type.name = found.name) : compareParts type found' = compareParts type found := by
  have fields : compareEach (compareField found' type.name) type.fields =
      compareEach (compareField found type.name) type.fields := by
    refine compareEach_congr fun field fieldMember => ?_
    rw [named]
    refine compareField_of_sameOr (edit.sameOr_field? member named fieldMember)
      fun looked fieldEdit arg argMember => ?_
    have first := find?_eq_some_iff_firstNamed.mp looked
    exact fieldEdit.sameOr_arg? member named fieldMember first.name_eq.symm argMember
  have values : type.enumValues.map (compareEnumValue found' type.name) =
      type.enumValues.map (compareEnumValue found type.name) :=
    List.map_congr_left fun value valueMember =>
      compareEnumValue_of_sameOr (edit.sameOr_enumValue? member named valueMember)
  unfold compareParts
  cases type.kind with
  | object | interface => exact fields
  | enum => simp only [values]
  | inputObject =>
      exact compareEach_congr fun input inputMember =>
        compareInputField_of_sameOr (edit.sameOr_inputField? member named inputMember)
  | scalar | union => rfl

/-! ## Edits of schemas -/

theorem compareType_of_sameOr {expected s s' : Schema} {type : NamedType}
    (member : type ∈ expected.types)
    (looked : type.isInternal = false →
      SameOr (NamedType.Edit expected) (s.type? type.name) (s'.type? type.name)) :
    compareType s' type = compareType s type := by
  unfold compareType
  cases internal : type.isInternal with
  | true => rfl
  | false =>
      have named (found : NamedType) (some : s.type? type.name = .some found) :
          type.name = found.name :=
        (find?_eq_some_iff_firstNamed.mp some).name_eq.symm
      have looked := looked internal
      generalize s.type? type.name = before at looked named
      generalize s'.type? type.name = after at looked
      cases looked with
      | none => rfl
      | some same =>
          rcases same with rfl | edit
          · rfl
          · simp only [edit.kind_eq, compareParts_of_edit edit member (named _ rfl)]

namespace Schema

variable {expected s s' : Schema}

theorem Ignores.name_ne {other type : NamedType} (ignored : expected.Ignores other)
    (member : type ∈ expected.types) (external : type.isInternal = false) :
    other.name ≠ type.name := by
  intro same
  rcases ignored with internal | absent
  · rw [NamedType.isInternal, same] at internal
    exact Bool.false_ne_true (external.symm.trans internal)
  · rw [same] at absent
    exact absent (List.mem_map_of_mem member)

/-- Type names being unique, it does not matter in which order the types are stored. -/
theorem type?_eq_of_perm {types : List NamedType} (distinct : s.Distinct)
    (moved : s.types.Perm types) (name : String) :
    type? { s with types := types } name = s.type? name := by
  have distinct' : (types.map NamedType.name).Nodup := (moved.map NamedType.name).nodup distinct
  refine Option.ext fun type => ?_
  rw [type?_eq_some_iff distinct, type?_eq_some_iff distinct', moved.mem_iff]

theorem Edit.sameOr_type? (edit : Edit expected s s') (distinct : s.Distinct) {type : NamedType}
    (member : type ∈ expected.types) (external : type.isInternal = false) :
    SameOr (NamedType.Edit expected) (s.type? type.name) (s'.type? type.name) := by
  cases edit with
  | types edit =>
    exact edit.find? (fun other ignored => ignored.name_ne member external) fun _ _ =>
      NamedType.Edit.name_eq
  | remove ignored split =>
      rw [type?, split, find?_insert_of_ne (ignored.name_ne member external)]
      exact .refl _
  | permute moved =>
      rw [type?_eq_of_perm distinct moved]
      exact .refl _
  | query | mutation | subscription => exact .refl _

theorem Edit.compareRoots_eq (edit : Edit expected s s') :
    compareRoots expected s' = compareRoots expected s := by
  have unexpected : ∀ {label root}, rootProblem label none root = none := fun {_ _} => rfl
  unfold compareRoots
  cases edit with
  | types | remove | permute => rfl
  | query absent => simp only [absent, unexpected]
  | mutation absent => simp only [absent, unexpected]
  | subscription absent => simp only [absent, unexpected]

theorem Edit.compare_eq (edit : Edit expected s s') (distinct : s.Distinct) :
    expected.compare s' = expected.compare s := by
  have types :
      compareEach (compareType s') expected.types = compareEach (compareType s) expected.types :=
    compareEach_congr fun type member =>
      compareType_of_sameOr member (edit.sameOr_type? distinct member)
  simp only [Schema.compare, types, edit.compareRoots_eq]

end Schema

/-! ## Edits of snapshots -/

/-- A part in which nothing is found may be put in anywhere. -/
theorem compareEach_insert {check : α → Comparison} {part : α} (silent : check part = .ok .none)
    (before after : List α) :
    compareEach check (before ++ part :: after) = compareEach check (before ++ after) := by
  induction before with
  | nil =>
      rw [List.nil_append, List.nil_append, compareEach, silent]
      cases compareEach check after with
      | ok others => simp only [bind, Except.bind, Findings.none_append]
      | error e => rfl
  | cons first before ih => rw [List.cons_append, List.cons_append, compareEach, compareEach, ih]

theorem compareType_of_internal (actual : Schema) {type : NamedType}
    (internal : type.isInternal = true) :
    compareType actual type = .ok .none := by
  rw [compareType, if_pos internal]

namespace Snapshot

variable {expected expected' actual actual' : Snapshot}

theorem Edit.compare_eq (edit : Edit expected actual actual')
    (distinct : actual.schema.Distinct) :
    actual'.schema.Distinct ∧ expected.compare actual' = expected.compare actual := by
  cases edit with
  | schema edit distinct' => exact ⟨distinct', edit.compare_eq distinct⟩
  | metadata fetchedAt source info => exact ⟨distinct, rfl⟩

theorem HiddenEdit.compare_eq (edit : HiddenEdit expected expected') (actual : Snapshot) :
    expected'.compare actual = expected.compare actual := by
  unfold Snapshot.compare Schema.compare
  cases edit with
  | insert hidden split =>
      simp only [split, compareEach_insert (compareType_of_internal actual.schema hidden)]
      rfl
  | remove hidden split =>
      simp only [split, compareEach_insert (compareType_of_internal actual.schema hidden)]
      rfl

/-- Edits that do not touch what a snapshot expects leave the findings of a comparison with it as
they are, all six lists of them, and so do edits of the internal types that it holds. -/
theorem compare_of_edits (distinct : actual.schema.Distinct)
    (edits : Relation.ReflTransGen (Edit expected) actual actual')
    (hidden : Relation.ReflTransGen HiddenEdit expected expected') :
    expected'.compare actual' = expected.compare actual := by
  have actualSame :
      actual'.schema.Distinct ∧ expected.compare actual' = expected.compare actual := by
    induction edits with
    | refl => exact ⟨distinct, rfl⟩
    | tail _ edit ih =>
        obtain ⟨stays, same⟩ := edit.compare_eq ih.1
        exact ⟨stays, same.trans ih.2⟩
  have expectedSame : expected'.compare actual' = expected.compare actual' := by
    induction hidden with
    | refl => rfl
    | tail _ edit ih => exact (edit.compare_eq actual').trans ih
  exact expectedSame.trans actualSame.2

/-- A type of the introspection system. -/
def hiddenType : NamedType :=
  ⟨.object, "__Type", none, [], [], [], [], []⟩

/-- The small schema is held against a schema without its types `Book` and `Genre`. Then that one
gets an internal type and a root for mutations, its types change places, and its books can be
counted off; the small schema gets the internal type too. -/
theorem compare_of_edits_shelf :
    let books (args : List InputValue) : NamedType :=
      ⟨.object, "Query", none, [⟨"books", none, args, .named "Book", false, none⟩],
        [], [], [], []⟩
    let genre : InputValue := ⟨"genre", none, .named "Genre", none⟩
    let limit : InputValue := ⟨"limit", none, .named "Int", none⟩
    let known : Snapshot := ⟨.shelf, default, "", ""⟩
    let known' : Snapshot :=
      ⟨{ Schema.shelf with types := Schema.shelf.types ++ [hiddenType] }, default, "", ""⟩
    let actual : Snapshot := ⟨⟨some "Query", none, none, [books [genre]]⟩, default, "", ""⟩
    let actual' : Snapshot :=
      ⟨⟨some "Query", some "Mutation", none, [hiddenType, books [limit, genre]]⟩,
        default, "", "v2"⟩
    actual.schema.Distinct ∧ Relation.ReflTransGen (Edit known) actual actual' ∧
      Relation.ReflTransGen HiddenEdit known known' ∧
      known'.compare actual' = known.compare actual := by
  intro books genre limit known known' actual actual'
  have distinct : actual.schema.Distinct := by decide
  have mutable : Edit known actual ⟨⟨some "Query", some "Mutation", none, [books [genre]]⟩,
      default, "", ""⟩ :=
    .schema (.mutation rfl (some "Mutation")) (by decide)
  have extended : Edit known ⟨⟨some "Query", some "Mutation", none, [books [genre]]⟩, default, "",
      ""⟩ ⟨⟨some "Query", some "Mutation", none, [books [genre], hiddenType]⟩, default, "", ""⟩ :=
    .schema (.types (@ListEdit.insert _ _ _ [books [genre]] [] hiddenType (by decide)))
      (by decide)
  have swapped : Edit known ⟨⟨some "Query", some "Mutation", none, [books [genre], hiddenType]⟩,
      default, "", ""⟩ ⟨⟨some "Query", some "Mutation", none, [hiddenType, books [genre]]⟩,
      default, "", ""⟩ :=
    .schema (.permute (.swap _ _ _)) (by decide)
  have counted : Edit known ⟨⟨some "Query", some "Mutation", none, [hiddenType, books [genre]]⟩,
      default, "", ""⟩ ⟨⟨some "Query", some "Mutation", none, [hiddenType, books [limit, genre]]⟩,
      default, "", ""⟩ := by
    have field : FieldDef.Edit known.schema "Query"
        ⟨"books", none, [genre], .named "Book", false, none⟩
        ⟨"books", none, [limit, genre], .named "Book", false, none⟩ :=
      .args (@ListEdit.insert _ _ _ [] [genre] limit (by decide))
    exact .schema (.types (@ListEdit.change _ _ _ [hiddenType] [] _ _
      (.fields (@ListEdit.change _ _ _ [] [] _ _ field)))) (by decide)
  have edits : Relation.ReflTransGen (Edit known) actual actual' :=
    ((((Relation.ReflTransGen.single mutable).tail extended).tail swapped).tail counted).tail
      (.metadata _ default "" "v2")
  have hidden : Relation.ReflTransGen HiddenEdit known known' :=
    .single (.insert (by decide) (List.append_nil Schema.shelf.types).symm)
  exact ⟨distinct, edits, hidden, compare_of_edits distinct edits hidden⟩

end Snapshot

end SchemaBaseline
