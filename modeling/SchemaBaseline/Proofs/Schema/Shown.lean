import Mathlib.Data.List.Forall2
import SchemaBaseline.Proofs.Schema.Loaded

/-!
# Values that show a schema

A schema part can be written as a value in more than one way: entries come in any order, what is
absent may be left out or null, and a list without items may be null too. `TypeRef.Shown`,
`NamedType.Shown` and `Schema.Shown` say which values show a part, all of them as instances of
`Value.IsRecord`. What is shown is loaded, on the conditions that loading enforces:
`Schema.load_of_shown` needs well-formed references of at most `maxRefDepth` levels and type names
that occur once. A reference that is not well formed can be shown as well, and this is how
truncated answers of a server are described.
-/

namespace SchemaBaseline

/-! ## Records -/

/-- An object with the given entries and no others; what is said of an entry is said of what is
found under its name. -/
def Value.IsRecord (v : Value) (parts : List (String × (Option Value → Prop))) : Prop :=
  ∃ entries, v = .object entries ∧ (∀ part ∈ parts, part.2 (Entries.get? entries part.1)) ∧
    ∀ name, name ∉ parts.map Prod.fst → Entries.get? entries name = none

/-- Nothing is found, or null. -/
def IsAbsent (found : Option Value) : Prop :=
  found = none ∨ found = some .null

theorem Value.field_eq_null_iff {entries : Entries} {name : String} :
    (Value.object entries).field name = .null ↔ IsAbsent (Entries.get? entries name) := by
  rw [field, IsAbsent]
  cases Entries.get? entries name <;> simp

/-- A text is found. -/
def IsText (s : String) (found : Option Value) : Prop :=
  found = some (.text s)

/-- A text is found, or nothing if there is none. -/
def IsTextOrAbsent (s : Option String) (found : Option Value) : Prop :=
  match s with
  | some s => IsText s found
  | none => IsAbsent found

/-- A flag is found. -/
def IsFlag (b : Bool) (found : Option Value) : Prop :=
  found = some (.bool b)

/-- A value that shows a part is found. -/
def Shows (shown : Value → Prop) (found : Option Value) : Prop :=
  ∃ v, found = some v ∧ shown v

/-- A list that shows parts one by one is found. -/
def ShowsList {α : Type} (shown : α → Value → Prop) (parts : List α) (found : Option Value) :
    Prop :=
  ∃ items, found = some (.list items) ∧ List.Forall₂ shown parts items

/-- A list that shows parts one by one is found; if there are no parts, it may be absent. -/
def ShowsEach {α : Type} (shown : α → Value → Prop) (parts : List α) (found : Option Value) :
    Prop :=
  (parts = [] ∧ IsAbsent found) ∨ ShowsList shown parts found

namespace Entries

variable {entries : Entries} {name second : String}

theorem required_of_get? {α : Type} {load : Value → Checked α} {v : Value} {part : α}
    (found : get? entries name = some v) (ok : load v = .ok part) :
    required entries name second load = .ok part := by
  rw [required, either?, found, Option.some_or]
  simp only [ok, Checked.under_ok]

theorem optional_of_get? {α : Type} {load : Value → Checked α} {default : α} {v : Value}
    {part : α} (found : get? entries name = some v) (ok : load v = .ok part) :
    optional entries name second default load = .ok part := by
  rw [optional, either?, found, Option.some_or]
  simp only [ok, Checked.under_ok]

/-- Null and no entry both stand for the default, provided that the second spelling is not used
instead. -/
theorem optional_of_absent {α : Type} {load : Value → Checked α} {default : α}
    (absent : IsAbsent (get? entries name)) (unused : second = name ∨ get? entries second = none)
    (null : load .null = .ok default) :
    optional entries name second default load = .ok default := by
  rcases absent with none | found
  · have unused : get? entries second = Option.none := by
      rcases unused with rfl | unused
      · exact none
      · exact unused
    rw [optional, either?, none, unused, Option.none_or]
  · exact optional_of_get? found null

theorem required_text {s : String} (found : IsText s (get? entries name)) :
    required entries name second Value.loadText = .ok s :=
  required_of_get? found rfl

theorem optional_text {s : Option String} (found : IsTextOrAbsent s (get? entries name))
    (unused : second = name ∨ get? entries second = none) :
    optional entries name second none Value.loadTextOrNull = .ok s := by
  cases s with
  | none => exact optional_of_absent found unused rfl
  | some s => exact optional_of_get? found rfl

theorem optional_flag {b : Bool} (found : IsFlag b (get? entries name)) :
    optional entries name second false Value.loadFlag = .ok b :=
  optional_of_get? found rfl

end Entries

theorem Checked.ofItems_of_shown {α : Type} {load : Value → Checked α} {shown : α → Value → Prop}
    {parts : List α} {items : List Value} (i : Nat)
    (each : ∀ part ∈ parts, ∀ v, shown part v → load v = .ok part)
    (shows : List.Forall₂ shown parts items) : Checked.ofItems load i items = .ok parts := by
  induction shows generalizing i with
  | nil => rfl
  | @cons part item parts items first _ ih =>
      have head := each part List.mem_cons_self item first
      have tail := ih (i + 1) fun other member => each other (List.mem_cons_of_mem _ member)
      simp only [Checked.ofItems, head, tail, Checked.under_ok, Checked.map_ok,
        Checked.apply_ok_ok]

theorem Entries.optional_each {entries : Entries} {name second : String} {α : Type}
    {load : Value → Checked α} {shown : α → Value → Prop} {parts : List α}
    (found : ShowsEach shown parts (get? entries name))
    (unused : second = name ∨ get? entries second = none)
    (each : ∀ part ∈ parts, ∀ v, shown part v → load v = .ok part) :
    optional entries name second [] (Value.loadChildren load) = .ok parts := by
  rcases found with ⟨rfl, absent⟩ | ⟨items, found, shows⟩
  · exact optional_of_absent absent unused rfl
  · exact optional_of_get? found (Checked.ofItems_of_shown 0 each shows)

/-! ## References -/

/-- The label of the kind of a node is found. Named types go by labels of their own kinds. -/
def RefKind.ShownBy (kind : RefKind) (found : Option Value) : Prop :=
  match kind with
  | .named => ∃ label, IsText label found ∧ label ≠ "LIST" ∧ label ≠ "NON_NULL"
  | kind => IsTextOrAbsent kind.label found

/-- A value shows a reference, node by node. -/
def TypeRef.Shown : TypeRef → Value → Prop
  | .leaf kind name, v =>
    v.IsRecord [("kind", kind.ShownBy), ("name", IsTextOrAbsent name), ("ofType", IsAbsent)]
  | .wrap kind name inner, v =>
    v.IsRecord [("kind", kind.ShownBy), ("name", IsTextOrAbsent name),
      ("ofType", Shows inner.Shown)]

theorem TypeRef.Shown.exists_object {ref : TypeRef} {v : Value} (shown : ref.Shown v) :
    ∃ entries, v = .object entries := by
  cases ref with
  | leaf kind name =>
      obtain ⟨entries, rfl, -⟩ := shown
      exact ⟨entries, rfl⟩
  | wrap kind name inner =>
      obtain ⟨entries, rfl, -⟩ := shown
      exact ⟨entries, rfl⟩

/-- References that loading accepts: well formed, and not nested too deep. -/
def TypeRef.Storable (ref : TypeRef) : Prop :=
  ref.WellFormed ∧ ref.depth ≤ maxRefDepth

namespace TypeRef

theorem required_kind {entries : Entries} {kind : RefKind}
    (known : kind = .named ∨ kind.isWrapper = true)
    (shown : kind.ShownBy (Entries.get? entries "kind")) :
    Entries.required entries "kind" "kind" loadKind = .ok kind := by
  cases kind with
  | named =>
      obtain ⟨label, found, notList, notNonNull⟩ := shown
      refine Entries.required_of_get? found ?_
      unfold loadKind
      split
      · rename_i same
        exact absurd (Value.text.inj same) notNonNull
      · rename_i same
        exact absurd (Value.text.inj same) notList
      · rfl
      · rfl
      · rename_i notText _
        exact absurd rfl (notText label)
  | nonNull => exact Entries.required_of_get? shown rfl
  | list => exact Entries.required_of_get? shown rfl
  | other label => simp [RefKind.isWrapper] at known

/-- A well-formed reference is loaded from a value that shows it, if it has no more nodes than the
limit allows. -/
theorem WellFormed.loadWithin_of_shown {limit : Nat} {ref : TypeRef} {v : Value}
    (wf : ref.WellFormed) (shallow : ref.depth ≤ limit) (shown : ref.Shown v) :
    loadWithin limit v = .ok ref := by
  induction wf generalizing limit v with
  | @named name nonempty =>
      obtain ⟨limit, rfl⟩ : ∃ n, limit = n + 1 :=
        ⟨limit - 1, by simp only [depth] at shallow; omega⟩
      obtain ⟨entries, rfl, parts, others⟩ := shown
      simp only [List.forall_mem_cons] at parts
      obtain ⟨kindShown, nameFound, innerAbsent, -⟩ := parts
      have kindOk : Entries.required entries "kind" "kind" loadKind = .ok .named :=
        required_kind (.inl rfl) kindShown
      have nameOk :
          Entries.optional entries "name" "name" none Value.loadTextOrNull = .ok (some name) :=
        Entries.optional_text nameFound (.inl rfl)
      have innerOk : Entries.optional entries "ofType" "of_type" none
          (loadInner (loadWithin limit)) = .ok none :=
        Entries.optional_of_absent innerAbsent (.inr (others "of_type" (by simp))) rfl
      have shaped : checkShape (.named, some name, none) = .ok (.leaf .named (some name)) := by
        simp [checkShape, shapeProblem?, nonempty, ofParts]
      simp only [loadWithin, Value.entries?, kindOk, nameOk, innerOk, Checked.map_ok,
        Checked.apply_ok_ok, Checked.andThen_ok, shaped]
  | @wrap kind name inner wrapper _ ih =>
      obtain ⟨limit, rfl⟩ : ∃ n, limit = n + 1 :=
        ⟨limit - 1, by simp only [depth] at shallow; omega⟩
      obtain ⟨entries, rfl, parts, -⟩ := shown
      simp only [List.forall_mem_cons] at parts
      obtain ⟨kindShown, nameFound, ⟨w, innerFound, innerShown⟩, -⟩ := parts
      have kindOk : Entries.required entries "kind" "kind" loadKind = .ok kind :=
        required_kind (.inr wrapper) kindShown
      have nameOk : Entries.optional entries "name" "name" none Value.loadTextOrNull = .ok name :=
        Entries.optional_text nameFound (.inl rfl)
      have loaded : loadWithin limit w = .ok inner :=
        ih (by simp only [depth] at shallow; omega) innerShown
      have innerOk : Entries.optional entries "ofType" "of_type" none
          (loadInner (loadWithin limit)) = .ok (some inner) := by
        refine Entries.optional_of_get? innerFound ?_
        cases w with
        | null => cases limit <;> cases loaded
        | _ => rw [loadInner, loaded, Checked.map_ok]; simp
      have shaped : checkShape (kind, name, some inner) = .ok (.wrap kind name inner) := by
        cases kind <;> simp [RefKind.isWrapper] at wrapper <;> rfl
      simp only [loadWithin, Value.entries?, kindOk, nameOk, innerOk, Checked.map_ok,
        Checked.apply_ok_ok, Checked.andThen_ok, shaped]

theorem Storable.load_of_shown {ref : TypeRef} {v : Value} (storable : ref.Storable)
    (shown : ref.Shown v) :
    TypeRef.load v = .ok ref :=
  storable.1.loadWithin_of_shown storable.2 shown

end TypeRef

/-! ## Types -/

/-- A value shows an argument or input field. -/
def InputValue.Shown (input : InputValue) (v : Value) : Prop :=
  v.IsRecord [("name", IsText input.name), ("description", IsTextOrAbsent input.description),
    ("type", Shows input.type.Shown), ("defaultValue", IsTextOrAbsent input.defaultValue)]

/-- A value shows a field. -/
def FieldDef.Shown (field : FieldDef) (v : Value) : Prop :=
  v.IsRecord [("name", IsText field.name), ("description", IsTextOrAbsent field.description),
    ("args", ShowsEach InputValue.Shown field.args), ("type", Shows field.type.Shown),
    ("isDeprecated", IsFlag field.isDeprecated),
    ("deprecationReason", IsTextOrAbsent field.deprecationReason)]

/-- A value shows an enumeration value. -/
def EnumValue.Shown (value : EnumValue) (v : Value) : Prop :=
  v.IsRecord [("name", IsText value.name), ("description", IsTextOrAbsent value.description),
    ("isDeprecated", IsFlag value.isDeprecated),
      ("deprecationReason", IsTextOrAbsent value.deprecationReason)]

/-- A value shows a named type. -/
def NamedType.Shown (type : NamedType) (v : Value) : Prop :=
  v.IsRecord [("kind", IsText type.kind.label), ("name", IsText type.name),
    ("description", IsTextOrAbsent type.description),
    ("fields", ShowsEach FieldDef.Shown type.fields),
    ("inputFields", ShowsEach InputValue.Shown type.inputFields),
    ("interfaces", ShowsEach TypeRef.Shown type.interfaces),
    ("enumValues", ShowsEach EnumValue.Shown type.enumValues),
    ("possibleTypes", ShowsEach TypeRef.Shown type.possibleTypes)]

theorem InputValue.load_of_shown {input : InputValue} {v : Value} (storable : input.type.Storable)
    (shown : input.Shown v) : InputValue.load v = .ok input := by
  obtain ⟨entries, rfl, parts, others⟩ := shown
  simp only [List.forall_mem_cons] at parts
  obtain ⟨name, description, ⟨w, found, typeShown⟩, defaultValue, -⟩ := parts
  have type : Entries.required entries "type" "type" TypeRef.load = .ok input.type :=
    Entries.required_of_get? found (storable.load_of_shown typeShown)
  simp only [InputValue.load, Value.entries?, Entries.required_text name,
    Entries.optional_text description (.inl rfl), type, Entries.optional_text defaultValue
    (.inr (others "default_value" (by simp))), Checked.map_ok, Checked.apply_ok_ok]

theorem FieldDef.load_of_shown {field : FieldDef} {v : Value} (storable : field.type.Storable)
    (argsStorable : ∀ arg ∈ field.args, arg.type.Storable) (shown : field.Shown v) :
    FieldDef.load v = .ok field := by
  obtain ⟨entries, rfl, parts, others⟩ := shown
  simp only [List.forall_mem_cons] at parts
  obtain ⟨name, description, args, ⟨w, found, typeShown⟩, deprecated, reason, -⟩ := parts
  have type : Entries.required entries "type" "type" TypeRef.load = .ok field.type :=
    Entries.required_of_get? found (storable.load_of_shown typeShown)
  have args : Entries.optional entries "args" "args" [] (Value.loadChildren InputValue.load) =
      .ok field.args :=
    Entries.optional_each args (.inl rfl) fun arg member _ =>
      InputValue.load_of_shown (argsStorable arg member)
  simp only [FieldDef.load, Value.entries?, Entries.required_text name,
    Entries.optional_text description (.inl rfl), args, type, Entries.optional_flag deprecated,
    Entries.optional_text reason (.inr (others "deprecation_reason" (by simp))), Checked.map_ok,
    Checked.apply_ok_ok]

theorem EnumValue.load_of_shown {value : EnumValue} {v : Value} (shown : value.Shown v) :
    EnumValue.load v = .ok value := by
  obtain ⟨entries, rfl, parts, others⟩ := shown
  simp only [List.forall_mem_cons] at parts
  obtain ⟨name, description, deprecated, reason, -⟩ := parts
  simp only [EnumValue.load, Value.entries?, Entries.required_text name,
    Entries.optional_text description (.inl rfl), Entries.optional_flag deprecated,
    Entries.optional_text reason (.inr (others "deprecation_reason" (by simp))), Checked.map_ok,
    Checked.apply_ok_ok]

theorem TypeKind.load_label (kind : TypeKind) : TypeKind.load (.text kind.label) = .ok kind := by
  cases kind <;> rfl

/-- A named type is loaded from a value that shows it, if all its references can be. -/
theorem NamedType.load_of_shown {type : NamedType} {v : Value}
    (storable : ∀ ref ∈ type.refs, ref.Storable) (shown : type.Shown v) :
    NamedType.load v = .ok type := by
  obtain ⟨entries, rfl, parts, others⟩ := shown
  simp only [List.forall_mem_cons] at parts
  obtain ⟨kind, name, description, fields, inputs, interfaces, values, members, -⟩ := parts
  simp only [NamedType.refs, List.mem_append, List.mem_flatMap, List.mem_cons, List.mem_map]
    at storable
  have kind : Entries.required entries "kind" "kind" TypeKind.load = .ok type.kind :=
    Entries.required_of_get? kind (TypeKind.load_label type.kind)
  have fields : Entries.optional entries "fields" "fields" [] (Value.loadChildren FieldDef.load) =
      .ok type.fields :=
    Entries.optional_each fields (.inl rfl) fun field member _ => FieldDef.load_of_shown
      (storable _ (.inl (.inl (.inl ⟨field, member, .inl rfl⟩))))
      (fun arg argMember => storable _
        (.inl (.inl (.inl ⟨field, member, .inr ⟨arg, argMember, rfl⟩⟩))))
  have inputs : Entries.optional entries "inputFields" "input_fields" []
      (Value.loadChildren InputValue.load) = .ok type.inputFields :=
    Entries.optional_each inputs (.inr (others "input_fields" (by simp))) fun input member _ =>
      InputValue.load_of_shown (storable _ (.inl (.inl (.inr ⟨input, member, rfl⟩))))
  have interfaces : Entries.optional entries "interfaces" "interfaces" []
      (Value.loadChildren TypeRef.load) = .ok type.interfaces :=
    Entries.optional_each interfaces (.inl rfl) fun ref member _ =>
      (storable ref (.inl (.inr member))).load_of_shown
  have values : Entries.optional entries "enumValues" "enum_values" []
      (Value.loadChildren EnumValue.load) = .ok type.enumValues :=
    Entries.optional_each values (.inr (others "enum_values" (by simp))) fun _ _ _ =>
      EnumValue.load_of_shown
  have members : Entries.optional entries "possibleTypes" "possible_types" []
      (Value.loadChildren TypeRef.load) = .ok type.possibleTypes :=
    Entries.optional_each members (.inr (others "possible_types" (by simp))) fun ref member _ =>
      (storable ref (.inr member)).load_of_shown
  simp only [NamedType.load, Value.entries?, kind, Entries.required_text name,
    Entries.optional_text description (.inl rfl), fields, inputs, interfaces, values, members,
    Checked.map_ok, Checked.apply_ok_ok]

/-! ## Schemas -/

/-- The name of a root operation type is found in an object of its own, or nothing if there is
none. -/
def ShowsRoot (root : Option String) (found : Option Value) : Prop :=
  match root with
  | some name => Shows (·.IsRecord [("name", IsText name)]) found
  | none => IsAbsent found

/-- A value shows a schema, whose types are always a list. -/
def Schema.Shown (schema : Schema) (v : Value) : Prop :=
  v.IsRecord [("queryType", ShowsRoot schema.queryType),
    ("mutationType", ShowsRoot schema.mutationType),
    ("subscriptionType", ShowsRoot schema.subscriptionType),
    ("types", ShowsList NamedType.Shown schema.types)]

theorem Entries.optional_root {entries : Entries} {name second : String} {root : Option String}
    (found : ShowsRoot root (get? entries name)) (unused : get? entries second = none) :
    optional entries name second none Schema.loadRoot = .ok root := by
  cases root with
  | none => exact optional_of_absent found (.inr unused) rfl
  | some root =>
      obtain ⟨v, found, entries, rfl, parts, -⟩ := found
      simp only [List.forall_mem_cons] at parts
      refine optional_of_get? found ?_
      simp only [Schema.loadRoot, Value.entries?, required_text parts.1, Checked.map_ok]

theorem Schema.Sound.storable {schema : Schema} (sound : schema.Sound)
    (shallow : ∀ ref ∈ schema.refs, ref.depth ≤ maxRefDepth) {type : NamedType}
    (member : type ∈ schema.types) :
    ∀ ref ∈ type.refs, ref.Storable := by
  intro ref refMember
  have inSchema : ref ∈ schema.refs := List.mem_flatMap.mpr ⟨type, member, refMember⟩
  exact ⟨sound.refs_wellFormed ref inSchema, shallow ref inSchema⟩

/-- A sound schema without references nested too deep is loaded from every value that shows it. -/
theorem Schema.Sound.load_of_shown {schema : Schema} {v : Value} (sound : schema.Sound)
    (shallow : ∀ ref ∈ schema.refs, ref.depth ≤ maxRefDepth) (shown : schema.Shown v) :
    Schema.load v = .ok schema := by
  obtain ⟨entries, rfl, parts, others⟩ := shown
  simp only [List.forall_mem_cons] at parts
  obtain ⟨query, mutation, subscription, types, -⟩ := parts
  have types : Entries.optional entries "types" "types" [] (Value.loadChildren NamedType.load) =
      .ok schema.types :=
    Entries.optional_each (.inr types) (.inl rfl) fun type member _ =>
      NamedType.load_of_shown (sound.storable shallow member)
  have names : Schema.checkNames schema = .ok schema := by
    have fresh : firstRepeated [] (schema.types.map NamedType.name) = none :=
      firstRepeated_eq_none_iff.mpr ⟨sound.names_unique, by simp⟩
    rw [Schema.checkNames, fresh]
  simp only [Schema.load, Value.entries?,
    Entries.optional_root query (others "query_type" (by simp)),
    Entries.optional_root mutation (others "mutation_type" (by simp)),
    Entries.optional_root subscription (others "subscription_type" (by simp)), types,
    Checked.map_ok, Checked.apply_ok_ok, Checked.andThen_ok]
  exact names

/-- A snapshot is loaded from its four entries once the schema and the time are. -/
theorem Snapshot.load_of_entries {entries : Entries} {schema : Schema} {v w : Value}
    {fetched : Time.Stamp} {source info : String} (now : Time.Stamp)
    (schemaFound : Entries.get? entries "__schema" = some v)
    (schemaOk : Schema.load v = .ok schema)
    (fetchedFound : Entries.get? entries "fetchedAt" = some w)
    (fetchedOk : Value.loadStamp w = .ok fetched)
    (sourceFound : IsText source (Entries.get? entries "serverUrl"))
    (infoFound : IsText info (Entries.get? entries "serverInfo")) :
    Snapshot.load now (.object entries) = .ok ⟨schema, fetched, source, info⟩ := by
  have schemaOk : Entries.required entries "__schema" "schema_" Schema.load = .ok schema :=
    Entries.required_of_get? schemaFound schemaOk
  have fetchedOk :
      Entries.optional entries "fetchedAt" "fetched_at" now Value.loadStamp = .ok fetched :=
    Entries.optional_of_get? fetchedFound fetchedOk
  have sourceOk :
      Entries.optional entries "serverUrl" "source_identifier" "" Value.loadText = .ok source :=
    Entries.optional_of_get? sourceFound rfl
  have infoOk :
      Entries.optional entries "serverInfo" "source_info" "" Value.loadText = .ok info :=
    Entries.optional_of_get? infoFound rfl
  simp only [Snapshot.load, Value.entries?, schemaOk, fetchedOk, sourceOk, infoOk, Checked.map_ok,
    Checked.apply_ok_ok]

end SchemaBaseline
