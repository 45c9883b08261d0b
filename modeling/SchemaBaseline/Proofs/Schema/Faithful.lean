import SchemaBaseline.Proofs.Time.RoundTrip
import SchemaBaseline.Proofs.Yaml.RoundTrip
import SchemaBaseline.Schema.Dump

/-!
# What YAML keeps of schemas

The value of a schema part is one that YAML holds as it is (`Yaml.Faithful`) if its texts are: no
text that stands in single quotes holds a next-line character, and what is indented beyond the
width of a line has no blank behind an escape. Only type references are ever indented so far, one
step for each of their levels; the deepest are those of arguments.
-/

namespace SchemaBaseline

open Yaml (Faithful Keeps fitsSingle hasBlankBehindEscape isPlainName indentStep lineWidth)

/-! ## The texts of a schema -/

/-- The names in a reference, outermost first. -/
def TypeRef.names : TypeRef → List String
  | .leaf _ name => name.toList
  | .wrap _ name inner => name.toList ++ inner.names

/-- The names in a reference below a number of levels. -/
def TypeRef.namesBelow : Nat → TypeRef → List String
  | 0, ref => ref.names
  | _ + 1, .leaf _ _ => []
  | n + 1, .wrap _ _ inner => inner.namesBelow n

def InputValue.texts (input : InputValue) : List String :=
  input.name :: (input.description.toList ++ input.type.names ++ input.defaultValue.toList)

def FieldDef.texts (field : FieldDef) : List String :=
  field.name :: (field.description.toList ++ field.args.flatMap InputValue.texts ++
    field.type.names ++
    field.deprecationReason.toList)

def EnumValue.texts (value : EnumValue) : List String :=
  value.name :: (value.description.toList ++ value.deprecationReason.toList)

def NamedType.texts (type : NamedType) : List String :=
  type.name :: (type.description.toList ++ type.fields.flatMap FieldDef.texts ++
    type.inputFields.flatMap InputValue.texts ++ type.interfaces.flatMap TypeRef.names ++
    type.enumValues.flatMap EnumValue.texts ++ type.possibleTypes.flatMap TypeRef.names)

def Schema.texts (schema : Schema) : List String :=
  schema.queryType.toList ++ schema.mutationType.toList ++ schema.subscriptionType.toList ++
    schema.types.flatMap NamedType.texts

/-- Every text of a snapshot that the server or the user chose. -/
def Snapshot.texts (s : Snapshot) : List String :=
  s.source :: s.info :: s.schema.texts

/-! ## Texts that are kept -/

/-- A text in which no next-line character stands in single quotes. -/
def KeepsLines (s : String) : Prop :=
  fitsSingle s.toList = true → '\x85' ∉ s.toList

/-- A text in double quotes without a blank behind an escape. -/
def KeepsBlanks (s : String) : Prop :=
  fitsSingle s.toList = false → hasBlankBehindEscape s.toList = false

instance (s : String) : Decidable (KeepsLines s) :=
  inferInstanceAs (Decidable (_ → _))

instance (s : String) : Decidable (KeepsBlanks s) :=
  inferInstanceAs (Decidable (_ → _))

theorem faithful_text {indent : Nat} {s : String} (lines : KeepsLines s)
    (blanks : indent + indentStep < lineWidth ∨ KeepsBlanks s) : Faithful indent (.text s) :=
  .text ⟨lines, fun double => blanks.imp_right fun keeps => keeps double⟩

theorem faithful_textOrNull {indent : Nat} {s : Option String}
    (lines : ∀ t ∈ s.toList, KeepsLines t)
    (blanks : indent + indentStep < lineWidth ∨ ∀ t ∈ s.toList, KeepsBlanks t) :
    Faithful indent (.ofTextOrNull s) := by
  cases s with
  | none => exact .null
  | some s =>
      exact faithful_text (lines s (List.mem_singleton_self s))
        (blanks.imp_right fun each => each s (List.mem_singleton_self s))

/-- The names of all fields of schema parts. -/
def fieldNames : List String := [
  "__schema", "fetchedAt", "serverUrl", "serverInfo", "queryType", "mutationType",
  "subscriptionType", "types", "kind", "name", "ofType", "description", "type", "defaultValue",
  "args", "isDeprecated", "deprecationReason", "fields", "inputFields", "interfaces",
  "enumValues", "possibleTypes"]

theorem plainNames {entries : Entries} (names : entries.map Prod.fst ⊆ fieldNames) :
    ∀ entry ∈ entries, isPlainName entry.1.toList = true := by
  have all : ∀ name ∈ fieldNames, isPlainName name.toList = true := by decide +kernel
  exact fun entry member => all entry.1 (names (List.mem_map_of_mem member))

/-- A record of schema parts under the names of fields. -/
theorem faithful_record {indent : Nat} {entries : Entries} (full : entries ≠ [])
    (distinct : (entries.map Prod.fst).Nodup) (names : entries.map Prod.fst ⊆ fieldNames)
    (each : ∀ entry ∈ entries, Faithful (indent + indentStep) entry.2) :
    Faithful indent (.object entries) :=
  .object full distinct (plainNames names) each

theorem faithful_list {α : Type} {indent : Nat} {toValue : α → Value} {parts : List α}
    (records : ∀ part, ∃ entries, toValue part = .object entries)
    (each : ∀ part ∈ parts, Faithful indent (toValue part)) :
    Faithful indent (.list (parts.map toValue)) := by
  refine .list (fun v member => ?_) fun v member => ?_
  · obtain ⟨part, _, rfl⟩ := List.mem_map.mp member
    exact records part
  · obtain ⟨part, inParts, rfl⟩ := List.mem_map.mp member
    exact each part inParts

/-! ## References -/

/-- A reference that means something, whose names keep their blanks where they are indented beyond
the width of a line. -/
structure TypeRef.Kept (ref : TypeRef) : Prop where
  wellFormed : ref.WellFormed
  blanks : ∀ t ∈ ref.namesBelow 34, KeepsBlanks t

theorem faithful_label {indent : Nat} {kind : RefKind}
    (known : kind = .named ∨ kind.isWrapper = true) :
    Faithful indent (.ofTextOrNull kind.label) := by
  have label : ∀ t ∈ kind.label.toList, KeepsLines t ∧ KeepsBlanks t := by
    cases kind with
    | other label => rcases known with same | wrapper <;> contradiction
    | _ => decide +kernel
  exact faithful_textOrNull (fun t member => (label t member).1)
    (.inr fun t member => (label t member).2)

/-- Each level of a reference is indented one step further, so only the names below some level are
indented far. -/
theorem TypeRef.faithful_toValue {ref : TypeRef} {indent n : Nat} (wellFormed : ref.WellFormed)
    (lines : ∀ t ∈ ref.names, KeepsLines t) (blanks : ∀ t ∈ ref.namesBelow n, KeepsBlanks t)
    (near : ∀ level < n, indent + 2 * level + 4 < lineWidth) : Faithful indent ref.toValue := by
  have step : indentStep = 2 := rfl
  induction wellFormed generalizing indent n with
  | @named name nonempty =>
      refine faithful_record (by simp) (by simp) (by simp [fieldNames]) ?_
      simp only [List.forall_mem_cons]
      refine ⟨faithful_label (.inl rfl), faithful_textOrNull lines ?_, .null,
        List.forall_mem_nil _⟩
      cases n with
      | zero => exact .inr blanks
      | succ n => exact .inl (near 0 (Nat.succ_pos n))
  | @wrap kind name inner wrapper _ ih =>
      rw [names, List.forall_mem_append] at lines
      refine faithful_record (by simp) (by simp) (by simp [fieldNames]) ?_
      simp only [List.forall_mem_cons]
      cases n with
      | zero =>
          rw [namesBelow, names, List.forall_mem_append] at blanks
          have later : Faithful (indent + indentStep) inner.toValue :=
            ih (n := 0) lines.2 blanks.2 fun _ none => nomatch none
          exact ⟨faithful_label (.inr wrapper), faithful_textOrNull lines.1 (.inr blanks.1),
            later, List.forall_mem_nil _⟩
      | succ n =>
          have later : Faithful (indent + indentStep) inner.toValue :=
            ih lines.2 blanks fun level below => by
            have := near (level + 1) (Nat.succ_lt_succ below)
            omega
          exact ⟨faithful_label (.inr wrapper),
            faithful_textOrNull lines.1 (.inl (near 0 (Nat.succ_pos n))), later,
            List.forall_mem_nil _⟩

theorem TypeRef.Kept.faithful {ref : TypeRef} {indent : Nat} (kept : ref.Kept)
    (lines : ∀ t ∈ ref.names, KeepsLines t) (shallow : indent ≤ 8) :
    Faithful indent ref.toValue := by
  refine TypeRef.faithful_toValue kept.wellFormed lines kept.blanks fun level below => ?_
  have width : lineWidth = 80 := rfl
  omega

theorem TypeRef.toValue_object (ref : TypeRef) : ∃ entries, ref.toValue = .object entries := by
  cases ref <;> exact ⟨_, rfl⟩

/-! ## Parts of a schema -/

section Parts

variable {indent : Nat}

/-- The texts of a part that is not indented far. -/
theorem faithful_near {s : String} (lines : KeepsLines s) (near : indent ≤ 10) :
    Faithful indent (.text s) :=
  faithful_text lines (.inl (Nat.lt_of_le_of_lt (Nat.add_le_add_right near _) (by decide)))

theorem faithful_nearOrNull {s : Option String} (lines : ∀ t ∈ s.toList, KeepsLines t)
    (near : indent ≤ 10) :
    Faithful indent (.ofTextOrNull s) :=
  faithful_textOrNull lines (.inl (Nat.lt_of_le_of_lt (Nat.add_le_add_right near _) (by decide)))

theorem InputValue.faithful_toValue {input : InputValue} (near : indent ≤ 6)
    (kept : input.type.Kept) (lines : ∀ t ∈ input.texts, KeepsLines t) :
    Faithful indent input.toValue := by
  have step : indentStep = 2 := rfl
  simp only [texts, List.forall_mem_cons, List.forall_mem_append] at lines
  obtain ⟨name, ⟨description, type⟩, defaultValue⟩ := lines
  refine faithful_record (by simp) (by simp) (by simp [fieldNames]) ?_
  simp only [List.forall_mem_cons]
  exact ⟨faithful_near name (by omega), faithful_nearOrNull description (by omega),
    kept.faithful type (by omega), faithful_nearOrNull defaultValue (by omega),
    List.forall_mem_nil _⟩

theorem FieldDef.faithful_toValue {field : FieldDef} (near : indent ≤ 4)
    (kept : ∀ ref ∈ field.type :: field.args.map InputValue.type, ref.Kept)
    (lines : ∀ t ∈ field.texts, KeepsLines t) :
    Faithful indent field.toValue := by
  have step : indentStep = 2 := rfl
  simp only [texts, List.forall_mem_cons, List.forall_mem_append, List.forall_mem_flatMap]
    at lines
  obtain ⟨name, ⟨⟨description, args⟩, type⟩, reason⟩ := lines
  rw [List.forall_mem_cons] at kept
  have faithfulArgs :
      Faithful (indent + indentStep) (.list (field.args.map InputValue.toValue)) := by
    refine faithful_list (fun _ => ⟨_, rfl⟩) fun arg member => ?_
    exact InputValue.faithful_toValue (by omega) (kept.2 _ (List.mem_map_of_mem member))
      (args arg member)
  refine faithful_record (by simp) (by simp) (by simp [fieldNames]) ?_
  simp only [List.forall_mem_cons]
  exact ⟨faithful_near name (by omega), faithful_nearOrNull description (by omega), faithfulArgs,
    kept.1.faithful type (by omega), .bool _, faithful_nearOrNull reason (by omega),
    List.forall_mem_nil _⟩

theorem EnumValue.faithful_toValue {value : EnumValue} (near : indent ≤ 4)
    (lines : ∀ t ∈ value.texts, KeepsLines t) :
    Faithful indent value.toValue := by
  have step : indentStep = 2 := rfl
  simp only [texts, List.forall_mem_cons, List.forall_mem_append] at lines
  obtain ⟨name, description, reason⟩ := lines
  refine faithful_record (by simp) (by simp) (by simp [fieldNames]) ?_
  simp only [List.forall_mem_cons]
  exact ⟨faithful_near name (by omega), faithful_nearOrNull description (by omega), .bool _,
    faithful_nearOrNull reason (by omega), List.forall_mem_nil _⟩

theorem faithful_refs {refs : List TypeRef} (near : indent ≤ 8) (kept : ∀ ref ∈ refs, ref.Kept)
    (lines : ∀ ref ∈ refs, ∀ t ∈ ref.names, KeepsLines t) :
    Faithful indent (.list (refs.map TypeRef.toValue)) :=
  faithful_list TypeRef.toValue_object fun ref member =>
    (kept ref member).faithful (lines ref member) near

theorem faithful_kind (kind : TypeKind) : Faithful indent (.text kind.label) := by
  have label : KeepsLines kind.label ∧ KeepsBlanks kind.label := by
    cases kind <;> decide +kernel
  exact faithful_text label.1 (.inr label.2)

theorem NamedType.faithful_toValue {type : NamedType} (near : indent ≤ 2)
    (kept : ∀ ref ∈ type.refs, ref.Kept) (lines : ∀ t ∈ type.texts, KeepsLines t) :
    Faithful indent type.toValue := by
  have step : indentStep = 2 := rfl
  simp only [texts, List.forall_mem_cons, List.forall_mem_append, List.forall_mem_flatMap]
    at lines
  obtain ⟨name, ⟨⟨⟨⟨description, fields⟩, inputFields⟩, interfaces⟩, enumValues⟩,
      possibleTypes⟩ := lines
  simp only [refs, List.forall_mem_append, List.forall_mem_flatMap] at kept
  obtain ⟨⟨⟨keptFields, keptInputs⟩, keptInterfaces⟩, keptMembers⟩ := kept
  have faithfulFields :
      Faithful (indent + indentStep) (.list (type.fields.map FieldDef.toValue)) :=
    faithful_list (fun _ => ⟨_, rfl⟩) fun field member =>
      FieldDef.faithful_toValue (by omega) (keptFields field member) (fields field member)
  have faithfulInputs :
      Faithful (indent + indentStep) (.list (type.inputFields.map InputValue.toValue)) :=
    faithful_list (fun _ => ⟨_, rfl⟩) fun input member =>
      InputValue.faithful_toValue (by omega) (keptInputs _ (List.mem_map_of_mem member))
        (inputFields input member)
  have faithfulValues :
      Faithful (indent + indentStep) (.list (type.enumValues.map EnumValue.toValue)) :=
    faithful_list (fun _ => ⟨_, rfl⟩) fun value member =>
      EnumValue.faithful_toValue (by omega) (enumValues value member)
  refine faithful_record (by simp) (by simp) (by simp [fieldNames]) ?_
  simp only [List.forall_mem_cons]
  exact ⟨faithful_kind _, faithful_near name (by omega),
    faithful_nearOrNull description (by omega), faithfulFields, faithfulInputs,
    faithful_refs (by omega) keptInterfaces interfaces, faithfulValues,
    faithful_refs (by omega) keptMembers possibleTypes, List.forall_mem_nil _⟩

theorem faithful_rootValue {root : Option String} (near : indent ≤ 8)
    (lines : ∀ t ∈ root.toList, KeepsLines t) :
    Faithful indent (Schema.rootValue root) := by
  have step : indentStep = 2 := rfl
  cases root with
  | none => exact .null
  | some name =>
      refine faithful_record (by simp) (by simp) (by simp [fieldNames]) ?_
      simp only [List.forall_mem_cons]
      exact ⟨faithful_near (lines name (List.mem_singleton_self name)) (by omega),
        List.forall_mem_nil _⟩

theorem Schema.faithful_toValue {schema : Schema} (kept : ∀ ref ∈ schema.refs, ref.Kept)
    (lines : ∀ t ∈ schema.texts, KeepsLines t) : Faithful 0 schema.toValue := by
  simp only [texts, List.forall_mem_append, List.forall_mem_flatMap] at lines
  obtain ⟨⟨⟨query, mutation⟩, subscription⟩, types⟩ := lines
  rw [refs, List.forall_mem_flatMap] at kept
  have faithfulTypes : Faithful indentStep (.list (schema.types.map NamedType.toValue)) :=
    faithful_list (fun _ => ⟨_, rfl⟩) fun type member =>
      NamedType.faithful_toValue (Nat.le_refl _) (kept type member) (types type member)
  refine faithful_record (by simp) (by simp) (by simp [fieldNames]) ?_
  simp only [List.forall_mem_cons, Nat.zero_add]
  exact ⟨faithful_rootValue (by decide) query, faithful_rootValue (by decide) mutation,
    faithful_rootValue (by decide) subscription, faithfulTypes, List.forall_mem_nil _⟩

end Parts

/-! ## Snapshots -/

theorem keepsLines_stamp (t : Time.Stamp) : KeepsLines t.text := by
  have padded : ∀ w n, '\x85' ∉ (Decimal.padded w n).toList := fun w n member =>
    absurd (Time.isDigit_of_mem_padded member) (by decide)
  have zone : '\x85' ∉ Time.zoneChars t.offset := by
    cases t.offset with
    | none => exact List.not_mem_nil
    | some minutes =>
        rw [Time.zoneChars, Time.toList_offsetDigits]
        split
        · decide
        · split <;> simp [padded]
  have fraction : '\x85' ∉ t.fraction.toList := by
    unfold Time.Stamp.fraction
    split <;> simp [padded]
  intro _
  simp [Time.toList_text, padded, fraction, zone]

/-- The value of a snapshot is what is read from its text, in which no line ends in a carriage
return. -/
theorem Snapshot.read_write {s : Snapshot} (kept : ∀ ref ∈ s.schema.refs, ref.Kept)
    (lines : ∀ t ∈ s.texts, KeepsLines t) :
    Yaml.read (Yaml.write s.toValue) = .ok s.toValue ∧ '\r' ∉ (Yaml.write s.toValue).toList := by
  simp only [texts, List.forall_mem_cons] at lines
  obtain ⟨source, info, schema⟩ := lines
  refine Yaml.read_write (by simp) (by simp) (plainNames (by simp [fieldNames])) ?_
  simp only [List.forall_mem_cons]
  exact ⟨Schema.faithful_toValue kept schema, faithful_near (keepsLines_stamp _) (by decide),
    faithful_near source (by decide), faithful_near info (by decide), List.forall_mem_nil _⟩

end SchemaBaseline
