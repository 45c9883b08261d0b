import SchemaBaseline.Proofs.Json.RoundTrip
import SchemaBaseline.Schema.Dump

/-!
# Schemas are written in full

The values of schema parts are made of texts, flags, nulls, lists and objects whose names are all
different, so that a JSON text holds them as they are: `Snapshot.plain_toValue`.
-/

namespace SchemaBaseline

theorem Value.Plain.ofTextOrNull (s : Option String) : (Value.ofTextOrNull s).Plain := by
  cases s with
  | none => exact .null
  | some s => exact .text s

theorem Value.Plain.map {α : Type} {toValue : α → Value} {parts : List α}
    (each : ∀ part, (toValue part).Plain) : (Value.list (parts.map toValue)).Plain := by
  refine .list fun v member => ?_
  obtain ⟨part, _, rfl⟩ := List.mem_map.mp member
  exact each part

theorem TypeRef.plain_toValue (ref : TypeRef) : ref.toValue.Plain := by
  induction ref with
  | leaf kind name =>
      refine .object (by simp) ?_
      simp only [List.forall_mem_cons]
      exact ⟨.ofTextOrNull _, .ofTextOrNull _, .null, List.forall_mem_nil _⟩
  | wrap kind name inner ih =>
      refine .object (by simp) ?_
      simp only [List.forall_mem_cons]
      exact ⟨.ofTextOrNull _, .ofTextOrNull _, ih, List.forall_mem_nil _⟩

theorem InputValue.plain_toValue (input : InputValue) : input.toValue.Plain := by
  refine .object (by simp) ?_
  simp only [List.forall_mem_cons]
  exact ⟨.text _, .ofTextOrNull _, input.type.plain_toValue, .ofTextOrNull _,
    List.forall_mem_nil _⟩

theorem FieldDef.plain_toValue (field : FieldDef) : field.toValue.Plain := by
  refine .object (by simp) ?_
  simp only [List.forall_mem_cons]
  exact ⟨.text _, .ofTextOrNull _, .map InputValue.plain_toValue, field.type.plain_toValue,
    .bool _, .ofTextOrNull _, List.forall_mem_nil _⟩

theorem EnumValue.plain_toValue (value : EnumValue) : value.toValue.Plain := by
  refine .object (by simp) ?_
  simp only [List.forall_mem_cons]
  exact ⟨.text _, .ofTextOrNull _, .bool _, .ofTextOrNull _, List.forall_mem_nil _⟩

theorem NamedType.plain_toValue (type : NamedType) : type.toValue.Plain := by
  refine .object (by simp) ?_
  simp only [List.forall_mem_cons]
  exact ⟨.text _, .text _, .ofTextOrNull _, .map FieldDef.plain_toValue,
    .map InputValue.plain_toValue, .map TypeRef.plain_toValue, .map EnumValue.plain_toValue,
    .map TypeRef.plain_toValue, List.forall_mem_nil _⟩

theorem Schema.plain_rootValue (root : Option String) : (Schema.rootValue root).Plain := by
  cases root with
  | none => exact .null
  | some name => exact .object (by simp) ((List.forall_mem_singleton).mpr (.text name))

theorem Schema.plain_toValue (schema : Schema) : schema.toValue.Plain := by
  refine .object (by simp) ?_
  simp only [List.forall_mem_cons]
  exact ⟨plain_rootValue _, plain_rootValue _, plain_rootValue _, .map NamedType.plain_toValue,
    List.forall_mem_nil _⟩

/-- The value of a snapshot is one that JSON holds as it is. -/
theorem Snapshot.plain_toValue (s : Snapshot) : s.toValue.Plain := by
  refine .object (by simp) ?_
  simp only [List.forall_mem_cons]
  exact ⟨s.schema.plain_toValue, .text _, .text _, .text _, List.forall_mem_nil _⟩

end SchemaBaseline
