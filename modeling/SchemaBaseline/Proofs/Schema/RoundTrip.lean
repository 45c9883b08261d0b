import SchemaBaseline.Proofs.Schema.Shown
import SchemaBaseline.Proofs.Time.RoundTrip
import SchemaBaseline.Schema.Dump

/-!
# Schemas load from their own values

The value of a schema part names every field by its first spelling and writes null for what is
absent, so it shows the part (`Schema.shown_toValue`), well formed or not, and loading gives the
part back. The only conditions are those that loading itself enforces: well-formed references of
at most `maxRefDepth` levels and type names that occur once. `Snapshot.load_toValue` is the
statement for whole snapshots; `Snapshot.loaded_of_sound` turns it into a source of loaded
snapshots.
-/

namespace SchemaBaseline

/-! ## Values show what they are written for -/

theorem Entries.get?_eq_none {entries : Entries} {name : String}
    (absent : name ∉ entries.map Prod.fst) :
    get? entries name = none := by
  rw [get?, List.lookup_eq_none_iff]
  intro entry member
  refine bne_iff_ne.mpr fun same => absent ?_
  exact List.mem_map.mpr ⟨entry, member, same.symm⟩

/-- An object whose entries come in the order in which they are described. -/
theorem Value.isRecord_object {entries : Entries} {parts : List (String × (Option Value → Prop))}
    (names : entries.map Prod.fst = parts.map Prod.fst)
    (found : ∀ part ∈ parts, part.2 (Entries.get? entries part.1)) :
    (Value.object entries).IsRecord parts :=
  ⟨entries, rfl, found, fun _ absent => Entries.get?_eq_none (names ▸ absent)⟩

theorem isTextOrAbsent_ofTextOrNull (s : Option String) :
    IsTextOrAbsent s (some (.ofTextOrNull s)) := by
  cases s with
  | none => exact .inr rfl
  | some s => rfl

theorem showsList_map {α : Type} {shown : α → Value → Prop} {toValue : α → Value}
    (each : ∀ part, shown part (toValue part)) (parts : List α) :
    ShowsList shown parts (some (.list (parts.map toValue))) := by
  refine ⟨_, rfl, ?_⟩
  induction parts with
  | nil => exact .nil
  | cons part parts ih => exact .cons (each part) ih

theorem RefKind.shownBy_label (kind : RefKind) :
    kind.ShownBy (some (.ofTextOrNull kind.label)) := by
  cases kind with
  | named => exact ⟨"NAMED", rfl, by decide, by decide⟩
  | nonNull => rfl
  | list => rfl
  | other label => exact isTextOrAbsent_ofTextOrNull label

/-- The value of a reference shows it, whether or not it means anything. -/
theorem TypeRef.shown_toValue (ref : TypeRef) : ref.Shown ref.toValue := by
  induction ref with
  | leaf kind name =>
      refine Value.isRecord_object rfl ?_
      simp only [List.forall_mem_cons]
      exact ⟨kind.shownBy_label, isTextOrAbsent_ofTextOrNull name, .inr rfl,
        List.forall_mem_nil _⟩
  | wrap kind name inner ih =>
      refine Value.isRecord_object rfl ?_
      simp only [List.forall_mem_cons]
      exact ⟨kind.shownBy_label, isTextOrAbsent_ofTextOrNull name, ⟨_, rfl, ih⟩,
        List.forall_mem_nil _⟩

theorem InputValue.shown_toValue (input : InputValue) : input.Shown input.toValue := by
  refine Value.isRecord_object rfl ?_
  simp only [List.forall_mem_cons]
  exact ⟨rfl, isTextOrAbsent_ofTextOrNull _, ⟨_, rfl, input.type.shown_toValue⟩,
    isTextOrAbsent_ofTextOrNull _, List.forall_mem_nil _⟩

theorem FieldDef.shown_toValue (field : FieldDef) : field.Shown field.toValue := by
  refine Value.isRecord_object rfl ?_
  simp only [List.forall_mem_cons]
  exact ⟨rfl, isTextOrAbsent_ofTextOrNull _, .inr (showsList_map InputValue.shown_toValue _),
    ⟨_, rfl, field.type.shown_toValue⟩, rfl, isTextOrAbsent_ofTextOrNull _, List.forall_mem_nil _⟩

theorem EnumValue.shown_toValue (value : EnumValue) : value.Shown value.toValue := by
  refine Value.isRecord_object rfl ?_
  simp only [List.forall_mem_cons]
  exact ⟨rfl, isTextOrAbsent_ofTextOrNull _, rfl, isTextOrAbsent_ofTextOrNull _,
    List.forall_mem_nil _⟩

theorem NamedType.shown_toValue (type : NamedType) : type.Shown type.toValue := by
  refine Value.isRecord_object rfl ?_
  simp only [List.forall_mem_cons]
  exact ⟨rfl, rfl, isTextOrAbsent_ofTextOrNull _, .inr (showsList_map FieldDef.shown_toValue _),
    .inr (showsList_map InputValue.shown_toValue _), .inr (showsList_map TypeRef.shown_toValue _),
    .inr (showsList_map EnumValue.shown_toValue _), .inr (showsList_map TypeRef.shown_toValue _),
    List.forall_mem_nil _⟩

theorem showsRoot_rootValue (root : Option String) :
    ShowsRoot root (some (Schema.rootValue root)) := by
  cases root with
  | none => exact .inr rfl
  | some name =>
      refine ⟨_, rfl, Value.isRecord_object rfl ?_⟩
      simp only [List.forall_mem_cons]
      exact ⟨rfl, List.forall_mem_nil _⟩

/-- The value of a schema shows it. -/
theorem Schema.shown_toValue (schema : Schema) : schema.Shown schema.toValue := by
  refine Value.isRecord_object rfl ?_
  simp only [List.forall_mem_cons]
  exact ⟨showsRoot_rootValue _, showsRoot_rootValue _, showsRoot_rootValue _,
    showsList_map NamedType.shown_toValue _, List.forall_mem_nil _⟩

/-! ## Snapshots -/

/-- A snapshot of such a schema loads from its value, whatever the time is now. -/
theorem Snapshot.load_toValue {s : Snapshot} (now : Time.Stamp) (sound : s.schema.Sound)
    (shallow : ∀ ref ∈ s.schema.refs, ref.depth ≤ maxRefDepth) :
    Snapshot.load now s.toValue = .ok s := by
  have fetched : Value.loadStamp (.text s.fetchedAt.text) = .ok s.fetchedAt := by
    simp only [Value.loadStamp, Time.readText_text]
  exact Snapshot.load_of_entries now rfl
    (sound.load_of_shown shallow s.schema.shown_toValue) rfl fetched rfl rfl

/-- Every sound snapshot without references nested too deep is one that has been loaded. -/
theorem Snapshot.loaded_of_sound {s : Snapshot} (sound : s.schema.Sound)
    (shallow : ∀ ref ∈ s.schema.refs, ref.depth ≤ maxRefDepth) : s.Loaded :=
  ⟨default, s.toValue, Snapshot.load_toValue default sound shallow⟩

/-! ## A small schema -/

/-- A schema with a wrapped reference, an argument and an enumeration, on which statements can be
tried. -/
def Schema.shelf : Schema where
  queryType := some "Query"
  mutationType := none
  subscriptionType := none
  types := [
    { kind := .object, name := "Query", description := some "Where to \"begin\".\r\n",
      inputFields := [], interfaces := [], enumValues := [], possibleTypes := [],
      fields := [{
        name := "books", description := none, isDeprecated := false, deprecationReason := none,
        args := [⟨"genre", none, .nonNull (.named "Genre"), some "FICTION"⟩],
        type := .nonNull (.listOf (.nonNull (.named "Book"))) }] },
    { kind := .object, name := "Book", description := none, inputFields := [], interfaces := [],
      enumValues := [], possibleTypes := [],
      fields := [⟨"title", some "π\u2028", [], .named "String", false, none⟩] },
    { kind := .enum, name := "Genre", description := none, fields := [], inputFields := [],
      interfaces := [], possibleTypes := [],
      enumValues := [⟨"FICTION", none, false, none⟩, ⟨"SCIENCE", none, true, some ""⟩] }]

theorem Schema.shelf_sound : shelf.Sound := by decide

theorem Schema.shelf_shallow : ∀ ref ∈ shelf.refs, ref.depth ≤ maxRefDepth := by decide

end SchemaBaseline
