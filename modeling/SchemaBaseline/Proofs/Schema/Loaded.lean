import SchemaBaseline.Schema.Load

/-!
# What loading a schema guarantees

A document value is loaded part by part, and each part is accepted on its own. What survives of
these checks in the whole is that every reference of a loaded schema has been loaded itself.
`Schema.sound_of_load` and `Schema.depth_le_of_load` draw the conclusions: all references are well
formed and not too deep, and no two types share a name. `Snapshot.Loaded` names the snapshots that
have been loaded from some value.
-/

namespace SchemaBaseline

/-- A snapshot that some value denotes. -/
def Snapshot.Loaded (s : Snapshot) : Prop :=
  ∃ now v, Snapshot.load now v = .ok s

/-! ## Parts of accepted values -/

theorem Checked.exists_load_of_mem_ofItems {α : Type} {load : Value → Checked α}
    {i : Nat} {items : List Value} {parts : List α} {part : α}
    (ok : Checked.ofItems load i items = .ok parts) (member : part ∈ parts) :
    ∃ v, load v = .ok part := by
  induction items generalizing i parts with
  | nil =>
      injection ok with empty
      subst empty
      cases member
  | cons v rest ih =>
      simp only [Checked.ofItems, Checked.apply_eq_ok_iff, Checked.map_eq_ok_iff,
        Checked.under_eq_ok_iff] at ok
      obtain ⟨_, others, ⟨first, loaded, rfl⟩, restOk, rfl⟩ := ok
      rcases List.mem_cons.mp member with rfl | later
      · exact ⟨v, loaded⟩
      · exact ih restOk later

theorem Value.exists_load_of_mem_children {α : Type} {load : Value → Checked α}
    {v : Value} {parts : List α} {part : α}
    (ok : Value.loadChildren load v = .ok parts) (member : part ∈ parts) :
    ∃ w, load w = .ok part := by
  unfold Value.loadChildren at ok
  split at ok
  · injection ok with empty
    subst empty
    cases member
  · unfold Value.loadItems at ok
    split at ok
    · exact Checked.exists_load_of_mem_ofItems ok member
    · cases ok

theorem Entries.exists_load_of_required {α : Type} {load : Value → Checked α}
    {entries : Entries} {name second : String} {a : α}
    (ok : Entries.required entries name second load = .ok a) :
    ∃ v, load v = .ok a := by
  unfold Entries.required at ok
  split at ok
  next v _ => exact ⟨v, Checked.under_eq_ok_iff.mp ok⟩
  next => cases ok

theorem Entries.exists_load_of_optional {α : Type} {load : Value → Checked α}
    {entries : Entries} {name second : String} {default a : α}
    (ok : Entries.optional entries name second default load = .ok a) :
    a = default ∨ ∃ v, load v = .ok a := by
  unfold Entries.optional at ok
  split at ok
  next v _ => exact .inr ⟨v, Checked.under_eq_ok_iff.mp ok⟩
  next =>
    injection ok with same
    exact .inl same.symm

/-- Every part of an optional list of children has passed its own check. -/
theorem Entries.exists_load_of_mem_optional {α : Type} {load : Value → Checked α}
    {entries : Entries} {name second : String} {parts : List α} {part : α}
    (ok : Entries.optional entries name second [] (Value.loadChildren load) = .ok parts)
    (member : part ∈ parts) :
    ∃ v, load v = .ok part := by
  rcases Entries.exists_load_of_optional ok with rfl | ⟨v, children⟩
  · cases member
  · exact Value.exists_load_of_mem_children children member

/-! ## References -/

namespace TypeRef

/-- The three kinds that loading yields. -/
theorem loadKind_cases {v : Value} {kind : RefKind} (ok : loadKind v = .ok kind) :
    kind = .named ∨ kind.isWrapper = true := by
  unfold loadKind at ok
  split at ok <;> first
    | (injection ok with same; subst same; simp [RefKind.isWrapper])
    | cases ok

/-- A node whose shape is right and whose inside is well formed is itself well formed. -/
theorem wellFormed_of_checkShape {kind : RefKind} {name : Option String}
    {inner : Option TypeRef} {ref : TypeRef}
    (known : kind = .named ∨ kind.isWrapper = true)
    (innerWf : ∀ r, inner = some r → r.WellFormed)
    (ok : checkShape (kind, name, inner) = .ok ref) :
    ref.WellFormed := by
  unfold checkShape at ok
  split at ok
  · cases ok
  next shaped =>
    injection ok with same
    subst same
    cases inner with
    | some inner =>
        rcases known with rfl | wrapper
        · simp [shapeProblem?] at shaped
        · exact .wrap wrapper (innerWf inner rfl)
    | none =>
        rcases known with rfl | wrapper
        · cases name with
          | none => simp [shapeProblem?] at shaped
          | some name =>
              apply WellFormed.named
              intro empty
              simp [shapeProblem?, empty] at shaped
        · cases kind <;> simp [RefKind.isWrapper, shapeProblem?] at wrapper shaped

theorem loadKind_of_required {entries : Entries} {kind : RefKind}
    (ok : Entries.required entries "kind" "kind" loadKind = .ok kind) :
    loadKind ((Value.object entries).field "kind") = .ok kind := by
  rw [Entries.required, Entries.either?, Option.or_self] at ok
  rw [Value.field]
  cases found : Entries.get? entries "kind" with
  | none =>
    rw [found] at ok
    cases ok
  | some v =>
    rw [found] at ok
    exact Checked.under_eq_ok_iff.mp ok

/-- The parts of a node that is good up to its shape. -/
theorem parts_of_apply {kind : Checked RefKind} {name : Checked (Option String)}
    {inner : Checked (Option TypeRef)} {parts : RefKind × Option String × Option TypeRef}
    (ok : ((kind.map fun k n i => (k, n, i)).apply name).apply inner = .ok parts) :
    kind = .ok parts.1 ∧ inner = .ok parts.2.2 := by
  simp only [Checked.apply_eq_ok_iff, Checked.map_eq_ok_iff] at ok
  obtain ⟨_, i, ⟨_, n, ⟨k, kindOk, rfl⟩, -, rfl⟩, innerOk, rfl⟩ := ok
  exact ⟨kindOk, innerOk⟩

/-- What is loaded is an object whose parts are good, and so is its shape. -/
theorem parts_of_loadWithin_succ {limit : Nat} {v : Value} {loaded : TypeRef}
    (ok : loadWithin (limit + 1) v = .ok loaded) :
    ∃ entries kind name inner, v = .object entries ∧ loadKind (v.field "kind") = .ok kind ∧
      Entries.optional entries "ofType" "of_type" none (loadInner (loadWithin limit)) =
        .ok inner ∧
      checkShape (kind, name, inner) = .ok loaded := by
  cases v with
  | object entries =>
    simp only [loadWithin, Value.entries?, Checked.andThen_eq_ok_iff] at ok
    obtain ⟨⟨kind, name, inner⟩, partsOk, shaped⟩ := ok
    obtain ⟨kindOk, innerOk⟩ := parts_of_apply partsOk
    exact ⟨entries, kind, name, inner, rfl, loadKind_of_required kindOk, innerOk, shaped⟩
  | _ => cases ok

/-- What a loaded node is made of: whatever is inside it has been loaded with one node less. -/
theorem parts_of_loadWithin {limit : Nat} {v : Value} {ref : TypeRef}
    (ok : loadWithin (limit + 1) v = .ok ref) :
    ∃ kind name inner, (kind = .named ∨ kind.isWrapper = true) ∧
      (∀ r, inner = some r → ∃ u, loadWithin limit u = .ok r) ∧
        checkShape (kind, name, inner) = .ok ref := by
  obtain ⟨entries, kind, name, inner, -, kindOk, innerOk, shapeOk⟩ := parts_of_loadWithin_succ ok
  refine ⟨kind, name, inner, loadKind_cases kindOk, ?_, shapeOk⟩
  rintro r rfl
  rcases Entries.exists_load_of_optional innerOk with absent | ⟨u, loaded⟩
  · cases absent
  · unfold loadInner at loaded
    split at loaded
    · cases loaded
    · obtain ⟨r', r'Ok, same⟩ := Checked.map_eq_ok_iff.mp loaded
      injection same with same
      subst same
      exact ⟨_, r'Ok⟩

theorem wellFormed_of_loadWithin {limit : Nat} {v : Value} {ref : TypeRef}
    (ok : loadWithin limit v = .ok ref) : ref.WellFormed := by
  induction limit generalizing v ref with
  | zero => cases ok
  | succ limit ih =>
      obtain ⟨kind, name, inner, known, inside, shapeOk⟩ := parts_of_loadWithin ok
      refine wellFormed_of_checkShape known (fun r within => ?_) shapeOk
      obtain ⟨u, loaded⟩ := inside r within
      exact ih loaded

theorem depth_le_of_loadWithin {limit : Nat} {v : Value} {ref : TypeRef}
    (ok : loadWithin limit v = .ok ref) : ref.depth ≤ limit := by
  induction limit generalizing v ref with
  | zero => cases ok
  | succ limit ih =>
      obtain ⟨kind, name, inner, -, inside, shapeOk⟩ := parts_of_loadWithin ok
      unfold checkShape at shapeOk
      split at shapeOk
      · cases shapeOk
      · injection shapeOk with same
        subst same
        cases inner with
        | none => exact Nat.succ_le_succ (Nat.zero_le limit)
        | some inner =>
            obtain ⟨u, loaded⟩ := inside inner rfl
            exact Nat.succ_le_succ (ih loaded)

end TypeRef

/-! ## Schemas -/

/-! Every reference in a loaded part has itself been loaded from some value. -/

theorem InputValue.exists_load_type {v : Value} {arg : InputValue}
    (ok : InputValue.load v = .ok arg) : ∃ w, TypeRef.load w = .ok arg.type := by
  unfold InputValue.load at ok
  split at ok
  · cases ok
  · simp only [Checked.apply_eq_ok_iff, Checked.map_eq_ok_iff] at ok
    obtain ⟨_, _, ⟨_, type, ⟨_, _, ⟨_, _, rfl⟩, _, rfl⟩, typeOk, rfl⟩, _, rfl⟩ := ok
    exact Entries.exists_load_of_required typeOk

theorem FieldDef.exists_load_type {v : Value} {field : FieldDef}
    (ok : FieldDef.load v = .ok field) :
    (∃ w, TypeRef.load w = .ok field.type) ∧ ∀ arg ∈ field.args, ∃ w, TypeRef.load w =
      .ok arg.type := by
  unfold FieldDef.load at ok
  split at ok
  · cases ok
  · simp only [Checked.apply_eq_ok_iff, Checked.map_eq_ok_iff] at ok
    obtain ⟨_, _, ⟨_, _, ⟨_, type, ⟨_, args, ⟨_, _, ⟨_, _, rfl⟩, _, rfl⟩, argsOk, rfl⟩, typeOk,
        rfl⟩, _, rfl⟩, _, rfl⟩ := ok
    refine ⟨Entries.exists_load_of_required typeOk, fun arg member => ?_⟩
    obtain ⟨u, argLoaded⟩ := Entries.exists_load_of_mem_optional argsOk member
    exact InputValue.exists_load_type argLoaded

theorem NamedType.exists_load_of_mem_refs {v : Value} {type : NamedType}
    (ok : NamedType.load v = .ok type) : ∀ ref ∈ type.refs, ∃ w, TypeRef.load w = .ok ref := by
  unfold NamedType.load at ok
  split at ok
  · cases ok
  · simp only [Checked.apply_eq_ok_iff, Checked.map_eq_ok_iff] at ok
    obtain ⟨_, members, ⟨_, _, ⟨_, interfaces,
        ⟨_, inputs, ⟨_, fields, ⟨_, _, ⟨_, _, ⟨_, _, rfl⟩, _, rfl⟩, _, rfl⟩, fieldsOk, rfl⟩,
        inputsOk, rfl⟩, interfacesOk, rfl⟩, _, rfl⟩, membersOk, rfl⟩ := ok
    intro ref member
    simp only [NamedType.refs, List.mem_append, List.mem_flatMap, List.mem_cons, List.mem_map]
      at member
    rcases member with ((⟨field, fieldMem, rfl | ⟨arg, argMem, rfl⟩⟩ | ⟨input, inputMem, rfl⟩) |
      interfaceMem) | memberMem
    · obtain ⟨w, loaded⟩ := Entries.exists_load_of_mem_optional fieldsOk fieldMem
      exact (FieldDef.exists_load_type loaded).1
    · obtain ⟨w, loaded⟩ := Entries.exists_load_of_mem_optional fieldsOk fieldMem
      exact (FieldDef.exists_load_type loaded).2 arg argMem
    · obtain ⟨w, loaded⟩ := Entries.exists_load_of_mem_optional inputsOk inputMem
      exact InputValue.exists_load_type loaded
    · exact Entries.exists_load_of_mem_optional interfacesOk interfaceMem
    · exact Entries.exists_load_of_mem_optional membersOk memberMem

theorem firstRepeated_eq_none_iff {seen names : List String} :
    firstRepeated seen names = none ↔ names.Nodup ∧ ∀ name ∈ names, name ∉ seen := by
  induction names generalizing seen with
  | nil => simp [firstRepeated]
  | cons name rest ih =>
      by_cases old : name ∈ seen
      · simp [firstRepeated, old]
      · simp only [firstRepeated, List.contains_iff_mem, old, if_false, ih, List.mem_cons, not_or,
          List.nodup_cons, forall_eq_or_imp, not_false_iff, true_and]
        constructor
        · rintro ⟨distinct, fresh⟩
          exact ⟨⟨fun again => (fresh name again).1 rfl, distinct⟩,
            fun other mem => (fresh other mem).2⟩
        · rintro ⟨⟨notAgain, distinct⟩, fresh⟩
          exact ⟨distinct, fun other mem => ⟨fun same => notAgain (same ▸ mem), fresh other mem⟩⟩

/-- Whatever value a schema was loaded from, its type names are unique, and each of its references
has been loaded. -/
theorem Schema.parts_of_load {v : Value} {schema : Schema} (ok : Schema.load v = .ok schema) :
    (schema.types.map NamedType.name).Nodup ∧ ∀ ref ∈ schema.refs, ∃ w,
      TypeRef.load w = .ok ref := by
  unfold Schema.load at ok
  split at ok
  · cases ok
  · simp only [Checked.andThen_eq_ok_iff, Checked.apply_eq_ok_iff, Checked.map_eq_ok_iff] at ok
    obtain ⟨_, ⟨_, types, ⟨_, _, ⟨_, _, ⟨_, _, rfl⟩, _, rfl⟩, _, rfl⟩, typesOk, rfl⟩, namesOk⟩ :=
      ok
    unfold Schema.checkNames at namesOk
    split at namesOk
    · cases namesOk
    next distinct =>
      injection namesOk with same
      subst same
      refine ⟨(firstRepeated_eq_none_iff.mp distinct).1, fun ref member => ?_⟩
      obtain ⟨type, typeMem, refMem⟩ := List.mem_flatMap.mp member
      obtain ⟨w, loaded⟩ := Entries.exists_load_of_mem_optional typesOk typeMem
      exact NamedType.exists_load_of_mem_refs loaded ref refMem

theorem Schema.sound_of_load {v : Value} {schema : Schema} (ok : Schema.load v = .ok schema) :
    schema.Sound := by
  obtain ⟨distinct, refs⟩ := parts_of_load ok
  refine ⟨fun ref member => ?_, distinct⟩
  obtain ⟨w, loaded⟩ := refs ref member
  exact TypeRef.wellFormed_of_loadWithin loaded

/-- References of at most 200 levels are within the nesting that is loaded. -/
theorem TypeRef.shallow_of_le {refs : List TypeRef} (short : ∀ ref ∈ refs, ref.depth ≤ 200) :
    ∀ ref ∈ refs, ref.depth ≤ maxRefDepth := fun ref member =>
  Nat.le_trans (short ref member) (by decide)

theorem Schema.depth_le_of_load {v : Value} {schema : Schema} (ok : Schema.load v = .ok schema) :
    ∀ ref ∈ schema.refs, ref.depth ≤ maxRefDepth := by
  intro ref member
  obtain ⟨w, loaded⟩ := (parts_of_load ok).2 ref member
  exact TypeRef.depth_le_of_loadWithin loaded

theorem Snapshot.Loaded.exists_load_schema {s : Snapshot} (loaded : s.Loaded) :
    ∃ v, Schema.load v = .ok s.schema := by
  obtain ⟨now, v, ok⟩ := loaded
  unfold Snapshot.load at ok
  split at ok
  · cases ok
  · simp only [Checked.apply_eq_ok_iff, Checked.map_eq_ok_iff] at ok
    obtain ⟨_, _, ⟨_, _, ⟨_, _, ⟨schema, schemaOk, rfl⟩, _, rfl⟩, _, rfl⟩, _, rfl⟩ := ok
    exact Entries.exists_load_of_required schemaOk

theorem Snapshot.Loaded.sound {s : Snapshot} (loaded : s.Loaded) : s.schema.Sound := by
  obtain ⟨v, schemaLoaded⟩ := loaded.exists_load_schema
  exact Schema.sound_of_load schemaLoaded

theorem Snapshot.Loaded.shallow {s : Snapshot} (loaded : s.Loaded) :
    ∀ ref ∈ s.schema.refs, ref.depth ≤ maxRefDepth := by
  obtain ⟨v, schemaLoaded⟩ := loaded.exists_load_schema
  exact Schema.depth_le_of_load schemaLoaded

/-- The time counts only for what a value does not say: it has no say in whether the value denotes
a snapshot. -/
theorem Snapshot.exists_load_of_load {now : Time.Stamp} {v : Value} {s : Snapshot}
    (ok : Snapshot.load now v = .ok s) (other : Time.Stamp) :
    ∃ s', Snapshot.load other v = .ok s' := by
  unfold Snapshot.load at ok ⊢
  split at ok
  · cases ok
  next entries known =>
    simp only [Checked.apply_eq_ok_iff, Checked.map_eq_ok_iff] at ok
    obtain ⟨_, info, ⟨_, source, ⟨_, time, ⟨schema, schemaOk, rfl⟩, timeOk, rfl⟩, sourceOk, rfl⟩,
        infoOk, rfl⟩ := ok
    obtain ⟨time', timeOk'⟩ : ∃ time',
        Entries.optional entries "fetchedAt" "fetched_at" other Value.loadStamp = .ok time' := by
      unfold Entries.optional at timeOk ⊢
      split at timeOk
      · exact ⟨time, timeOk⟩
      · exact ⟨other, rfl⟩
    refine ⟨⟨schema, time', source, info⟩, ?_⟩
    simp only [Checked.apply_eq_ok_iff, Checked.map_eq_ok_iff]
    exact ⟨_, info, ⟨_, source, ⟨_, time', ⟨schema, schemaOk, rfl⟩, timeOk', rfl⟩, sourceOk, rfl⟩,
      infoOk, rfl⟩

/-- What schema a value denotes is not a question of time either. -/
theorem Snapshot.schema_eq_of_load {now other : Time.Stamp} {v : Value} {s s' : Snapshot}
    (ok : Snapshot.load now v = .ok s) (ok' : Snapshot.load other v = .ok s') :
    s'.schema = s.schema := by
  unfold Snapshot.load at ok ok'
  split at ok
  · cases ok
  next entries known =>
    simp only [known, Checked.apply_eq_ok_iff, Checked.map_eq_ok_iff] at ok ok'
    obtain ⟨_, _, ⟨_, _, ⟨_, _, ⟨schema, schemaOk, rfl⟩, _, rfl⟩, _, rfl⟩, _, rfl⟩ := ok
    obtain ⟨_, _, ⟨_, _, ⟨_, _, ⟨schema', schemaOk', rfl⟩, _, rfl⟩, _, rfl⟩, _, rfl⟩ := ok'
    exact Checked.ok.inj (schemaOk'.symm.trans schemaOk)

/-- Where names are unique, what a look-up finds is the only part of its name. -/
theorem find?_name_eq_some_iff {α : Type} {nameOf : α → String} {parts : List α}
    (unique : (parts.map nameOf).Nodup) {name : String} {part : α} :
    parts.find? (fun p => nameOf p == name) = some part ↔ part ∈ parts ∧ nameOf part = name := by
  rw [List.find?_eq_some_iff_append]
  constructor
  · rintro ⟨named, before, after, split, -⟩
    refine ⟨?_, by simpa using named⟩
    rw [split]
    exact List.mem_append_right before List.mem_cons_self
  · rintro ⟨member, named⟩
    obtain ⟨before, after, split⟩ := List.append_of_mem member
    refine ⟨by simpa using named, before, after, split, fun other earlier => ?_⟩
    rw [split, List.map_append, List.map_cons, List.nodup_append] at unique
    have differs :=
      unique.2.2 (nameOf other) (List.mem_map_of_mem earlier) (nameOf part) List.mem_cons_self
    simpa [← named] using differs

theorem Schema.type?_eq_some_iff {schema : Schema}
    (unique : (schema.types.map NamedType.name).Nodup) {name : String} {type : NamedType} :
    schema.type? name = some type ↔ type ∈ schema.types ∧ type.name = name :=
  find?_name_eq_some_iff unique

theorem Schema.Sound.type?_eq_some_iff {schema : Schema} (sound : schema.Sound) {name : String}
    {type : NamedType} :
    schema.type? name = some type ↔ type ∈ schema.types ∧ type.name = name :=
  Schema.type?_eq_some_iff sound.names_unique

end SchemaBaseline
