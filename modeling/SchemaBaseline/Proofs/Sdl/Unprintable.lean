import SchemaBaseline.Baseline.Store
import SchemaBaseline.Proofs.Schema.Spelling

/-!
# Schemas that cannot be printed

A reference that has not been loaded can be any chain of nodes, and not every chain has a spelling
(`TypeRef.Printable`). Printing a schema goes through the references that its text spells in the
order in which they stand there (`Schema.printedRefs`), and stops at the first one that is
malformed. `Snapshot.sdl_fails_iff` says that nothing else makes it fail: the other references of
a schema do not matter, a summary needs none of them, and a schema that cannot be printed is not
stored.
-/

namespace SchemaBaseline

open TypeRef (Malformed)

/-! ## References -/

namespace TypeRef

variable {kind : RefKind} {name : Option String} {inner ref : TypeRef}

/-- Any number of nodes that are no named types, each with a further node inside, around a named
type that has a name and nothing inside. -/
def Printable (ref : TypeRef) : Prop :=
  ∃ layers name, ref = chain layers name ∧ (∀ layer ∈ layers, layer.1 ≠ .named) ∧ name ≠ ""

theorem printable_leaf :
    (leaf kind name).Printable ↔ kind = .named ∧ ∃ s, name = some s ∧ s ≠ "" := by
  constructor
  · rintro ⟨_ | ⟨layer, layers⟩, s, same, -, nonempty⟩
    · cases same
      exact ⟨rfl, s, rfl, nonempty⟩
    · cases same
  · rintro ⟨rfl, s, rfl, nonempty⟩
    exact ⟨[], s, rfl, List.forall_mem_nil _, nonempty⟩

theorem printable_wrap : (wrap kind name inner).Printable ↔ kind ≠ .named ∧ inner.Printable := by
  constructor
  · rintro ⟨_ | ⟨layer, layers⟩, s, same, others, nonempty⟩
    · cases same
    · cases same
      exact ⟨others layer List.mem_cons_self, layers, s, rfl,
        fun l member => others l (List.mem_cons_of_mem layer member), nonempty⟩
  · rintro ⟨other, layers, s, rfl, others, nonempty⟩
    exact ⟨(kind, name) :: layers, s, rfl, List.forall_mem_cons.mpr ⟨other, others⟩, nonempty⟩

/-- The references that have a spelling. -/
theorem printable_iff_canonicalChars : ref.Printable ↔ ∃ cs, ref.canonicalChars = .ok cs := by
  induction ref with
  | leaf kind name =>
    rw [printable_leaf]
    cases kind with
    | named =>
      cases name with
      | none => simp [canonicalChars]
      | some s => by_cases empty : s = "" <;> simp [canonicalChars, empty]
    | _ => simp [canonicalChars]
  | wrap kind name inner ih =>
    rw [printable_wrap, ih]
    cases spelled : inner.canonicalChars <;> cases kind <;> simp [canonicalChars, spelled]

end TypeRef

namespace Sdl

variable {α β : Type}

/-! ## Faults -/

/-- The malformed reference that keeps something from being printed, if there is one. -/
def fault? : Except Malformed α → Option Malformed
  | .ok _ => none
  | .error e => some e

/-- The fault of the first malformed reference. -/
def firstFault? (refs : List TypeRef) : Option Malformed :=
  refs.findSome? fun ref => fault? ref.canonical

theorem fault?_eq_some_iff {r : Except Malformed α} {e : Malformed} :
    fault? r = some e ↔ r = .error e := by
  cases r <;> simp [fault?]

theorem fault?_eq_none_iff {r : Except Malformed α} : fault? r = none ↔ ∃ a, r = .ok a := by
  cases r <;> simp [fault?]

/-- What is made of the lines that have been printed makes no fault. -/
theorem fault?_last {r : Except Malformed α} {f : α → β} :
    fault? (r >>= fun a => .ok (f a)) = fault? r := by
  cases r <;> rfl

/-- Where the faults of what comes later do not hang on what has been printed, the first fault
counts. -/
theorem fault?_bind {r : Except Malformed α} {go : α → Except Malformed β}
    {later : Option Malformed} (goes : ∀ a, fault? (go a) = later) :
    fault? (r >>= go) = (fault? r).or later := by
  cases r with
  | ok a => exact goes a
  | error e => rfl

theorem fault?_canonical_eq_none_iff {ref : TypeRef} :
    fault? ref.canonical = none ↔ ref.Printable := by
  rw [TypeRef.printable_iff_canonicalChars, fault?_eq_none_iff, TypeRef.canonical]
  cases ref.canonicalChars <;> simp

theorem firstFault?_append (refs more : List TypeRef) :
    firstFault? (refs ++ more) = (firstFault? refs).or (firstFault? more) :=
  List.findSome?_append

theorem firstFault?_singleton (ref : TypeRef) : firstFault? [ref] = fault? ref.canonical := by
  rw [firstFault?, List.findSome?_cons]
  cases fault? ref.canonical <;> rfl

theorem firstFault?_eq_none_iff {refs : List TypeRef} :
    firstFault? refs = none ↔ ∀ ref ∈ refs, ref.Printable := by
  rw [firstFault?, List.findSome?_eq_none_iff]
  exact forall₂_congr fun ref _ => fault?_canonical_eq_none_iff

theorem firstFault?_eq_some_iff {refs : List TypeRef} {e : Malformed} :
    firstFault? refs = some e ↔
      ∃ before ref after, refs = before ++ ref :: after ∧ ref.canonical = .error e ∧
        ∀ other ∈ before, other.Printable := by
  simp only [firstFault?, List.findSome?_eq_some_iff, fault?_eq_some_iff,
    fault?_canonical_eq_none_iff]

/-- Parts are printed one after the other. -/
theorem fault?_each {print : α → Except Malformed β} {refs : α → List TypeRef} {parts : List α}
    (each : ∀ part ∈ parts, fault? (print part) = firstFault? (refs part)) :
    fault? (Sdl.each print parts) = firstFault? (parts.flatMap refs) := by
  induction parts with
  | nil => rfl
  | cons part rest ih =>
    have others := ih fun other member => each other (List.mem_cons_of_mem part member)
    rw [Sdl.each, List.flatMap_cons, firstFault?_append, ← each part List.mem_cons_self, ← others]
    exact fault?_bind fun first => fault?_last

end Sdl

/-! ## What is spelled -/

/-- The references that are spelled in the text of a field: those of its arguments, and its
own. -/
def FieldDef.printedRefs (field : FieldDef) : List TypeRef :=
  field.args.map InputValue.type ++ [field.type]

/-- The references that are spelled in the text of a type, in their order. Of interfaces and
members only names are written. -/
def NamedType.printedRefs (type : NamedType) : List TypeRef :=
  match type.kind with
  | .object | .interface => type.fields.flatMap FieldDef.printedRefs
  | .inputObject => type.inputFields.map InputValue.type
  | .enum | .scalar | .union => []

/-- The references that are spelled in the text of a schema. -/
def Schema.printedRefs (schema : Schema) : List TypeRef :=
  (schema.types.filter fun type => !type.isInternal).flatMap NamedType.printedRefs

namespace Sdl

theorem fault?_inputValue (v : InputValue) : fault? (inputValue v) = firstFault? [v.type] := by
  rw [inputValue, firstFault?_singleton]
  exact fault?_last

theorem fault?_inputFieldLines (field : InputValue) :
    fault? (inputFieldLines field) = firstFault? [field.type] := by
  rw [inputFieldLines, fault?_last, fault?_inputValue]

theorem fault?_fieldLines (field : FieldDef) :
    fault? (fieldLines field) = firstFault? field.printedRefs := by
  have args : fault? (each inputValue field.args) =
      firstFault? (field.args.map InputValue.type) := by
    rw [fault?_each fun arg _ => fault?_inputValue arg, List.map_eq_flatMap]
  rw [fieldLines, FieldDef.printedRefs, firstFault?_append, ← args, firstFault?_singleton]
  exact fault?_bind fun _ => fault?_last

theorem fault?_typeLines (type : NamedType) :
    fault? (typeLines type) = firstFault? type.printedRefs := by
  have fields (header : String) :
      fault? (do let fields ← each fieldLines type.fields; .ok (block header fields)) =
      firstFault? (type.fields.flatMap FieldDef.printedRefs) := by
    rw [fault?_last, fault?_each fun field _ => fault?_fieldLines field]
  have inputs (header : String) :
      fault? (do let fields ← each inputFieldLines type.inputFields; .ok (block header fields)) =
      firstFault? (type.inputFields.map InputValue.type) := by
    rw [fault?_last, fault?_each fun field _ => fault?_inputFieldLines field, List.map_eq_flatMap]
  rw [typeLines, fault?_last]
  unfold declaration NamedType.printedRefs
  cases type.kind with
  | object => exact fields _
  | interface => exact fields _
  | enum => rfl
  | inputObject => exact inputs _
  | scalar => rfl
  | union => rfl

theorem fault?_sdl (s : Snapshot) : fault? s.sdl = firstFault? s.schema.printedRefs := by
  rw [Snapshot.sdl, fault?_last, fault?_each fun type _ => fault?_typeLines type]
  rfl

end Sdl

open Sdl

/-! ## Snapshots -/

/-- A schema with other interfaces and members of its types. -/
def Schema.withMembers (schema : Schema) (interfaces members : NamedType → List TypeRef) :
    Schema :=
  { schema with
    types := schema.types.map fun type =>
      { type with interfaces := interfaces type, possibleTypes := members type } }

/-- A schema without the parts of its types that hold references. -/
def Schema.withoutRefs (schema : Schema) : Schema :=
  { schema with types := schema.types.map fun type =>
      { type with fields := [], inputFields := [], interfaces := [], possibleTypes := [] } }

theorem Schema.printedRefs_withMembers (schema : Schema)
    (interfaces members : NamedType → List TypeRef) :
    (schema.withMembers interfaces members).printedRefs = schema.printedRefs := by
  rw [printedRefs, withMembers, List.filter_map, List.flatMap_map]
  rfl

theorem Sdl.countKind_withoutRefs (schema : Schema) (kind : TypeKind) :
    countKind schema.withoutRefs kind = countKind schema kind := by
  rw [countKind, Schema.withoutRefs, List.countP_map]
  rfl

namespace Snapshot

theorem exists_sdl_iff {s : Snapshot} :
    (∃ text, s.sdl = .ok text) ↔ ∀ type ∈ s.schema.types, type.isInternal = false →
      ∀ ref ∈ type.printedRefs, ref.Printable := by
  rw [← fault?_eq_none_iff, fault?_sdl, firstFault?_eq_none_iff]
  simp only [Schema.printedRefs, List.mem_flatMap, List.mem_filter, Bool.not_eq_true']
  constructor
  · exact fun printable type listed shown ref spelled =>
      printable ref ⟨type, ⟨listed, shown⟩, spelled⟩
  · rintro printable ref ⟨type, ⟨listed, shown⟩, spelled⟩
    exact printable type listed shown ref spelled

/-- Whatever its references are, a schema cannot be printed just if some type that is not internal
has a malformed reference among those that its text spells; otherwise it is printed. The first
malformed one is what is complained of, and no file is touched. Interfaces and members have no say
in this, and a summary looks at no reference at all. -/
theorem sdl_fails_iff (s : Snapshot) :
    ((∃ e, s.sdl = .error e) ↔
      ∃ type ∈ s.schema.types, type.isInternal = false ∧ ∃ ref ∈ type.printedRefs,
        ¬ ref.Printable) ∧
    ((¬ ∃ type ∈ s.schema.types, type.isInternal = false ∧ ∃ ref ∈ type.printedRefs,
      ¬ ref.Printable) → ∃ text, s.sdl = .ok text) ∧
    (∀ e, s.sdl = .error e →
      (∃ before ref after, s.schema.printedRefs = before ++ ref :: after ∧
        ref.canonical = .error e ∧
        ∀ other ∈ before, other.Printable) ∧
      ∀ tree path, Baseline.saveSdl tree path s = (tree, .error (.unprintable e))) ∧
    (∀ interfaces members e,
      sdl { s with schema := s.schema.withMembers interfaces members } = .error e ↔
        s.sdl = .error e) ∧
    s.summary = summary { s with schema := s.schema.withoutRefs } := by
  have printed : (∃ text, s.sdl = .ok text) ↔ ¬ ∃ type ∈ s.schema.types, type.isInternal = false ∧
      ∃ ref ∈ type.printedRefs, ¬ ref.Printable := by
    rw [exists_sdl_iff]
    simp only [not_exists, not_and, Classical.not_not]
  refine ⟨?_, printed.mpr, fun e fails => ⟨?_, fun tree path => ?_⟩,
    fun interfaces members e => ?_, ?_⟩
  · have fails : (∃ e, s.sdl = .error e) ↔ ¬ ∃ text, s.sdl = .ok text := by cases s.sdl <;> simp
    rw [fails, printed, Classical.not_not]
  · rw [← firstFault?_eq_some_iff, ← fault?_sdl, fails]
    rfl
  · rw [Baseline.saveSdl, fails]
  · rw [← fault?_eq_some_iff, ← fault?_eq_some_iff, fault?_sdl, fault?_sdl,
      Schema.printedRefs_withMembers]
  · simp only [summary, countLines, countKind_withoutRefs]
    rfl

end Snapshot

end SchemaBaseline
