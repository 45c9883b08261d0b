import SchemaBaseline.Proofs.Schema.RoundTrip
import SchemaBaseline.Proofs.Sdl.Text

/-!
# Loaded schemas can be used

Loading looks at each node of a reference on its own. Together the checks make a chain of wrappers
around a named type out of every reference in a loaded schema, and out of everything that is
wrapped in it (`TypeRef.levels`, `TypeRef.chain`). Nothing that goes through such a chain can
fail: it is spelled, the comparison of two loaded schemas comes to an end, and a loaded schema is
printed. `Snapshot.usable_of_load` says so of whatever has been accepted.
-/

namespace SchemaBaseline

theorem RefKind.isWrapper_iff {kind : RefKind} :
    kind.isWrapper = true ↔ kind = .list ∨ kind = .nonNull := by
  cases kind <;> simp [RefKind.isWrapper]

namespace TypeRef

variable {ref level : TypeRef}

/-- A reference and everything that is wrapped in it, outermost first. -/
def levels : TypeRef → List TypeRef
  | .leaf kind name => [.leaf kind name]
  | .wrap kind name inner => .wrap kind name inner :: inner.levels

/-- What is wrapped in a well-formed reference is well formed. -/
theorem WellFormed.of_mem_levels (wf : ref.WellFormed) (member : level ∈ ref.levels) :
    level.WellFormed := by
  induction wf with
  | named nonempty =>
    obtain rfl := List.mem_singleton.mp member
    exact .named nonempty
  | wrap wrapper wf ih =>
    obtain rfl | inside := List.mem_cons.mp member
    · exact .wrap wrapper wf
    · exact ih inside

/-- A well-formed reference is a chain of lists and non-null marks around a name that is not
empty. -/
theorem WellFormed.exists_chain (wf : ref.WellFormed) :
    ∃ layers name, ref = chain layers name ∧
      (∀ layer ∈ layers, layer.1 = .list ∨ layer.1 = .nonNull) ∧ name ≠ "" := by
  induction wf with
  | @named name nonempty => exact ⟨[], name, rfl, List.forall_mem_nil _, nonempty⟩
  | @wrap kind label inner wrapper _ ih =>
    obtain ⟨layers, name, rfl, wrappers, nonempty⟩ := ih
    exact ⟨(kind, label) :: layers, name, rfl,
      List.forall_mem_cons.mpr ⟨RefKind.isWrapper_iff.mp wrapper, wrappers⟩, nonempty⟩

end TypeRef

/-- Every type has one of the kinds that a summary counts, and only one. -/
theorem Sdl.sum_countKind (schema : Schema) :
    TypeKind.all.foldr (fun kind total => countKind schema kind + total) 0 =
      schema.types.countP fun type => !type.isInternal := by
  unfold countKind
  induction schema.types with
  | nil => rfl
  | cons type types ih =>
    simp only [TypeKind.all, List.foldr_cons, List.foldr_nil, List.countP_cons] at ih ⊢
    cases type.isInternal <;> cases type.kind <;> simp at ih ⊢ <;> omega

namespace Snapshot

/-- Of snapshots that have been loaded, from whatever values, every reference is at each of its
levels a chain of lists and non-null marks around a name, which is spelled and gives its name and
its length. They can be compared and printed, and a summary, which reads no references, leaves out
no type that is printed. -/
theorem usable_of_load {now now' : Time.Stamp} {v v' : Value} {s t : Snapshot}
    (ok : Snapshot.load now v = .ok s) (ok' : Snapshot.load now' v' = .ok t) :
    (∀ ref ∈ s.schema.refs, ∀ level ∈ ref.levels, ∃ layers name,
      level = TypeRef.chain layers name ∧
      (∀ layer ∈ layers, layer.1 = .list ∨ layer.1 = .nonNull) ∧ name ≠ "" ∧
        level.namedType = name ∧
      level.depth = layers.length + 1 ∧ ∃ text, level.canonical = .ok text) ∧
    (∃ findings, s.compare t = .ok findings) ∧ (∃ text, s.sdl = .ok text) ∧
    TypeKind.all.foldr (fun kind total => Sdl.countKind s.schema kind + total) 0 =
      s.schema.types.countP fun type => !type.isInternal := by
  have sound : s.schema.Sound := Loaded.sound ⟨now, v, ok⟩
  have actualSound : t.schema.Sound := Loaded.sound ⟨now', v', ok'⟩
  refine ⟨fun ref member level inside => ?_, ?_, ⟨_, sdl_eq sound.refs_wellFormed⟩,
    Sdl.sum_countKind s.schema⟩
  · have wf : level.WellFormed := (sound.refs_wellFormed ref member).of_mem_levels inside
    obtain ⟨layers, name, rfl, wrappers, nonempty⟩ := wf.exists_chain
    exact ⟨layers, name, rfl, wrappers, nonempty, TypeRef.namedType_chain layers name,
      TypeRef.depth_chain layers name, wf.canonical⟩
  · obtain ⟨findings, compared, -⟩ := Schema.decides_compare sound actualSound
    exact ⟨findings, compared⟩

/-- The small schema loads from its value. Inside the type of its books there is a list, with a
mark and a name in it. -/
theorem usable_of_load_shelf :
    let known : Snapshot := ⟨.shelf, default, "", ""⟩
    let list := TypeRef.listOf (.nonNull (.named "Book"))
    Snapshot.load default known.toValue = .ok known ∧ TypeRef.nonNull list ∈ Schema.shelf.refs ∧
      list ∈ (TypeRef.nonNull list).levels ∧
      (∃ layers name, list = TypeRef.chain layers name ∧ name ≠ "" ∧ list.namedType = name ∧
        list.depth = layers.length + 1 ∧
        ∃ text, list.canonical = .ok text) ∧
      (∃ findings, known.compare known = .ok findings) ∧ ∃ text, known.sdl = .ok text := by
  intro known list
  have ok : Snapshot.load default known.toValue = .ok known :=
    load_toValue default Schema.shelf_sound Schema.shelf_shallow
  have listed : TypeRef.nonNull list ∈ Schema.shelf.refs := by decide
  have inside : list ∈ (TypeRef.nonNull list).levels := by decide
  obtain ⟨chains, compared, printed, -⟩ := usable_of_load ok ok
  obtain ⟨layers, name, spelled, -, rest⟩ := chains _ listed list inside
  exact ⟨ok, listed, inside, ⟨layers, name, spelled, rest⟩, compared, printed⟩

end Snapshot

end SchemaBaseline
