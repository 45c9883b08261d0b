import SchemaBaseline.Compat.Compare

/-!
# What a spelling tells of a reference

`TypeRef.spelling` is the text that `TypeRef.canonical` gives for a well-formed reference:
brackets and marks around the name of the named type. Two things about a reference it does not
tell. A wrapper may carry a name of its own, its label, which is not written; and the name of a
named type may read like a wrapped reference, since loading asks of it only that it is not empty.

`eq_iff_canonical_eq` says that nothing else is lost: the spelling together with the labels
decides which reference it is, and the spelling alone does so among references that keep clear of
both (`TypeRef.Plain`).
-/

namespace SchemaBaseline.TypeRef

/-- The kinds of the wrappers, outermost first. -/
def wrappers : TypeRef → List RefKind
  | .leaf _ _ => []
  | .wrap kind _ inner => kind :: inner.wrappers

/-- The names that the wrappers carry, outermost first. -/
def labels : TypeRef → List (Option String)
  | .leaf _ _ => []
  | .wrap _ name inner => name :: inner.labels

/-- Wrappers with the names that they carry, outermost first, around a named type. -/
def chain (layers : List (RefKind × Option String)) (name : String) : TypeRef :=
  layers.foldr (fun layer inner => .wrap layer.1 layer.2 inner) (.named name)

/-- What is written for a reference if it is well formed. -/
def spelling : TypeRef → List Char
  | .leaf _ name => (name.getD "").toList
  | .wrap kind _ inner => wrapSpelling kind inner.spelling

variable {a b ref : TypeRef}

theorem WellFormed.canonicalChars_eq (wf : ref.WellFormed) :
    ref.canonicalChars = .ok ref.spelling := by
  induction wf with
  | named nonempty => simp [TypeRef.canonicalChars, spelling, nonempty]
  | @wrap kind name inner wrapper _ ih =>
    cases kind <;> simp_all [TypeRef.canonicalChars, spelling, RefKind.isWrapper]

theorem WellFormed.canonical_eq (wf : ref.WellFormed) :
    ref.canonical = .ok (String.ofList ref.spelling) := by
  rw [TypeRef.canonical, wf.canonicalChars_eq]

theorem canonical_eq_canonical_iff (wf : a.WellFormed) (wf' : b.WellFormed) :
    a.canonical = b.canonical ↔ a.spelling = b.spelling := by
  rw [wf.canonical_eq, wf'.canonical_eq, Except.ok.injEq, String.ofList_inj]

theorem WellFormed.spelling_ne_nil (wf : ref.WellFormed) : ref.spelling ≠ [] := by
  cases wf with
  | named nonempty => simpa [spelling] using nonempty
  | @wrap kind => cases kind <;> simp [spelling, wrapSpelling]

/-! ## Wrappers -/

theorem chain_cons (layer : RefKind × Option String) (layers : List (RefKind × Option String))
    (name : String) :
    chain (layer :: layers) name = .wrap layer.1 layer.2 (chain layers name) :=
  rfl

theorem namedType_chain (layers : List (RefKind × Option String)) (name : String) :
    (chain layers name).namedType = name := by
  induction layers with
  | nil => rfl
  | cons layer layers ih => rw [chain_cons, namedType, ih]

theorem wrappers_chain (layers : List (RefKind × Option String)) (name : String) :
    (chain layers name).wrappers = layers.map Prod.fst := by
  induction layers with
  | nil => rfl
  | cons layer layers ih => rw [chain_cons, wrappers, ih, List.map_cons]

theorem depth_chain (layers : List (RefKind × Option String)) (name : String) :
    (chain layers name).depth = layers.length + 1 := by
  induction layers with
  | nil => rfl
  | cons layer layers ih => rw [chain_cons, depth, ih, List.length_cons]

/-- The mark that a wrapper puts behind what it wraps. -/
def closingMark : RefKind → Char
  | .list => ']'
  | _ => '!'

theorem getLast?_wrapSpelling (kind : RefKind) (inner : List Char) :
    (wrapSpelling kind inner).getLast? = some (closingMark kind) := by
  cases kind <;> exact List.getLast?_concat

/-- What is written around a spelling tells the wrapper. -/
theorem wrapSpelling_inj {kind kind' : RefKind} {inner inner' : List Char}
    (wrapper : kind.isWrapper = true) (wrapper' : kind'.isWrapper = true)
    (same : wrapSpelling kind inner = wrapSpelling kind' inner') :
    kind = kind' ∧ inner = inner' := by
  have last := congrArg List.getLast? same
  rw [getLast?_wrapSpelling, getLast?_wrapSpelling] at last
  cases kind <;> cases kind' <;> simp_all [wrapSpelling, RefKind.isWrapper, closingMark]

/-- The brackets in front of the name, one for each list. -/
def openingMarks (kinds : List RefKind) : List Char :=
  (kinds.filter fun kind => kind == .list).map fun _ => '['

/-- A spelling is the name of the named type between brackets and marks. -/
theorem spelling_eq (ref : TypeRef) :
    ref.spelling = openingMarks ref.wrappers ++ ref.namedType.toList ++
      ref.wrappers.reverse.map closingMark := by
  induction ref with
  | leaf kind name => simp [spelling, wrappers, openingMarks, namedType]
  | wrap kind name inner ih =>
    rw [spelling, ih]
    cases kind <;> simp [wrappers, openingMarks, namedType, wrapSpelling, closingMark]

theorem WellFormed.isWrapper_of_mem (wf : ref.WellFormed) :
    ∀ kind ∈ ref.wrappers, kind.isWrapper = true := by
  induction wf with
  | named => exact List.forall_mem_nil _
  | wrap wrapper _ ih => exact List.forall_mem_cons.mpr ⟨wrapper, ih⟩

/-- The marks behind the name tell the wrappers. -/
theorem map_closingMark_inj {kinds kinds' : List RefKind}
    (wrapper : ∀ kind ∈ kinds, kind.isWrapper = true)
    (wrapper' : ∀ kind ∈ kinds', kind.isWrapper = true)
    (same : kinds.map closingMark = kinds'.map closingMark) : kinds = kinds' := by
  have told {kind kind' : RefKind} (w : kind.isWrapper = true) (w' : kind'.isWrapper = true)
      (mark : closingMark kind = closingMark kind') : kind = kind' := by
    cases kind <;> cases kind' <;> simp_all [RefKind.isWrapper, closingMark]
  induction kinds generalizing kinds' with
  | nil => exact (List.map_eq_nil_iff.mp same.symm).symm
  | cons kind kinds ih =>
    cases kinds' with
    | nil => cases same
    | cons kind' kinds' =>
      obtain ⟨mark, marks⟩ := List.cons.inj same
      rw [told (wrapper kind List.mem_cons_self) (wrapper' kind' List.mem_cons_self) mark,
        ih (fun k member => wrapper k (List.mem_cons_of_mem kind member))
          (fun k member => wrapper' k (List.mem_cons_of_mem kind' member)) marks]

/-! ## Names that read like a wrapped reference -/

/-- A name that reads like a wrapped reference. -/
def LooksWrapped (name : String) : Prop :=
  ∃ kind inner, kind.isWrapper = true ∧ inner ≠ [] ∧ name.toList = wrapSpelling kind inner

/-- Such a name has a mark or a bracket at its end. -/
theorem LooksWrapped.getLast? {name : String} (looks : LooksWrapped name) :
    name.toList.getLast? = some '!' ∨ name.toList.getLast? = some ']' := by
  obtain ⟨kind, inner, wrapper, -, spelled⟩ := looks
  rw [spelled, getLast?_wrapSpelling]
  cases kind <;> simp [closingMark]

/-- The wrappers carry no names, and the named type has no name that reads like a wrapped
reference. -/
structure Plain (ref : TypeRef) : Prop where
  unlabelled : ∀ label ∈ ref.labels, label = none
  unwrapped : ¬ LooksWrapped ref.namedType

theorem Plain.inner {kind : RefKind} {name : Option String} (plain : (wrap kind name ref).Plain) :
    ref.Plain where
  unlabelled label member := plain.unlabelled label (List.mem_cons_of_mem name member)
  unwrapped := plain.unwrapped

theorem looksWrapped_of_spelling {kind : RefKind} {label : Option String} {name : String}
    (wrapper : kind.isWrapper = true) (wf : ref.WellFormed)
    (same : (named name).spelling = (wrap kind label ref).spelling) : LooksWrapped name :=
  ⟨kind, ref.spelling, wrapper, wf.spelling_ne_nil, same⟩

/-! ## From the spelling to the reference -/

theorem eq_of_spelling_of_labels (wf : a.WellFormed) (wf' : b.WellFormed)
    (spelled : a.spelling = b.spelling) (labelled : a.labels = b.labels) : a = b := by
  induction wf generalizing b with
  | @named name nonempty =>
    cases wf' with
    | @named name' =>
      obtain rfl : name = name' := String.toList_inj.mp spelled
      rfl
    | wrap => cases labelled
  | @wrap kind label inner wrapper _ ih =>
    cases wf' with
    | named => cases labelled
    | @wrap kind' label' inner' wrapper' wf' =>
      obtain ⟨rfl, inside⟩ := wrapSpelling_inj wrapper wrapper' spelled
      obtain ⟨sameLabel, labelledInside⟩ := List.cons.inj labelled
      rw [sameLabel, ih wf' inside labelledInside]

/-- References that hide nothing have the same labels, namely none, if they are spelled alike. -/
theorem labels_eq_of_spelling (wf : a.WellFormed) (wf' : b.WellFormed) (plain : a.Plain)
    (plain' : b.Plain) (spelled : a.spelling = b.spelling) : a.labels = b.labels := by
  induction wf generalizing b with
  | @named name nonempty =>
    cases wf' with
    | named => rfl
    | wrap wrapper' wf' =>
      exact absurd (looksWrapped_of_spelling wrapper' wf' spelled) plain.unwrapped
  | @wrap kind label inner wrapper wf ih =>
    cases wf' with
    | named => exact absurd (looksWrapped_of_spelling wrapper wf spelled.symm) plain'.unwrapped
    | @wrap kind' label' inner' wrapper' wf' =>
      obtain ⟨rfl, inside⟩ := wrapSpelling_inj wrapper wrapper' spelled
      have none : label = none := plain.unlabelled label List.mem_cons_self
      have none' : label' = Option.none := plain'.unlabelled label' List.mem_cons_self
      rw [labels, labels, none, none', ih wf' plain.inner plain'.inner inside]

/-- Two references that loading accepts are the same just if they are spelled alike and their
wrappers carry the same names. Where no wrapper carries a name and no named type has a name that
reads like a wrapped reference, the spelling alone decides. -/
theorem eq_iff_canonical_eq (wf : a.WellFormed) (wf' : b.WellFormed) :
    (a = b ↔ a.canonical = b.canonical ∧ a.labels = b.labels) ∧
      (a.Plain → b.Plain → (a.canonical = b.canonical ↔ a = b)) := by
  rw [canonical_eq_canonical_iff wf wf']
  refine ⟨⟨?_, fun ⟨spelled, labelled⟩ => eq_of_spelling_of_labels wf wf' spelled labelled⟩,
    fun plain plain' => ⟨fun spelled => ?_, ?_⟩⟩
  · rintro rfl
    exact ⟨rfl, rfl⟩
  · exact eq_of_spelling_of_labels wf wf' spelled
      (labels_eq_of_spelling wf wf' plain plain' spelled)
  · rintro rfl
    rfl

/-- A list of non-null names and a list of names, which are spelled differently. -/
theorem eq_iff_canonical_eq_lists :
    let strict := listOf (nonNull (named "Int"))
    let loose := listOf (named "Int")
    strict.WellFormed ∧ loose.WellFormed ∧ strict.Plain ∧ loose.Plain ∧
      strict.canonical ≠ loose.canonical := by
  intro strict loose
  have strictWf : strict.WellFormed := by decide
  have looseWf : loose.WellFormed := by decide
  have unwrapped : ¬ LooksWrapped "Int" := fun looks => absurd looks.getLast? (by decide)
  have strictPlain : strict.Plain := ⟨by decide, unwrapped⟩
  have loosePlain : loose.Plain := ⟨by decide, unwrapped⟩
  have decides := (eq_iff_canonical_eq strictWf looseWf).2 strictPlain loosePlain
  exact ⟨strictWf, looseWf, strictPlain, loosePlain,
    fun same => absurd (decides.mp same) (by decide)⟩

/-- A type whose name is `[Int]` is spelled like a list of `Int`, and the comparison takes the one
for the other. -/
theorem canonical_bracketed :
    let bracketed := named "[Int]"
    let list := listOf (named "Int")
    bracketed.WellFormed ∧ list.WellFormed ∧ bracketed ≠ list ∧
      bracketed.canonical = list.canonical ∧
      compareRefs "Query.sizes" "Field 'Query.sizes'" list bracketed = .ok .none := by
  intro bracketed list
  have bracketedWf : bracketed.WellFormed := by decide
  have listWf : list.WellFormed := by decide
  have same : bracketed.canonical = list.canonical :=
    (canonical_eq_canonical_iff bracketedWf listWf).mpr (by decide)
  refine ⟨bracketedWf, listWf, by decide, same, ?_⟩
  rw [compareRefs, same, listWf.canonical_eq]
  rfl

end SchemaBaseline.TypeRef
