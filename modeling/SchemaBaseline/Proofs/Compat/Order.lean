import SchemaBaseline.Proofs.Compat.Verdict

/-!
# Compatibility is transitive

`Snapshot.Accepts` says that a comparison comes to an end and is passed. If one snapshot accepts a
second one and that a third one, the first accepts the third (`Snapshot.accepts_trans`), so that a
baseline can be moved forward to any schema that it accepts: whatever satisfies the new baseline
satisfies the old one too.

The relation is built up from `Kept`, and `Kept.trans` is the one step that all levels share. What
the middle list is asked for is asked of *every* part in it, also of those that repeat a name;
only the part that the first comparison found is needed.
-/

namespace SchemaBaseline

variable {α : Type}

/-! ## One level after the other -/

theorem SameSpelling.trans {a b c : TypeRef} (first : SameSpelling a b)
    (second : SameSpelling b c) : SameSpelling a c := by
  obtain ⟨spelling, spelledA, spelledB⟩ := first
  obtain ⟨other, spelledB', spelledC⟩ := second
  obtain rfl : spelling = other := Except.ok.inj (spelledB.symm.trans spelledB')
  exact ⟨spelling, spelledA, spelledC⟩

/-- What is kept twice is kept, if agreement can be handed on. -/
theorem Kept.trans {nameOf : α → String} {Agree : α → α → Prop} {expected middle actual : List α}
    (first : Kept nameOf Agree expected middle) (second : Kept nameOf Agree middle actual)
    (agreeTrans : ∀ x y z, Agree x y → Agree y z → Agree x z) :
    Kept nameOf Agree expected actual := by
  intro part member
  obtain ⟨link, linkFirst, agrees⟩ := first part member
  obtain ⟨found, foundFirst, agrees'⟩ := second link linkFirst.mem
  rw [linkFirst.name_eq] at foundFirst
  exact ⟨found, foundFirst, agreeTrans part link found agrees agrees'⟩

theorem InputValue.Agrees.trans {a b c : InputValue} (first : a.Agrees b) (second : b.Agrees c) :
    a.Agrees c :=
  SameSpelling.trans first second

theorem FieldDef.Agrees.trans {a b c : FieldDef} (first : a.Agrees b) (second : b.Agrees c) :
    a.Agrees c :=
  ⟨first.1.trans second.1, first.2.trans second.2 fun _ _ _ => InputValue.Agrees.trans⟩

/-- The middle type has to be of the same kind, for it is the kind that says which parts count. -/
theorem NamedType.PartsKept.trans {expected middle actual : NamedType}
    (kind : middle.kind = expected.kind) (first : expected.PartsKept middle)
    (second : middle.PartsKept actual) : expected.PartsKept actual := by
  unfold NamedType.PartsKept at first second ⊢
  rw [kind] at second
  cases known : expected.kind with
  | object | interface =>
      rw [known] at first second
      exact Kept.trans first second fun _ _ _ => FieldDef.Agrees.trans
  | enum =>
      rw [known] at first second
      intro value member
      obtain ⟨link, linkMember, named⟩ := first value member
      obtain ⟨found, foundMember, named'⟩ := second link linkMember
      exact ⟨found, foundMember, named'.trans named⟩
  | inputObject =>
      rw [known] at first second
      exact Kept.trans first second fun _ _ _ => InputValue.Agrees.trans
  | scalar | union => trivial

theorem Schema.Compatible.trans {expected middle actual : Schema}
    (first : expected.Compatible middle)
    (second : middle.Compatible actual) : expected.Compatible actual where
  query_kept := by
    rcases first.query_kept with absent | same
    · exact .inl absent
    · rw [← same]
      exact second.query_kept
  types_kept := by
    intro type member external
    obtain ⟨link, linkMember, named, kind, kept⟩ := first.types_kept type member external
    -- The middle type has the name of the expected one, so it is no internal type either.
    rw [← named] at external
    obtain ⟨found, foundMember, named', kind', kept'⟩ :=
      second.types_kept link linkMember external
    exact ⟨found, foundMember, named'.trans named, kind'.trans kind, kept.trans kind kept'⟩

/-! ## Snapshots -/

/-- A comparison that comes to an end and is passed. -/
def Snapshot.Accepts (expected actual : Snapshot) : Prop :=
  ∃ found, expected.compare actual = .ok found ∧ found.isValid = true

instance (expected actual : Snapshot) : Decidable (expected.Accepts actual) :=
  match compared : expected.compare actual with
  | .ok found =>
    decidable_of_iff (found.isValid = true)
      ⟨fun valid => ⟨found, compared, valid⟩,
        fun ⟨_, ok, valid⟩ => by rwa [Except.ok.inj (compared.symm.trans ok)]⟩
  | .error _ => .isFalse fun ⟨_, ok, _⟩ => nomatch compared.symm.trans ok

theorem Snapshot.accepts_iff_compatible {expected actual : Snapshot}
    (sound : expected.schema.Sound) (actualSound : actual.schema.Sound) :
    expected.Accepts actual ↔ expected.schema.Compatible actual.schema := by
  obtain ⟨found, ok, errors⟩ := Schema.decides_compare sound actualSound
  constructor
  · rintro ⟨other, ok', valid⟩
    obtain rfl : found = other := Except.ok.inj (ok.symm.trans ok')
    exact errors.mp (Findings.isValid_iff.mp valid)
  · exact fun compatible => ⟨found, ok, Findings.isValid_iff.mpr (errors.mpr compatible)⟩

/-- A loaded snapshot accepts whatever is accepted by one that it accepts. -/
theorem Snapshot.accepts_trans {expected middle actual : Snapshot} (loaded : expected.Loaded)
    (middleLoaded : middle.Loaded) (actualLoaded : actual.Loaded)
    (first : expected.Accepts middle) (second : middle.Accepts actual) :
    expected.Accepts actual := by
  have compatible : expected.schema.Compatible middle.schema :=
    (accepts_iff_compatible loaded.sound middleLoaded.sound).mp first
  have compatible' : middle.schema.Compatible actual.schema :=
    (accepts_iff_compatible middleLoaded.sound actualLoaded.sound).mp second
  exact (accepts_iff_compatible loaded.sound actualLoaded.sound).mpr
    (compatible.trans compatible')

/-- The small schema accepts its grown form, and that one a form that has grown further, which
accepts the small schema no more. -/
theorem Snapshot.accepts_trans_shelf :
    let known : Snapshot := ⟨.shelf, default, "", ""⟩
    let grown : Snapshot := ⟨.grownShelf, default, "", ""⟩
    let further : Snapshot := ⟨{ Schema.grownShelf with
      subscriptionType := some "Updates"
      types := Schema.grownShelf.types.reverse }, default, "", "v2"⟩
    known.Loaded ∧ grown.Loaded ∧ further.Loaded ∧ known.Accepts grown ∧ grown.Accepts further ∧
      ¬ further.Accepts known ∧ known.Accepts further := by
  intro known grown further
  have knownLoaded : known.Loaded := loaded_of_sound Schema.shelf_sound Schema.shelf_shallow
  have grownLoaded : grown.Loaded := loaded_of_sound (by decide) (by decide)
  have furtherLoaded : further.Loaded := loaded_of_sound (by decide) (by decide)
  have first : known.Accepts grown := by decide
  have second : grown.Accepts further := by decide
  exact ⟨knownLoaded, grownLoaded, furtherLoaded, first, second, by decide,
    accepts_trans knownLoaded grownLoaded furtherLoaded first second⟩

end SchemaBaseline
