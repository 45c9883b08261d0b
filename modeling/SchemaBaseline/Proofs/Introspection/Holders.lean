import SchemaBaseline.Proofs.Introspection.Hollow

/-!
# Which types are truncated

A type entry holds references in five positions: as the types of its fields, of their arguments
and of its input fields, and as its interfaces and its possible types (`HoldsRef`). In an entry
whose children are lists of objects the search looks at these and at nothing else
(`mem_sightings_iff`). `truncation_agrees` puts together what the search finds in one reference,
which is what loading would reject, and what it finds among the entries, which are the names of
those that hold such a reference.
-/

namespace SchemaBaseline

/-- A list of objects, or nothing. -/
def Value.ListsObjects (v : Value) : Prop :=
  v = .null ∨ ∃ items, v = .list items ∧ ∀ item ∈ items, ∃ entries, item = .object entries

theorem Value.ListsObjects.exists_object {items : List Value}
    (lists : (Value.list items).ListsObjects) {item : Value} (member : item ∈ items) :
    ∃ entries, item = .object entries := by
  obtain null | ⟨_, same, objects⟩ := lists
  · cases null
  · cases same
    exact objects item member

namespace Introspection

/-! ## The references of an entry -/

/-- A type entry holds a reference. -/
inductive HoldsRef (entry : Value) : Value → Prop
  | field {fields : List Value} {field : Value} (found : entry.field "fields" = .list fields)
    (member : field ∈ fields) :
      HoldsRef entry (field.field "type")
  | argument {fields args : List Value} {field arg : Value}
    (found : entry.field "fields" = .list fields) (member : field ∈ fields)
    (argsFound : field.field "args" = .list args) (argMember : arg ∈ args) :
    HoldsRef entry (arg.field "type")
  | inputField {inputs : List Value} {input : Value}
    (found : entry.field "inputFields" = .list inputs) (member : input ∈ inputs) :
      HoldsRef entry (input.field "type")
  | interface {refs : List Value} {ref : Value} (found : entry.field "interfaces" = .list refs)
    (member : ref ∈ refs) :
      HoldsRef entry ref
  | possibleType {refs : List Value} {ref : Value}
    (found : entry.field "possibleTypes" = .list refs) (member : ref ∈ refs) :
      HoldsRef entry ref

/-- A type entry with a name, whose children are lists of objects. -/
structure IsEntry (entry : Value) : Prop where
  named : (entry.field "name").IsString
  fields : (entry.field "fields").ListsObjects
  args : ∀ fields field, entry.field "fields" = .list fields → field ∈ fields →
    (field.field "args").ListsObjects
  inputFields : (entry.field "inputFields").ListsObjects
  interfaces : (entry.field "interfaces").ListsObjects
  possibleTypes : (entry.field "possibleTypes").ListsObjects

theorem IsEntry.exists_entryName? {entry : Value} (isEntry : IsEntry entry) :
    ∃ name, entryName? entry = some name := by
  obtain ⟨s, text⟩ | ⟨codes, text⟩ := isEntry.named <;> rw [entryName?, text] <;> exact ⟨_, rfl⟩

variable {sight : Except Obstacle Value}

theorem mem_sightEach_iff {sightItem : Value → Sightings} {v : Value} (lists : v.ListsObjects) :
    sight ∈ sightEach sightItem v ↔
      ∃ items, v = .list items ∧ ∃ item ∈ items, sight ∈ sightItem item := by
  obtain rfl | ⟨items, rfl, -⟩ := lists
  · simp [sightEach, Value.isTruthy]
  · cases items <;> simp [sightEach, Value.isTruthy, walk, Value.members?]

theorem mem_sightType_iff {input : Value} (object : ∃ entries, input = .object entries) :
    sight ∈ sightType input ↔ sight = .ok (input.field "type") := by
  obtain ⟨entries, rfl⟩ := object
  exact List.mem_singleton

theorem mem_sightField_iff {field : Value} (object : ∃ entries, field = .object entries)
    (lists : (field.field "args").ListsObjects) : sight ∈ sightField field ↔
      sight = .ok (field.field "type") ∨ ∃ args, field.field "args" = .list args ∧
        ∃ arg ∈ args, sight = .ok (arg.field "type") := by
  obtain ⟨entries, rfl⟩ := object
  rw [sightField, List.mem_cons, mem_sightEach_iff lists]
  refine or_congr_right (exists_congr fun args => and_congr_right fun found =>
    exists_congr fun arg => and_congr_right fun member => ?_)
  rw [found] at lists
  exact mem_sightType_iff (lists.exists_object member)

/-- The search looks at the references that an entry holds. -/
theorem mem_sightings_iff {entry : Value} (isEntry : IsEntry entry) :
    sight ∈ sightings entry ↔ ∃ ref, sight = .ok ref ∧ HoldsRef entry ref := by
  have fieldObject : ∀ {fields field}, entry.field "fields" = .list fields → field ∈ fields →
      ∃ entries, field = .object entries :=
    fun found member => (found ▸ isEntry.fields).exists_object member
  have inputObject : ∀ {inputs input}, entry.field "inputFields" = .list inputs → input ∈ inputs →
      ∃ entries, input = .object entries :=
        fun found member => (found ▸ isEntry.inputFields).exists_object member
  simp only [sightings, List.mem_append, mem_sightEach_iff isEntry.fields,
    mem_sightEach_iff isEntry.inputFields, mem_sightEach_iff isEntry.interfaces,
    mem_sightEach_iff isEntry.possibleTypes, List.mem_singleton]
  constructor
  · rintro (((⟨fields, found, field, member, sighted⟩ | ⟨inputs, found, input, member, sighted⟩) |
      ⟨refs, found, ref, member, rfl⟩) | ⟨refs, found, ref, member, rfl⟩)
    · obtain rfl | ⟨args, argsFound, arg, argMember, rfl⟩ :=
        (mem_sightField_iff (fieldObject found member)
          (isEntry.args fields field found member)).mp sighted
      · exact ⟨_, rfl, .field found member⟩
      · exact ⟨_, rfl, .argument found member argsFound argMember⟩
    · exact ⟨_, (mem_sightType_iff (inputObject found member)).mp sighted,
        .inputField found member⟩
    · exact ⟨ref, rfl, .interface found member⟩
    · exact ⟨ref, rfl, .possibleType found member⟩
  · rintro ⟨ref, rfl, holds⟩
    cases holds with
    | @field fields field found member =>
      exact .inl (.inl (.inl ⟨fields, found, field, member,
        (mem_sightField_iff (fieldObject found member)
        (isEntry.args fields field found member)).mpr (.inl rfl)⟩))
    | @argument fields args field arg found member argsFound argMember =>
      exact .inl (.inl (.inl ⟨fields, found, field, member,
        (mem_sightField_iff (fieldObject found member)
        (isEntry.args fields field found member)).mpr
        (.inr ⟨args, argsFound, arg, argMember, rfl⟩)⟩))
    | @inputField inputs input found member =>
      exact .inl (.inl (.inr ⟨inputs, found, input, member,
        (mem_sightType_iff (inputObject found member)).mpr rfl⟩))
    | @interface refs ref found member => exact .inl (.inr ⟨refs, found, ref, member, rfl⟩)
    | @possibleType refs ref found member => exact .inr ⟨refs, found, ref, member, rfl⟩

/-! ## Truncated entries -/

/-- References whose kinds can be looked up are searched to the end, or up to one that is
truncated. -/
theorem exists_anyTruncated {sights : Sightings}
    (refs : ∀ sight ∈ sights, ∃ ref, sight = .ok ref ∧ Readable ref) :
    ∃ truncated, anyTruncated sights = .ok truncated ∧
      (truncated = true ↔ ∃ ref, .ok ref ∈ sights ∧ isTruncated ref = .ok true) := by
  induction sights with
  | nil => exact ⟨false, rfl, by simp⟩
  | cons sight rest ih =>
    obtain ⟨⟨ref, rfl, readable⟩, others⟩ := List.forall_mem_cons.mp refs
    obtain ⟨truncated, searched⟩ := readable.exists_isTruncated
    obtain ⟨later, searchedLater, laterIff⟩ := ih others
    cases truncated with
    | true =>
      exact ⟨true, by rw [anyTruncated, searched],
        iff_of_true rfl ⟨ref, List.mem_cons_self, searched⟩⟩
    | false =>
      refine ⟨later, by rw [anyTruncated, searched, searchedLater], laterIff.trans ?_⟩
      constructor
      · rintro ⟨other, member, found⟩
        exact ⟨other, List.mem_cons_of_mem _ member, found⟩
      · rintro ⟨other, member, found⟩
        obtain same | member := List.mem_cons.mp member
        · cases same
          cases searched.symm.trans found
        · exact ⟨other, member, found⟩

/-- The search in an entry tells whether the entry holds a truncated reference. -/
theorem IsEntry.exists_anyTruncated {entry : Value} (isEntry : IsEntry entry)
    (readable : ∀ ref, HoldsRef entry ref → Readable ref) :
    ∃ truncated, anyTruncated (sightings entry) = .ok truncated ∧
      (truncated = true ↔ ∃ ref, HoldsRef entry ref ∧ isTruncated ref = .ok true) := by
  have refs : ∀ sight ∈ sightings entry, ∃ ref, sight = .ok ref ∧ Readable ref := by
    intro sight member
    obtain ⟨ref, rfl, holds⟩ := (mem_sightings_iff isEntry).mp member
    exact ⟨ref, rfl, readable ref holds⟩
  obtain ⟨truncated, searched, found⟩ := Introspection.exists_anyTruncated refs
  refine ⟨truncated, searched, found.trans (exists_congr fun ref => and_congr_left fun _ => ?_)⟩
  rw [mem_sightings_iff isEntry]
  constructor
  · rintro ⟨_, same, holds⟩
    cases same
    exact holds
  · exact fun holds => ⟨ref, rfl, holds⟩

/-- The search among entries gives the names of those that hold a truncated reference. -/
theorem exists_truncatedNames {types : List Value}
    (entries : ∀ entry ∈ types, IsEntry entry ∧ ∀ ref, HoldsRef entry ref → Readable ref) :
    ∃ names, truncatedNames types = .ok names ∧ names.Pairwise (· < ·) ∧ ∀ name, name ∈ names ↔
      ∃ entry ∈ types, entryName? entry = some name ∧ ∃ ref, HoldsRef entry ref ∧
        isTruncated ref = .ok true := by
  have searchable : Searchable types := by
    intro entry member
    obtain ⟨isEntry, readable⟩ := entries entry member
    obtain ⟨name, named⟩ := isEntry.exists_entryName?
    obtain ⟨truncated, searched, -⟩ := isEntry.exists_anyTruncated readable
    exact ⟨name, truncated, named, searched⟩
  cases searched : truncatedNames types with
  | error fault => exact absurd searchable (not_searchable_of_truncatedNames searched)
  | ok names =>
    have pending := pending_of_truncatedNames searched
    refine ⟨names, rfl, pending.sorted, fun name => (pending.mem_iff name).trans
      (exists_congr fun entry => ?_)⟩
    refine and_congr_right fun member => and_congr_right fun _ => ?_
    obtain ⟨isEntry, readable⟩ := entries entry member
    obtain ⟨truncated, here, found⟩ := isEntry.exists_anyTruncated readable
    rw [here, ← found, Except.ok.injEq]

/-- The search for truncated references agrees with loading. A reference in which every object has
a text for its kind and names what is inside it in one way is found to be truncated just if it has
a wrapper around nothing; then it is not loaded, and whenever loading complains that something is
missing inside, it is found. Among type entries with names whose children are lists of objects the
search gives the names of those, in rising order, that hold a truncated reference as the type of a
field, argument or input field, or among their interfaces or possible types; all that is asked of
the references is that no kind is a list or an object. -/
theorem truncation_agrees :
    (∀ ref, IsRef ref → ∃ truncated, isTruncated ref = .ok truncated ∧
      (truncated = true ↔ ∃ node, NodeOf ref node ∧ IsHollow node) ∧
      (truncated = true → ¬ ∃ loaded, TypeRef.load ref = .ok loaded) ∧
      ((∃ issue ∈ (TypeRef.load ref).issues, issue.MissesInner) → truncated = true)) ∧
    ∀ types, (∀ entry ∈ types, IsEntry entry ∧ ∀ ref, HoldsRef entry ref → Readable ref) →
      ∃ names, truncatedNames types = .ok names ∧ names.Pairwise (· < ·) ∧ ∀ name, name ∈ names ↔
        ∃ entry ∈ types, entryName? entry = some name ∧ ∃ ref, HoldsRef entry ref ∧
          isTruncated ref = .ok true := by
  refine ⟨fun ref isRef => ?_, fun types => exists_truncatedNames⟩
  obtain ⟨truncated, searched⟩ := isRef.readable.exists_isTruncated
  refine ⟨truncated, searched, ?_, ?_, ?_⟩
  · rw [← isTruncated_eq_true_iff isRef.readable, searched, Except.ok.injEq]
  · rintro rfl
    exact TypeRef.not_load_of_isTruncated isRef searched
  · rintro ⟨issue, reported, misses⟩
    exact Except.ok.inj (searched.symm.trans
      (TypeRef.isTruncated_of_missesInner isRef reported misses))

/-- Of two entries one has an argument whose type is a non-null mark around a list of nothing. The
search gives its name and not the other one, and the type of the argument is not loaded. -/
theorem truncation_agrees_shelf :
    let hollow : Value := .object [("kind", .text "LIST"), ("name", .null), ("ofType", .null)]
    let mark : Value := .object [("kind", .text "NON_NULL"), ("ofType", hollow)]
    let scalar : Value := .object [("kind", .text "SCALAR"), ("name", .text "ID")]
    let argument : Value := .object [("name", .text "author"), ("type", mark)]
    let books : Value :=
      .object [("name", .text "books"), ("args", .list [argument]), ("type", scalar)]
    let shelf : Value :=
      .object [("name", .text "Shelf"), ("fields", .list [books]), ("interfaces", .null)]
    let book : Value := .object [("name", .text "Book"), ("interfaces", .list [scalar])]
    IsRef mark ∧ (∃ issue ∈ (TypeRef.load mark).issues, issue.MissesInner) ∧
      isTruncated mark = .ok true ∧
      (¬ ∃ loaded, TypeRef.load mark = .ok loaded) ∧
      (∀ entry ∈ [shelf, book], IsEntry entry ∧ ∀ ref, HoldsRef entry ref → Readable ref) ∧
      ∃ names, truncatedNames [shelf, book] = .ok names ∧ Value.codesOf "Shelf" ∈ names ∧
        Value.codesOf "Book" ∉ names := by
  intro hollow mark scalar argument books shelf book
  have isRefScalar : IsRef scalar := isRef_object (.inl ⟨_, rfl⟩) rfl isRef_null
  have isRefMark : IsRef mark :=
    isRef_object (.inl ⟨_, rfl⟩) rfl (isRef_object (.inl ⟨_, rfl⟩) rfl isRef_null)
  have misses : ∃ issue ∈ (TypeRef.load mark).issues, issue.MissesInner :=
    ⟨_, List.mem_singleton.mpr rfl, "LIST type reference ", rfl⟩
  obtain ⟨truncated, searched, -, notLoaded, reported⟩ := truncation_agrees.1 mark isRefMark
  obtain rfl := reported misses
  have oneObject (entries : Entries) : (Value.list [.object entries]).ListsObjects :=
    .inr ⟨_, rfl, List.forall_mem_singleton.mpr ⟨entries, rfl⟩⟩
  have isShelf : IsEntry shelf := by
    refine ⟨.inl ⟨_, rfl⟩, oneObject _, fun fields field found member => ?_, .inl rfl,
      .inl rfl, .inl rfl⟩
    obtain rfl : [books] = fields := Value.list.inj found
    obtain rfl := List.mem_singleton.mp member
    exact oneObject _
  have isBook : IsEntry book := by
    refine ⟨.inl ⟨_, rfl⟩, .inl rfl, fun fields field found => ?_, .inl rfl,
      oneObject _, .inl rfl⟩
    cases found
  have heldByShelf : ∀ ref, HoldsRef shelf ref → ref = scalar ∨ ref = mark := by
    rintro ref (⟨found, member⟩ | ⟨found, member, argsFound, argMember⟩ | ⟨found, -⟩ |
      ⟨found, -⟩ | ⟨found, -⟩)
    · obtain rfl : [books] = _ := Value.list.inj found
      obtain rfl := List.mem_singleton.mp member
      exact .inl rfl
    · obtain rfl : [books] = _ := Value.list.inj found
      obtain rfl := List.mem_singleton.mp member
      obtain rfl : [argument] = _ := Value.list.inj argsFound
      obtain rfl := List.mem_singleton.mp argMember
      exact .inr rfl
    all_goals cases found
  have heldByBook : ∀ ref, HoldsRef book ref → ref = scalar := by
    rintro ref (⟨found, -⟩ | ⟨found, -, -, -⟩ | ⟨found, -⟩ | ⟨found, member⟩ | ⟨found, -⟩)
    case interface =>
      obtain rfl : [scalar] = _ := Value.list.inj found
      exact List.mem_singleton.mp member
    all_goals cases found
  have entries :
      ∀ entry ∈ [shelf, book], IsEntry entry ∧ ∀ ref, HoldsRef entry ref → Readable ref := by
    refine List.forall_mem_cons.mpr
      ⟨⟨isShelf, fun ref holds => ?_⟩,
      List.forall_mem_singleton.mpr ⟨isBook, fun ref holds => ?_⟩⟩
    · obtain rfl | rfl := heldByShelf ref holds
      · exact isRefScalar.readable
      · exact isRefMark.readable
    · obtain rfl := heldByBook ref holds
      exact isRefScalar.readable
  refine ⟨isRefMark, misses, searched, notLoaded rfl, entries, ?_⟩
  obtain ⟨names, found, -, memIff⟩ := truncation_agrees.2 [shelf, book] entries
  refine ⟨names, found, (memIff (Value.codesOf "Shelf")).mpr ?_,
    (memIff (Value.codesOf "Book")).not.mpr ?_⟩
  · have holds : HoldsRef shelf (argument.field "type") :=
      .argument rfl (List.mem_singleton.mpr rfl) rfl (List.mem_singleton.mpr rfl)
    exact ⟨shelf, List.mem_cons_self, rfl, mark, holds, searched⟩
  · rintro ⟨entry, member, named, ref, holds, truncated⟩
    obtain rfl | last := List.mem_cons.mp member
    · have same : Value.codesOf "Shelf" = Value.codesOf "Book" := Option.some.inj named
      exact absurd same (by decide)
    · obtain rfl := List.mem_singleton.mp last
      obtain rfl := heldByBook ref holds
      cases truncated

end Introspection

end SchemaBaseline
