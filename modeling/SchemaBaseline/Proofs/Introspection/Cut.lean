import SchemaBaseline.Introspection.Truncation
import SchemaBaseline.Proofs.Schema.Shown

/-!
# Cut references are found

A query that asks for `n` levels sees every reference cut after its first `n` nodes
(`TypeRef.cut`, `Schema.cut`). What is left of a longer one ends in a wrapper around nothing, and
this is what a client looks for: `truncatedNames_of_shown` says that the search in values that
show cut types succeeds and finds exactly the types with a reference of more than `n` nodes,
whichever of the five positions of a type the reference is in.
-/

namespace SchemaBaseline

/-! ## Cutting -/

/-- The first nodes of a reference, at least one. -/
def TypeRef.cut : Nat → TypeRef → TypeRef
  | _, .leaf kind name => .leaf kind name
  | levels, .wrap kind name inner =>
    if levels ≤ 1 then .leaf kind name else .wrap kind name (inner.cut (levels - 1))

/-- An argument or input field with its reference cut. -/
def InputValue.cut (levels : Nat) (input : InputValue) : InputValue :=
  { input with type := input.type.cut levels }

/-- A field with its references cut. -/
def FieldDef.cut (levels : Nat) (field : FieldDef) : FieldDef :=
  { field with args := field.args.map (InputValue.cut levels), type := field.type.cut levels }

/-- A type with all of its references cut. -/
def NamedType.cut (levels : Nat) (type : NamedType) : NamedType :=
  { type with
    fields := type.fields.map (FieldDef.cut levels)
    inputFields := type.inputFields.map (InputValue.cut levels)
    interfaces := type.interfaces.map (TypeRef.cut levels)
    possibleTypes := type.possibleTypes.map (TypeRef.cut levels) }

/-- A schema with all of its references cut. -/
def Schema.cut (levels : Nat) (schema : Schema) : Schema :=
  { schema with types := schema.types.map (NamedType.cut levels) }

theorem TypeRef.cut_of_depth_le {levels : Nat} {ref : TypeRef} (short : ref.depth ≤ levels) :
    ref.cut levels = ref := by
  induction ref generalizing levels with
  | leaf kind name => rfl
  | wrap kind name inner ih =>
      have positive := inner.depth_pos
      rw [depth] at short
      rw [cut, if_neg (by omega), ih (by omega)]

theorem NamedType.refs_cut (levels : Nat) (type : NamedType) :
    (type.cut levels).refs = type.refs.map (TypeRef.cut levels) := by
  simp [refs, cut, FieldDef.cut, InputValue.cut, List.flatMap_map, List.map_flatMap,
    Function.comp_def]

theorem List.map_eq_self {α : Type} {f : α → α} {parts : List α}
    (each : ∀ part ∈ parts, f part = part) :
    parts.map f = parts :=
  (List.map_congr_left each).trans (List.map_id' parts)

theorem InputValue.cut_of_depth_le {levels : Nat} {input : InputValue}
    (short : input.type.depth ≤ levels) :
    input.cut levels = input := by
  rw [cut, TypeRef.cut_of_depth_le short]

theorem FieldDef.cut_of_depth_le {levels : Nat} {field : FieldDef}
    (short : field.type.depth ≤ levels)
    (argsShort : ∀ arg ∈ field.args, arg.type.depth ≤ levels) : field.cut levels = field := by
  rw [cut, TypeRef.cut_of_depth_le short,
    List.map_eq_self fun arg member => InputValue.cut_of_depth_le (argsShort arg member)]

/-- Cutting changes nothing about a type whose references are short enough. -/
theorem NamedType.cut_of_depth_le {levels : Nat} {type : NamedType}
    (short : ∀ ref ∈ type.refs, ref.depth ≤ levels) :
    type.cut levels = type := by
  simp only [refs, List.mem_append, List.mem_flatMap, List.mem_cons, List.mem_map] at short
  have fields : type.fields.map (FieldDef.cut levels) = type.fields :=
    List.map_eq_self fun field member => FieldDef.cut_of_depth_le
      (short _ (.inl (.inl (.inl ⟨field, member, .inl rfl⟩))))
      fun arg argMember =>
        short _ (.inl (.inl (.inl ⟨field, member, .inr ⟨arg, argMember, rfl⟩⟩)))
  have inputs : type.inputFields.map (InputValue.cut levels) = type.inputFields :=
    List.map_eq_self fun input member =>
      InputValue.cut_of_depth_le (short _ (.inl (.inl (.inr ⟨input, member, rfl⟩))))
  have interfaces : type.interfaces.map (TypeRef.cut levels) = type.interfaces :=
    List.map_eq_self fun ref member => TypeRef.cut_of_depth_le (short ref (.inl (.inr member)))
  have members : type.possibleTypes.map (TypeRef.cut levels) = type.possibleTypes :=
    List.map_eq_self fun ref member => TypeRef.cut_of_depth_le (short ref (.inr member))
  rw [cut, fields, inputs, interfaces, members]

/-- A type has a reference of more nodes than the given number. -/
def NamedType.Exceeds (type : NamedType) (levels : Nat) : Prop :=
  ∃ ref ∈ type.refs, levels < ref.depth

instance (type : NamedType) (levels : Nat) : Decidable (type.Exceeds levels) :=
  inferInstanceAs (Decidable (∃ ref ∈ type.refs, levels < ref.depth))

theorem NamedType.Exceeds.mono {type : NamedType} {levels fewer : Nat}
    (exceeds : type.Exceeds levels) (le : fewer ≤ levels) : type.Exceeds fewer := by
  obtain ⟨ref, member, deep⟩ := exceeds
  exact ⟨ref, member, Nat.lt_of_le_of_lt le deep⟩

theorem NamedType.cut_of_not_exceeds {levels : Nat} {type : NamedType}
    (short : ¬ type.Exceeds levels) :
    type.cut levels = type :=
  cut_of_depth_le fun ref member => Nat.le_of_not_lt fun deep => short ⟨ref, member, deep⟩

namespace Introspection

/-! ## One reference -/

/-- The search goes on with what is inside a node, null if there is nothing. -/
theorem isTruncatedInside_eq (entries : Entries) :
    isTruncatedInside entries = isTruncated ((Value.object entries).field "ofType") := by
  induction entries with
  | nil => rfl
  | cons entry rest ih =>
      obtain ⟨name, v⟩ := entry
      by_cases same : name = "ofType"
      · subst same
        rfl
      · have miss : ("ofType" == name) = false := by
          simpa using fun e : "ofType" = name => same e.symm
        rw [isTruncatedInside, if_neg same, ih, Value.field, Value.field, Entries.get?,
          Entries.get?, List.lookup_cons, miss]

theorem isWrapperLabel_of_shownBy {entries : Entries} {kind : RefKind}
    (known : kind = .named ∨ kind.isWrapper = true)
    (shown : kind.ShownBy (Entries.get? entries "kind")) :
    isWrapperLabel ((Value.object entries).field "kind") = .ok kind.isWrapper := by
  cases kind with
  | named =>
      obtain ⟨label, found, notList, notNonNull⟩ := shown
      rw [Value.field, found, Option.getD_some, isWrapperLabel, beq_false_of_ne notList,
        beq_false_of_ne notNonNull]
      rfl
  | nonNull =>
      have found : Entries.get? entries "kind" = some (.text "NON_NULL") := shown
      rw [Value.field, found]
      rfl
  | list =>
      have found : Entries.get? entries "kind" = some (.text "LIST") := shown
      rw [Value.field, found]
      rfl
  | other label => simp [RefKind.isWrapper] at known

/-- A cut reference is found truncated exactly if nodes of it are missing. -/
theorem isTruncated_of_shown {ref : TypeRef} {levels : Nat} {v : Value} (wf : ref.WellFormed)
    (positive : 0 < levels) (shown : (ref.cut levels).Shown v) :
    isTruncated v = .ok (decide (levels < ref.depth)) := by
  induction wf generalizing levels v with
  | @named name nonempty =>
      obtain ⟨entries, rfl, parts, -⟩ := shown
      simp only [List.forall_mem_cons] at parts
      obtain ⟨kindShown, -, absent, -⟩ := parts
      have deep : ¬ levels < (TypeRef.leaf .named (some name)).depth := by
        rw [TypeRef.depth]; omega
      have empty : (Value.object entries).field "ofType" = .null :=
        Value.field_eq_null_iff.mpr absent
      rw [isTruncated, isWrapperLabel_of_shownBy (.inl rfl) kindShown, isTruncatedInside_eq,
        empty, decide_eq_false deep]
      rfl
  | @wrap kind name inner wrapper _ ih =>
      have innerPositive := inner.depth_pos
      by_cases one : levels ≤ 1
      · rw [TypeRef.cut, if_pos one] at shown
        obtain ⟨entries, rfl, parts, -⟩ := shown
        simp only [List.forall_mem_cons] at parts
        obtain ⟨kindShown, -, absent, -⟩ := parts
        have deep : levels < (TypeRef.wrap kind name inner).depth := by rw [TypeRef.depth]; omega
        have empty : (Value.object entries).field "ofType" = .null :=
          Value.field_eq_null_iff.mpr absent
        rw [isTruncated, isWrapperLabel_of_shownBy (.inr wrapper) kindShown, wrapper, empty,
          decide_eq_true deep]
        rfl
      · rw [TypeRef.cut, if_neg one] at shown
        obtain ⟨entries, rfl, parts, -⟩ := shown
        simp only [List.forall_mem_cons] at parts
        obtain ⟨kindShown, -, ⟨w, found, innerShown⟩, -⟩ := parts
        have inside := ih (by omega) innerShown
        have same : decide (levels - 1 < inner.depth) =
            decide (levels < (TypeRef.wrap kind name inner).depth) := by
          rw [TypeRef.depth]
          exact decide_eq_decide.mpr (by omega)
        have innerFound : (Value.object entries).field "ofType" = w := by
          rw [Value.field, found, Option.getD_some]
        have notNull : isNull w = false := by
          obtain ⟨_, rfl⟩ := innerShown.exists_object
          rfl
        rw [isTruncated, isWrapperLabel_of_shownBy (.inr wrapper) kindShown, isTruncatedInside_eq,
          innerFound, inside, same]
        simp only [notNull, Bool.and_false, Bool.false_eq_true, if_false]

/-! ## The references of a type -/

/-- What is sighted is a value that shows a reference. -/
def Sighted (ref : TypeRef) (sight : Except Obstacle Value) : Prop :=
  ∃ v, sight = .ok v ∧ ref.Shown v

theorem sighted_flatMap {α : Type} {shown : α → Value → Prop} {sight : Value → Sightings}
    {refsOf : α → List TypeRef}
    (each : ∀ part v, shown part v → List.Forall₂ Sighted (refsOf part) (sight v))
    {parts : List α} {items : List Value} (shows : List.Forall₂ shown parts items) :
    List.Forall₂ Sighted (parts.flatMap refsOf) (items.flatMap sight) := by
  induction shows with
  | nil => exact .nil
  | cons first _ ih => exact List.rel_append (each _ _ first) ih

/-- In a list, or in its absence, the references of all parts are sighted in their order. -/
theorem sighted_sightEach {α : Type} {shown : α → Value → Prop} {sight : Value → Sightings}
    {refsOf : α → List TypeRef} {parts : List α} {entries : Entries} {name : String}
    (each : ∀ part v, shown part v → List.Forall₂ Sighted (refsOf part) (sight v))
    (shows : ShowsEach shown parts (Entries.get? entries name)) :
    List.Forall₂ Sighted (parts.flatMap refsOf)
      (sightEach sight ((Value.object entries).field name)) := by
  rcases shows with ⟨rfl, none | null⟩ | ⟨items, found, shows⟩
  · rw [Value.field, none]
    exact .nil
  · rw [Value.field, null]
    exact .nil
  · rw [Value.field, found, Option.getD_some]
    cases shows with
    | nil => exact .nil
    | cons first rest => exact sighted_flatMap each (.cons first rest)

theorem sighted_sightType (input : InputValue) (v : Value) (shown : input.Shown v) :
    List.Forall₂ Sighted [input.type] (sightType v) := by
  obtain ⟨entries, rfl, parts, -⟩ := shown
  simp only [List.forall_mem_cons] at parts
  obtain ⟨-, -, ⟨w, found, typeShown⟩, -⟩ := parts
  rw [sightType, Value.field, found]
  exact .cons ⟨w, rfl, typeShown⟩ .nil

theorem sighted_sightField (field : FieldDef) (v : Value) (shown : field.Shown v) :
    List.Forall₂ Sighted (field.type :: field.args.map InputValue.type) (sightField v) := by
  obtain ⟨entries, rfl, parts, -⟩ := shown
  simp only [List.forall_mem_cons] at parts
  obtain ⟨-, -, args, ⟨w, found, typeShown⟩, -⟩ := parts
  have others := sighted_sightEach sighted_sightType args
  rw [← List.map_eq_flatMap] at others
  rw [sightField, Value.field, found]
  exact .cons ⟨w, rfl, typeShown⟩ others

/-- The references of a type are sighted one by one. -/
theorem sighted_sightings {type : NamedType} {v : Value} (shown : type.Shown v) :
    List.Forall₂ Sighted type.refs (sightings v) := by
  obtain ⟨entries, rfl, parts, -⟩ := shown
  simp only [List.forall_mem_cons] at parts
  obtain ⟨-, -, -, fields, inputs, interfaces, -, members, -⟩ := parts
  have single : ∀ (ref : TypeRef) (v : Value), ref.Shown v → List.Forall₂ Sighted [ref] [.ok v] :=
    fun ref v refShown => .cons ⟨v, rfl, refShown⟩ .nil
  have fields := sighted_sightEach sighted_sightField fields
  have inputs := sighted_sightEach sighted_sightType inputs
  have interfaces := sighted_sightEach single interfaces
  have members := sighted_sightEach single members
  rw [← List.map_eq_flatMap] at inputs
  rw [← List.map_eq_flatMap, List.map_id'] at interfaces members
  exact List.rel_append (List.rel_append (List.rel_append fields inputs) interfaces) members

theorem anyTruncated_of_sighted {refs : List TypeRef} {levels : Nat} {sights : Sightings}
    (positive : 0 < levels) (wf : ∀ ref ∈ refs, ref.WellFormed)
    (sighted : List.Forall₂ Sighted (refs.map (TypeRef.cut levels)) sights) :
    anyTruncated sights = .ok (decide (∃ ref ∈ refs, levels < ref.depth)) := by
  induction refs generalizing sights with
  | nil =>
      cases sighted
      simp [anyTruncated]
  | cons ref refs ih =>
      rw [List.map_cons] at sighted
      cases sighted with
      | cons first rest =>
          obtain ⟨v, rfl, shown⟩ := first
          have others := ih (fun other member => wf other (List.mem_cons_of_mem _ member)) rest
          have here := isTruncated_of_shown (wf ref List.mem_cons_self) positive shown
          simp only [anyTruncated, here]
          by_cases deep : levels < ref.depth
          · simp [deep]
          · simp [deep, others]

/-! ## The names of truncated types -/

theorem mem_insertName {name other : TypeName} {names : List TypeName} :
    other ∈ insertName name names ↔ other = name ∨ other ∈ names := by
  induction names with
  | nil => simp [insertName]
  | cons first rest ih =>
      rw [insertName]
      split
      · rename_i same
        simp [same]
      · split
        · simp
        · simp only [List.mem_cons, ih, or_left_comm]

theorem sorted_insertName (name : TypeName) {names : List TypeName}
    (sorted : names.Pairwise (· < ·)) :
    (insertName name names).Pairwise (· < ·) := by
  induction names with
  | nil => simp [insertName]
  | cons first rest ih =>
      obtain ⟨above, restSorted⟩ := List.pairwise_cons.mp sorted
      rw [insertName]
      split
      · exact sorted
      · rename_i different
        split
        · rename_i below
          refine List.pairwise_cons.mpr ⟨fun other member => ?_, sorted⟩
          rcases List.mem_cons.mp member with rfl | member
          · exact below
          · exact List.lt_trans below (above other member)
        · rename_i notBelow
          refine List.pairwise_cons.mpr ⟨fun other member => ?_, ih restSorted⟩
          rcases mem_insertName.mp member with rfl | member
          · exact List.not_le.mp fun below =>
              different (List.le_antisymm below (List.not_lt.mp notBelow))
          · exact above other member

/-- The names of the types with a reference of more nodes than the given number, in rising
order. -/
def deepNames (levels : Nat) : List NamedType → List TypeName
  | [] => []
  | type :: rest =>
    if type.Exceeds levels then insertName (Value.codesOf type.name) (deepNames levels rest)
    else deepNames levels rest

theorem mem_deepNames_iff {levels : Nat} {types : List NamedType} {name : TypeName} :
    name ∈ deepNames levels types ↔
      ∃ type ∈ types, Value.codesOf type.name = name ∧ type.Exceeds levels := by
  induction types with
  | nil => simp [deepNames]
  | cons type rest ih =>
      by_cases deep : type.Exceeds levels
      · simp [deepNames, deep, mem_insertName, ih, eq_comm]
      · simp [deepNames, deep, ih]

theorem sorted_deepNames (levels : Nat) (types : List NamedType) :
    (deepNames levels types).Pairwise (· < ·) := by
  induction types with
  | nil => exact .nil
  | cons type rest ih =>
      rw [deepNames]
      split
      · exact sorted_insertName _ ih
      · exact ih

theorem entryName?_of_shown {type : NamedType} {v : Value} (shown : type.Shown v) :
    entryName? v = some (Value.codesOf type.name) := by
  obtain ⟨entries, rfl, parts, -⟩ := shown
  simp only [List.forall_mem_cons] at parts
  obtain ⟨-, name, -⟩ := parts
  have found : Entries.get? entries "name" = some (.text type.name) := name
  rw [entryName?, Value.field, found, Option.getD_some]

/-- The search among cut types finds those that have lost nodes. -/
theorem truncatedNames_of_shown {types : List NamedType} {levels : Nat} {values : List Value}
    (positive : 0 < levels) (wf : ∀ type ∈ types, ∀ ref ∈ type.refs, ref.WellFormed)
    (shown : List.Forall₂ (fun type v => (type.cut levels).Shown v) types values) :
    truncatedNames values = .ok (deepNames levels types) := by
  induction shown with
  | nil => rfl
  | @cons type v types values first _ ih =>
      have others := ih fun other member => wf other (List.mem_cons_of_mem _ member)
      have sighted := sighted_sightings first
      rw [NamedType.refs_cut] at sighted
      have here : anyTruncated (sightings v) = .ok (decide (type.Exceeds levels)) :=
        anyTruncated_of_sighted positive (wf type List.mem_cons_self) sighted
      have name : (type.cut levels).name = type.name := rfl
      simp only [truncatedNames, entryName?_of_shown first, here, others, name, deepNames,
        decide_eq_true_eq]

end Introspection

end SchemaBaseline
