import SchemaBaseline.Proofs.Introspection.Cut

/-!
# What trips the search for truncated references

Type entries are searched for truncated references before anything about them has been checked.
Most of what is no type entry shows in the course of that and is refused, but not all of it: a
value without members in the place of a list, or a list or an object in the place of a kind, ends
the search with a fault. `Snag` says where in an entry such values trip it and in which fault it
ends; `snag_of_truncatedNames` shows that there are no other faults.
-/

namespace SchemaBaseline

/-- A value that counts as true but has nothing to walk over. -/
structure Value.Memberless (v : Value) : Prop where
  truthy : v.isTruthy = true
  none : v.members? = Option.none

/-- A list or an object, which cannot be looked up. -/
def Value.IsContainer : Value → Prop
  | .list _ | .object _ => True
  | _ => False

theorem Value.sizeOf_field_lt (entries : Entries) (name : String) :
    sizeOf ((Value.object entries).field name) < sizeOf (Value.object entries) := by
  rw [Value.field, Value.object.sizeOf_spec]
  cases found : Entries.get? entries name with
  | none =>
    rw [Option.getD_none, Value.null.sizeOf_spec]
    cases entries with
    | nil => decide
    | cons entry rest =>
      rw [List.cons.sizeOf_spec]
      omega
  | some v =>
    obtain ⟨before, after, split, -⟩ := List.lookup_eq_some_iff.mp found
    have member : (name, v) ∈ entries := by
      rw [split]
      exact List.mem_append_right before List.mem_cons_self
    have bound := List.sizeOf_lt_of_mem member
    rw [Prod.mk.sizeOf_spec] at bound
    rw [Option.getD_some]
    omega

theorem walk_eq_error {v : Value} {fault : WalkFault} (failed : walk v = .error fault) :
    v.members? = none ∧ fault = .notIterable v.kindWord := by
  unfold walk at failed
  split at failed
  · cases failed
  · injection failed with same
    exact ⟨‹_›, same.symm⟩

namespace Introspection

/-! ## One reference -/

/-- The nodes of a reference, from the outside in. -/
inductive NodeOf (ref : Value) : Value → Prop
  | outermost : NodeOf ref ref
  | inner {node : Value} (outer : NodeOf ref node) : NodeOf ref (node.field "ofType")

theorem NodeOf.trans {ref node innermost : Value} (inside : NodeOf ref node)
    (within : NodeOf node innermost) :
    NodeOf ref innermost := by
  induction within with
  | outermost => exact inside
  | inner _ ih => exact .inner ih

theorem NodeOf.of_inner {ref node : Value} (inside : NodeOf (ref.field "ofType") node) :
    NodeOf ref node :=
  .trans (.inner .outermost) inside

/-- A node whose kind cannot be looked up. -/
def TripsOn (ref : Value) (fault : WalkFault) : Prop :=
  ∃ node, NodeOf ref node ∧ (node.field "kind").IsContainer ∧
    fault = .unhashable (node.field "kind").kindWord

theorem isWrapperLabel_eq_error {v : Value} {fault : WalkFault}
    (failed : isWrapperLabel v = .error fault) :
    v.IsContainer ∧ fault = .unhashable v.kindWord := by
  cases v with
  | list items =>
    cases failed
    exact ⟨trivial, rfl⟩
  | object entries =>
    cases failed
    exact ⟨trivial, rfl⟩
  | _ => cases failed

/-- What holds of a reference as soon as it holds of what is inside it holds of every
reference. -/
theorem inward_induction {motive : Value → Prop}
    (node : ∀ v, (∀ entries, v = .object entries → motive (v.field "ofType")) → motive v)
    (ref : Value) : motive ref :=
  node ref fun entries isObject =>
    have smaller : sizeOf (ref.field "ofType") < sizeOf ref := by
      subst isObject
      exact Value.sizeOf_field_lt entries "ofType"
    inward_induction node (ref.field "ofType")
termination_by sizeOf ref
decreasing_by exact smaller

theorem tripsOn_of_isTruncated {ref : Value} {fault : WalkFault}
    (failed : isTruncated ref = .error fault) : TripsOn ref fault := by
  induction ref using inward_induction with
  | node ref ih =>
    cases ref with
    | object entries =>
      rw [isTruncated, isTruncatedInside_eq] at failed
      split at failed
      · rename_i failedHere
        cases failed
        obtain ⟨container, rfl⟩ := isWrapperLabel_eq_error failedHere
        exact ⟨_, .outermost, container, rfl⟩
      · split at failed
        · cases failed
        · obtain ⟨node, inside, container, same⟩ := ih entries rfl failed
          exact ⟨node, .of_inner inside, container, same⟩
    | _ => cases failed

/-! ## One type entry -/

/-- What in a type entry trips the search, and the fault in which it ends: a list that has no
members, arguments of a field that have none, or a kind that cannot be looked up. -/
inductive Snag (entry : Value) : WalkFault → Prop
  | list {name : String} (known : name ∈ ["fields", "inputFields", "interfaces", "possibleTypes"])
    (memberless : (entry.field name).Memberless) :
    Snag entry (.notIterable (entry.field name).kindWord)
  | args {fields : List Value} {field : Value}
    (found : (entry.field "fields").members? = some fields) (member : field ∈ fields)
    (memberless : (field.field "args").Memberless) :
    Snag entry (.notIterable (field.field "args").kindWord)
  | kind {ref : Value} {fault : WalkFault} (sighted : .ok ref ∈ sightings entry)
    (trips : TripsOn ref fault) : Snag entry fault

theorem fault_of_mem_sightEach {sight : Value → Sightings} {v : Value}
    {obstacle : Except Obstacle Value} (member : obstacle ∈ sightEach sight v) :
    (∃ items item, v.members? = some items ∧ item ∈ items ∧ obstacle ∈ sight item) ∨
      v.Memberless ∧ obstacle = .error (.fault (.notIterable v.kindWord)) := by
  unfold sightEach at member
  split at member
  · rename_i truthy
    split at member
    · rename_i items walked
      obtain ⟨item, inside, sighted⟩ := List.mem_flatMap.mp member
      refine .inl ⟨items, item, ?_, inside, sighted⟩
      unfold walk at walked
      split at walked
      · injection walked with same
        rw [← same]
        assumption
      · cases walked
    · rename_i fault failed
      obtain ⟨none, rfl⟩ := walk_eq_error failed
      exact .inr ⟨⟨truthy, none⟩, List.mem_singleton.mp member⟩
  · cases member

/-- Where looking at an item comes to no fault, a fault comes from the list. -/
theorem memberless_of_mem_sightEach {sight : Value → Sightings} {v : Value} {fault : WalkFault}
    (quiet : ∀ item fault, .error (.fault fault) ∉ sight item)
    (member : .error (.fault fault) ∈ sightEach sight v) :
    v.Memberless ∧ fault = .notIterable v.kindWord := by
  rcases fault_of_mem_sightEach member with ⟨_, item, -, -, sighted⟩ | ⟨memberless, same⟩
  · exact absurd sighted (quiet item fault)
  · cases same
    exact ⟨memberless, rfl⟩

theorem fault_not_mem_sightType (v : Value) (fault : WalkFault) :
    .error (.fault fault) ∉ sightType v := by
  unfold sightType
  split <;> simp

theorem fault_not_mem_single (v : Value) (fault : WalkFault) :
    .error (.fault fault) ∉ ([.ok v] : Sightings) := by
  simp

/-- A fault among the sightings comes from a list without members. -/
theorem snag_of_mem_sightings {entry : Value} {fault : WalkFault}
    (member : .error (.fault fault) ∈ sightings entry) :
    Snag entry fault := by
  -- One case for each of the four lists of an entry; only the fields have lists of their own.
  simp only [sightings, List.mem_append] at member
  rcases member with ((fields | inputs) | interfaces) | members
  · rcases fault_of_mem_sightEach fields with ⟨items, field, found, inside, sighted⟩ |
      ⟨memberless, same⟩
    · unfold sightField at sighted
      split at sighted
      · rcases List.mem_cons.mp sighted with type | args
        · cases type
        · obtain ⟨memberless, rfl⟩ := memberless_of_mem_sightEach fault_not_mem_sightType args
          exact .args found inside memberless
      · simp at sighted
    · cases same
      exact .list (by decide) memberless
  · obtain ⟨memberless, rfl⟩ := memberless_of_mem_sightEach fault_not_mem_sightType inputs
    exact .list (by decide) memberless
  · obtain ⟨memberless, rfl⟩ := memberless_of_mem_sightEach fault_not_mem_single interfaces
    exact .list (by decide) memberless
  · obtain ⟨memberless, rfl⟩ := memberless_of_mem_sightEach fault_not_mem_single members
    exact .list (by decide) memberless

theorem cause_of_anyTruncated {sights : Sightings} {fault : WalkFault}
    (failed : anyTruncated sights = .error (.fault fault)) :
    .error (.fault fault) ∈ sights ∨ ∃ ref, .ok ref ∈ sights ∧ TripsOn ref fault := by
  induction sights with
  | nil => cases failed
  | cons sight rest ih =>
    cases sight with
    | error obstacle =>
      simp only [anyTruncated, Except.error.injEq] at failed
      exact .inl (failed ▸ List.mem_cons_self)
    | ok ref =>
      simp only [anyTruncated] at failed
      split at failed
      · rename_i fault' failedHere
        cases failed
        exact .inr ⟨ref, List.mem_cons_self, tripsOn_of_isTruncated failedHere⟩
      · cases failed
      · rcases ih failed with later | ⟨other, later, trips⟩
        · exact .inl (List.mem_cons_of_mem _ later)
        · exact .inr ⟨other, List.mem_cons_of_mem _ later, trips⟩

/-! ## All type entries -/

/-- A search that ends in a fault has come upon an entry that trips it. -/
theorem snag_of_truncatedNames {types : List Value} {fault : WalkFault}
    (failed : truncatedNames types = .error (.fault fault)) :
    ∃ entry ∈ types, Snag entry fault := by
  induction types with
  | nil => cases failed
  | cons entry rest ih =>
    unfold truncatedNames at failed
    split at failed
    · cases failed
    split at failed
    · cases failed
    · rename_i failedHere
      cases failed
      refine ⟨entry, List.mem_cons_self, ?_⟩
      rcases cause_of_anyTruncated failedHere with member | ⟨ref, sighted, trips⟩
      · exact snag_of_mem_sightings member
      · exact .kind sighted trips
    · split at failed
      · rename_i failedLater
        cases failed
        obtain ⟨other, later, snag⟩ := ih failedLater
        exact ⟨other, List.mem_cons_of_mem _ later, snag⟩
      · cases failed

end Introspection

end SchemaBaseline
