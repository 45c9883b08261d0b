import SchemaBaseline.Proofs.Introspection.Requests

/-!
# What the limit of a client means

A client that gives up on a schema says that references in some of its types exceed the limit.
`Client.KeepsCeiling` says of a number of levels that this is true of it. The depths that a client
asks at are its first one times powers of two, and it never asks at the limit itself unless
doubling leads right to it. So the numbers of levels of which it is true are those up to the last
depth within the limit (`Client.keepsCeiling_iff`): the limit is one of them exactly if it is the
first depth times a power of two.
-/

namespace SchemaBaseline

/-! ## Schemas with long references -/

/-- A reference to integers within lists. -/
def TypeRef.nested : Nat → TypeRef
  | 0 => .named "Int"
  | wrappers + 1 => .listOf (nested wrappers)

theorem TypeRef.depth_nested (wrappers : Nat) : (nested wrappers).depth = wrappers + 1 := by
  induction wrappers with
  | zero => rfl
  | succ wrappers ih => rw [nested, listOf, depth, ih]

theorem TypeRef.wellFormed_nested (wrappers : Nat) : (nested wrappers).WellFormed := by
  induction wrappers with
  | zero => exact .named (by decide)
  | succ wrappers ih => exact .wrap rfl ih

/-- A schema with a single reference. -/
def Schema.ofRef (ref : TypeRef) : Schema where
  queryType := some "Query"
  mutationType := none
  subscriptionType := none
  types := [
    { kind := .object, name := "Query", description := none, inputFields := [], interfaces := [],
      enumValues := [], possibleTypes := [], fields := [⟨"deep", none, [], ref, false, none⟩] }]

theorem Schema.refs_ofRef (ref : TypeRef) : (ofRef ref).refs = [ref] :=
  rfl

theorem Schema.sound_ofRef {ref : TypeRef} (wf : ref.WellFormed) : (ofRef ref).Sound where
  refs_wellFormed := by rwa [refs_ofRef, List.forall_mem_singleton]
  names_unique := List.nodup_singleton "Query"

namespace Introspection

/-- A number of levels is a ceiling that a client keeps: whichever server describes a schema, the
client gives up for the depth of references only where they have more levels, stating its limit.
So it gets every schema whose references have no more levels, and no more than the 200 that can be
read at all. -/
def Client.KeepsCeiling (client : Client) (ceiling : Int) : Prop :=
  ∀ (server : Server) (schema : Schema), server.Describes schema → schema.Sound →
    ∀ (now : Time.Stamp) (x : Exchange),
    (∀ stated names x',
      client.acquire now server x = (.error (.refused (.tooDeep stated names)), x') →
      stated = client.maxDepth ∧
      ∀ name ∈ names, ∃ type ∈ schema.types, Value.codesOf type.name = name ∧
        ∃ ref ∈ type.refs, ceiling < ref.depth) ∧
    ((∀ ref ∈ schema.refs, ref.depth ≤ ceiling ∧ ref.depth ≤ 200) →
      ∃ info x', client.acquire now server x = (.ok ⟨schema, now, client.server, info⟩, x'))

variable {client : Client} {server : Server} {schema : Schema}

/-! ## The last depth -/

theorem mul_two_pow_mono {depth : Int} (positive : 1 ≤ depth) {j k : Nat} (le : j ≤ k) :
    depth * 2 ^ j ≤ depth * 2 ^ k := by
  induction le with
  | refl => exact Int.le_refl _
  | @step k _ ih =>
    have grows := mul_two_pow_pos positive k
    have doubled : 2 * (depth * 2 ^ k) = depth * 2 ^ k.succ := mul_two_pow_succ depth k
    omega

/-- The last depth of a client is the greatest one within its limit that doubling leads to. -/
theorem exists_lastDepth_eq (client : Client) (positive : 1 ≤ client.depth)
    (within : client.depth ≤ client.maxDepth) :
    ∃ k, lastDepth client.maxDepth client.rounds client.depth = client.depth * 2 ^ k ∧
      client.depth * 2 ^ k ≤ client.maxDepth ∧ client.maxDepth < client.depth * 2 ^ (k + 1) := by
  rcases isReach_lastDepth positive (lt_rounds client positive) with
    ⟨k, one, reach, fits, greatest⟩ | ⟨reach, beyond⟩
  · refine ⟨k, reach, reach ▸ fits, Int.not_le.mp fun further => ?_⟩
    have least := greatest (k + 1) (Nat.le_add_left 1 k) further
    have power := mul_two_pow_pos positive k
    have doubled := mul_two_pow_succ client.depth k
    omega
  · refine ⟨0, ?_, ?_, beyond 1 (Nat.le_refl 1)⟩
    · rw [reach, Int.pow_zero, Int.mul_one]
    · rwa [Int.pow_zero, Int.mul_one]

theorem one_le_lastDepth (positive : 1 ≤ client.depth) :
    1 ≤ lastDepth client.maxDepth client.rounds client.depth :=
  Int.le_trans positive (le_lastDepth client.maxDepth client.rounds positive)

/-! ## Giving up -/

/-- The depth of references is not a reason for failure any more once all entries are at hand. -/
theorem tooDeep_of_complete {now : Time.Stamp} {schema : Value} {types : List Value}
    {x x' : Exchange} {stated : Int}
    {names : List TypeName} (found : schema.field "types" = .list types)
    (refused : client.complete now server schema x =
      (.error (.refused (.tooDeep stated names)), x')) :
    client.deepen server client.rounds client.depth types x =
      (.error (.refused (.tooDeep stated names)), x') := by
  unfold Client.complete at refused
  simp only [found] at refused
  split at refused
  · rename_i deepened
    cases refused
    exact deepened
  · split at refused
    · cases refused
    · split at refused
      · rename_i failed
        unfold Client.snapshot at failed
        split at failed
        · cases failed
        · cases failed
          cases refused
      · cases refused

/-- A client gives up because of the depth of references where one is longer than its last depth,
and only there. -/
theorem tooDeep_cases (client : Client) (describes : server.Describes schema)
    (sound : schema.Sound) (addressed : client.server ≠ "") (positive : 1 ≤ client.depth)
    (now : Time.Stamp) (x : Exchange) :
    ((∀ ref ∈ schema.refs, ref.depth ≤ lastDepth client.maxDepth client.rounds client.depth) ∧
      ∀ stated names x', client.acquire now server x ≠
        (.error (.refused (.tooDeep stated names)), x')) ∨
    ((∃ ref ∈ schema.refs, lastDepth client.maxDepth client.rounds client.depth < ref.depth) ∧
      ∃ x', client.acquire now server x = (.error (.refused (.tooDeep client.maxDepth
        (deepNames (levels (lastDepth client.maxDepth client.rounds client.depth))
          schema.types))), x')) := by
  have begun := one_le_lastDepth positive
  obtain ⟨v, y, shown, goesOn⟩ := acquire_eq_complete client describes addressed now x
  obtain ⟨values, found, each⟩ := types_of_shown shown
  rcases deepen_of_describes client describes sound client.rounds positive y each with
    ⟨short, _, _, finished, -⟩ | ⟨⟨type, member, exceeds⟩, x', failed⟩
  · refine .inl ⟨fun ref refMember => Int.not_lt.mp fun long => ?_,
      fun stated names x' refused => ?_⟩
    · obtain ⟨type, member, inside⟩ := List.mem_flatMap.mp refMember
      exact short type member ((exceeds_levels_iff begun).mpr ⟨ref, inside, long⟩)
    · cases finished.symm.trans (tooDeep_of_complete found (goesOn.symm.trans refused))
  · obtain ⟨ref, inside, long⟩ := (exceeds_levels_iff begun).mp exceeds
    exact .inr ⟨⟨ref, List.mem_flatMap.mpr ⟨type, member, inside⟩, long⟩, x',
      goesOn.trans (complete_of_error found failed)⟩

/-- A client keeps its last depth, and everything below, as a ceiling. -/
theorem keepsCeiling_of_le (addressed : client.server ≠ "") (positive : 1 ≤ client.depth)
    {ceiling : Int} (le : ceiling ≤ lastDepth client.maxDepth client.rounds client.depth) :
    client.KeepsCeiling ceiling := by
  have begun := one_le_lastDepth positive
  intro server schema describes sound now x
  constructor
  · intro stated names x' refused
    rcases tooDeep_cases client describes sound addressed positive now x with
      ⟨-, never⟩ | ⟨-, y, gaveUp⟩
    · exact absurd refused (never stated names x')
    · cases refused.symm.trans gaveUp
      refine ⟨rfl, fun name listed => ?_⟩
      obtain ⟨type, member, named, exceeds⟩ := mem_deepNames_iff.mp listed
      obtain ⟨ref, refMember, long⟩ := (exceeds_levels_iff begun).mp exceeds
      exact ⟨type, member, named, ref, refMember, Int.lt_of_le_of_lt le long⟩
  · intro short
    have shallow := TypeRef.shallow_of_le fun ref member => (short ref member).2
    obtain ⟨v, y, shown, goesOn⟩ := acquire_eq_complete client describes addressed now x
    rw [goesOn]
    rcases complete_of_describes client describes sound shallow positive now shown y with
      ⟨-, completed⟩ | ⟨⟨type, member, exceeds⟩, -⟩
    · exact completed
    · obtain ⟨ref, refMember, long⟩ := (exceeds_levels_iff begun).mp exceeds
      have fits := (short ref (List.mem_flatMap.mpr ⟨type, member, refMember⟩)).1
      omega

/-- A client does not keep a ceiling above its last depth: a reference that is longer than the
last depth by one level makes it give up. -/
theorem le_lastDepth_of_keepsCeiling (addressed : client.server ≠ "")
    (positive : 1 ≤ client.depth) {ceiling : Int}
    (keeps : client.KeepsCeiling ceiling) :
    ceiling ≤ lastDepth client.maxDepth client.rounds client.depth := by
  have begun := one_le_lastDepth positive
  let ref := TypeRef.nested (lastDepth client.maxDepth client.rounds client.depth).toNat
  have depth : (ref.depth : Int) = lastDepth client.maxDepth client.rounds client.depth + 1 := by
    rw [TypeRef.depth_nested]
    omega
  have sound : (Schema.ofRef ref).Sound := Schema.sound_ofRef (TypeRef.wellFormed_nested _)
  have describes := describes_ofSchema sound
  have member : ref ∈ (Schema.ofRef ref).refs := List.mem_singleton_self ref
  rcases tooDeep_cases client describes sound addressed positive default .start with
    ⟨short, -⟩ | ⟨-, x', refused⟩
  · have fits := short ref member
    omega
  · -- The type of the reference is named in the refusal, and has no other reference.
    obtain ⟨type, typeMember, refMember⟩ := List.mem_flatMap.mp member
    have exceeds := (exceeds_levels_iff begun).mpr ⟨ref, refMember, by omega⟩
    have named := mem_deepNames_iff.mpr ⟨type, typeMember, rfl, exceeds⟩
    obtain ⟨-, longer⟩ := (keeps _ _ describes sound default .start).1 _ _ _ refused
    obtain ⟨other, otherMember, -, found, foundMember, long⟩ := longer _ named
    have same : found ∈ (Schema.ofRef ref).refs :=
      List.mem_flatMap.mpr ⟨other, otherMember, foundMember⟩
    rw [Schema.refs_ofRef, List.mem_singleton] at same
    subst same
    omega

/-- The ceilings that a client keeps are the numbers of levels up to its last depth, the greatest
one within its limit that doubling its first depth leads to. Its limit is one of them exactly if
doubling leads right to it. -/
theorem Client.keepsCeiling_iff (client : Client) (addressed : client.server ≠ "")
    (positive : 1 ≤ client.depth) (within : client.depth ≤ client.maxDepth) :
    (∃ k, client.depth * 2 ^ k ≤ client.maxDepth ∧ client.maxDepth < client.depth * 2 ^ (k + 1) ∧
      ∀ ceiling, client.KeepsCeiling ceiling ↔ ceiling ≤ client.depth * 2 ^ k) ∧
    (client.KeepsCeiling client.maxDepth ↔ ∃ k, client.maxDepth = client.depth * 2 ^ k) := by
  obtain ⟨k, last, fits, beyond⟩ := exists_lastDepth_eq client positive within
  have kept : ∀ ceiling, client.KeepsCeiling ceiling ↔
      ceiling ≤ client.depth * 2 ^ k := fun ceiling =>
    ⟨fun keeps => last ▸ le_lastDepth_of_keepsCeiling addressed positive keeps,
      fun le => keepsCeiling_of_le addressed positive (last ▸ le)⟩
  refine ⟨⟨k, fits, beyond, kept⟩, ?_⟩
  rw [kept]
  constructor
  · exact fun le => ⟨k, Int.le_antisymm le fits⟩
  · rintro ⟨j, reached⟩
    rw [reached] at beyond ⊢
    refine mul_two_pow_mono positive (Nat.not_lt.mp fun further => ?_)
    exact Int.not_le.mpr beyond (mul_two_pow_mono positive further)

/-- From eight levels doubling leads right to 64. -/
theorem Client.keepsCeiling_iff_default :
    let client : Client := ⟨"http://localhost:4567", 8, 64, 0⟩
    client.server ≠ "" ∧ 1 ≤ client.depth ∧ client.depth ≤ client.maxDepth ∧
      client.KeepsCeiling 64 := by
  intro client
  exact ⟨by decide, by decide, by decide,
    (client.keepsCeiling_iff (by decide) (by decide) (by decide)).2.mpr ⟨3, by decide⟩⟩

/-- A client that begins with three levels, and could ask for five, gives up on the small schema,
whose longest reference has four: it says that they are more than five. -/
theorem Client.not_keepsCeiling_five :
    let client : Client := ⟨"http://suwayomi.test", 3, 5, 0⟩
    1 ≤ client.depth ∧ client.depth ≤ client.maxDepth ∧
      (∀ ref ∈ Schema.shelf.refs, (ref.depth : Int) ≤ 5) ∧
    (∃ x, client.acquire default (.ofSchema .shelf) .start =
      (.error (.refused (.tooDeep 5 [Value.codesOf "Query"])), x)) ∧
    ¬ client.KeepsCeiling client.maxDepth := by
  intro client
  have describes : (Server.ofSchema .shelf).Describes .shelf :=
    describes_ofSchema Schema.shelf_sound
  have short : ∀ ref ∈ Schema.shelf.refs, (ref.depth : Int) ≤ 5 ∧ ref.depth ≤ 200 := by decide
  have names : deepNames (levels (lastDepth client.maxDepth client.rounds client.depth))
      Schema.shelf.types = [Value.codesOf "Query"] := by
    decide
  have long : ∃ ref ∈ Schema.shelf.refs, lastDepth client.maxDepth client.rounds client.depth <
      ref.depth := by decide
  have refused : ∃ x, client.acquire default (.ofSchema .shelf) .start =
      (.error (.refused (.tooDeep 5 [Value.codesOf "Query"])), x) := by
    rcases tooDeep_cases client describes Schema.shelf_sound (by decide)
      (by decide) default .start with ⟨all, -⟩ | ⟨-, refused⟩
    · obtain ⟨ref, member, longer⟩ := long
      exact absurd longer (Int.not_lt.mpr (all ref member))
    · rwa [names] at refused
  refine ⟨by decide, by decide, fun ref member => (short ref member).1, refused, fun keeps => ?_⟩
  obtain ⟨x, refused⟩ := refused
  obtain ⟨info, x', acquired⟩ := (keeps _ _ describes Schema.shelf_sound default .start).2 short
  cases refused.symm.trans acquired

end Introspection

end SchemaBaseline
