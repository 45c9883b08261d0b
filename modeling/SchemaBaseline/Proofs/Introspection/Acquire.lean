import Mathlib.Algebra.Group.Int.Defs
import SchemaBaseline.Proofs.Introspection.Description

/-!
# Acquiring a schema from a server that describes it

`Client.acquire_of_describes`: a client either gets exactly the schema that the server describes
or reports exactly the types that have a reference of more levels than it can reach, and what it
can reach (`IsReach`) depends on its two depths alone. There is no third outcome, so no reference
of a snapshot is ever shortened.
-/

namespace SchemaBaseline.Introspection

/-! ## The reach of a client -/

/-- The greatest depth that doubling leads to within the limit, or the first depth if doubling it
exceeds the limit already. -/
def IsReach (limit depth reach : Int) : Prop :=
  (∃ k ≥ 1, reach = depth * 2 ^ k ∧ reach ≤ limit ∧
    ∀ j ≥ 1, depth * 2 ^ j ≤ limit → depth * 2 ^ j ≤ reach) ∨
  (reach = depth ∧ ∀ k ≥ 1, limit < depth * 2 ^ k)

theorem double_pow (depth : Int) (k : Nat) : depth * 2 ^ (k + 1) = 2 * depth * 2 ^ k := by
  rw [Int.pow_succ, Int.mul_comm (2 ^ k) 2, ← Int.mul_assoc, Int.mul_comm depth 2]

theorem double_le_pow {depth : Int} (positive : 1 ≤ depth) {k : Nat} (one : 1 ≤ k) :
    2 * depth ≤ depth * 2 ^ k := by
  obtain ⟨k, rfl⟩ : ∃ m, k = m + 1 := ⟨k - 1, by omega⟩
  have power : (0 : Int) < 2 ^ k := Int.pow_pos (by decide)
  have product : 2 * depth * 1 ≤ 2 * depth * 2 ^ k :=
    Int.mul_le_mul_of_nonneg_left power (by omega)
  rw [double_pow]
  omega

theorem isReach_of_lt {limit depth : Int} (positive : 1 ≤ depth) (stops : limit < 2 * depth) :
    IsReach limit depth depth := by
  refine .inr ⟨rfl, fun k one => ?_⟩
  have further := double_le_pow positive one
  omega

theorem IsReach.of_double {limit depth reach : Int} (positive : 1 ≤ depth)
    (within : 2 * depth ≤ limit) (further : IsReach limit (2 * depth) reach) :
    IsReach limit depth reach := by
  have first : depth * 2 ^ 1 = 2 * depth := by rw [Int.pow_one, Int.mul_comm]
  rcases further with ⟨k, one, rfl, fits, greatest⟩ | ⟨rfl, beyond⟩
  · refine .inl ⟨k + 1, by omega, (double_pow depth k).symm, fits, fun j jOne jFits => ?_⟩
    obtain ⟨j, rfl⟩ : ∃ m, j = m + 1 := ⟨j - 1, by omega⟩
    rw [double_pow] at jFits ⊢
    cases j with
    | zero =>
        have grows := double_le_pow (show 1 ≤ 2 * depth by omega) one
        rw [Int.pow_zero, Int.mul_one]
        omega
    | succ j => exact greatest (j + 1) (by omega) jFits
  · refine .inl ⟨1, Nat.le_refl 1, first.symm, within, fun j jOne jFits => ?_⟩
    obtain ⟨j, rfl⟩ : ∃ m, j = m + 1 := ⟨j - 1, by omega⟩
    rw [double_pow] at jFits ⊢
    cases j with
    | zero =>
        have same : 2 * depth * 2 ^ 0 = 2 * depth := by rw [Int.pow_zero, Int.mul_one]
        exact Int.le_of_eq same
    | succ j => exact absurd jFits (Int.not_le.mpr (beyond (j + 1) (by omega)))

/-- A client that goes on for enough rounds stops at its reach. -/
theorem isReach_lastDepth {limit : Int} {rounds : Nat} {depth : Int} (positive : 1 ≤ depth)
    (enough : (limit - depth).toNat < rounds) :
    IsReach limit depth (lastDepth limit rounds depth) := by
  induction rounds generalizing depth with
  | zero => exact absurd enough (Nat.not_lt_zero _)
  | succ rounds ih =>
      rw [lastDepth]
      by_cases stops : limit < 2 * depth
      · rw [if_pos stops]
        exact isReach_of_lt positive stops
      · rw [if_neg stops]
        exact .of_double positive (by omega) (ih (by omega) (by omega))

/-- A client whose first depth is at least one goes on for enough rounds. -/
theorem lt_rounds (client : Client) (positive : 1 ≤ client.depth) :
    (client.maxDepth - client.depth).toNat < client.rounds := by
  rw [Client.rounds, if_pos positive]
  exact Nat.lt_succ_self _

/-! ## The version and the snapshot -/

/-- Whatever a reply tells about the version, a client has a text for it. -/
theorem version_of_tellsVersion (client : Client) {server : Server} {x : Exchange}
    (tells : (server.answer x.sent .about).TellsVersion) :
    ∃ info x', client.version server x = (.ok (.text info), x') := by
  unfold Client.version
  simp only [Exchange.send]
  cases reply : server.answer x.sent .about with
  | failure failure =>
      rw [reply] at tells
      cases failure with
      | transport message => exact ⟨"", _, rfl⟩
      | breakdown b =>
          obtain ⟨message, rfl⟩ := tells
          exact ⟨"", _, rfl⟩
  | answer status body =>
      rw [reply] at tells
      simp only [Client.versionOfReply]
      by_cases success : status.isSuccess = true
      · rw [if_pos success]
        cases read : Json.readBody body with
        | error fault => exact ⟨"", _, rfl⟩
        | ok v =>
            obtain ⟨info, text⟩ := tells v success read
            simp only [text]
            exact ⟨info, _, rfl⟩
      · rw [if_neg success]
        exact ⟨"", _, rfl⟩

/-- The schema of an answer, with its types replaced by ones that are shown whole. -/
theorem shown_withTypes {schema : Schema} {levels : Nat} {v : Value} {types : List Value}
    (shown : (schema.cut levels).Shown v)
    (whole : List.Forall₂ NamedType.Shown schema.types types) :
    schema.Shown (Client.withTypes v types) := by
  obtain ⟨entries, rfl, parts, others⟩ := shown
  simp only [List.forall_mem_cons] at parts
  obtain ⟨query, mutation, subscription, -, -⟩ := parts
  refine ⟨Entries.put entries "types" (.list types), rfl, ?_, fun name absent => ?_⟩
  · simp only [List.forall_mem_cons]
    refine ⟨?_, ?_, ?_, ⟨types, Entries.get?_put_self _ _ _, whole⟩, List.forall_mem_nil _⟩
    · rw [Entries.get?_put_of_ne _ _ (by decide)]
      exact query
    · rw [Entries.get?_put_of_ne _ _ (by decide)]
      exact mutation
    · rw [Entries.get?_put_of_ne _ _ (by decide)]
      exact subscription
  · have ne : name ≠ "types" := by
      rintro rfl
      exact absent (by simp)
    rw [Entries.get?_put_of_ne _ _ ne]
    exact others name absent

/-- Of the four entries that make a snapshot, the schema and the version are loaded, and the other
two are taken as they are. -/
theorem load_snapshotEntries (client : Client) (now : Time.Stamp) (schema info : Value) :
    Snapshot.load now (.object [("__schema", schema), ("fetchedAt", .stamp now),
      ("serverUrl", .text client.server), ("serverInfo", info)]) =
      (((Schema.load schema).under (.name "__schema")).map fun loaded told =>
        ⟨loaded, now, client.server, told⟩).apply
        ((Value.loadText info).under (.name "serverInfo")) := by
  show (((((Schema.load schema).under (.name "__schema")).map Snapshot.mk).apply (.ok now)).apply
    (.ok client.server)).apply ((Value.loadText info).under (.name "serverInfo")) = _
  cases Schema.load schema <;> rfl

theorem snapshot_of_shown (client : Client) (now : Time.Stamp) {schema : Schema} {v : Value}
    (info : String) (sound : schema.Sound)
    (shallow : ∀ ref ∈ schema.refs, ref.depth ≤ maxRefDepth) (shown : schema.Shown v) :
    client.snapshot now v (.text info) = .ok ⟨schema, now, client.server, info⟩ := by
  rw [Client.snapshot, load_snapshotEntries, sound.load_of_shown shallow shown]
  rfl

/-! ## Whole acquisitions -/

theorem exceeds_levels_iff {type : NamedType} {depth : Int} (positive : 1 ≤ depth) :
    type.Exceeds (levels depth) ↔ ∃ ref ∈ type.refs, depth < ref.depth := by
  have same : (levels depth : Int) = depth := by
    unfold levels
    omega
  constructor
  · rintro ⟨ref, member, deep⟩
    exact ⟨ref, member, by omega⟩
  · rintro ⟨ref, member, deep⟩
    exact ⟨ref, member, by omega⟩

theorem types_of_shown {schema : Schema} {levels : Nat} {v : Value}
    (shown : (schema.cut levels).Shown v) :
    ∃ values, v.field "types" = .list values ∧
      List.Forall₂ (fun type v => (type.cut levels).Shown v) schema.types values := by
  obtain ⟨entries, rfl, parts, -⟩ := shown
  simp only [List.forall_mem_cons] at parts
  obtain ⟨-, -, -, ⟨values, found, each⟩, -⟩ := parts
  exact ⟨values, by rw [Value.field, found, Option.getD_some], List.forall₂_map_left_iff.mp each⟩

/-- With its first answer in hand, a client ends up with the schema, or with the types that exceed
the depth at which it stops. -/
theorem complete_of_describes (client : Client) {server : Server} {schema : Schema}
    (describes : server.Describes schema) (sound : schema.Sound)
    (shallow : ∀ ref ∈ schema.refs, ref.depth ≤ maxRefDepth) (positive : 1 ≤ client.depth)
    (now : Time.Stamp) {v : Value} (shown : (schema.cut (levels client.depth)).Shown v)
    (x : Exchange) :
    ((∀ type ∈ schema.types, ¬ type.Exceeds
      (levels (lastDepth client.maxDepth client.rounds client.depth))) ∧
      ∃ info x', client.complete now server v x = (.ok ⟨schema, now, client.server, info⟩, x')) ∨
    ((∃ type ∈ schema.types, type.Exceeds
      (levels (lastDepth client.maxDepth client.rounds client.depth))) ∧
      ∃ x', client.complete now server v x =
        (.error (.refused (.tooDeep client.maxDepth
          (deepNames (levels (lastDepth client.maxDepth client.rounds client.depth))
            schema.types))), x')) := by
  obtain ⟨values, found, each⟩ := types_of_shown shown
  rcases deepen_of_describes client describes sound client.rounds positive x each with
    ⟨short, values', x', deepened, whole⟩ | ⟨deep, x', deepened⟩
  · obtain ⟨info, x'', told⟩ := version_of_tellsVersion client (describes.answersAbout x'.sent)
    have made := snapshot_of_shown client now info sound shallow (shown_withTypes shown whole)
    refine .inl ⟨short, info, x''.note .info
      s!"Introspected {schema.types.length} types from {client.server}", ?_⟩
    simp only [Client.complete, found, deepened, told, made]
  · refine .inr ⟨deep, x', ?_⟩
    simp only [Client.complete, found, deepened]

/-- With an address, a client gets its first answer and goes on from there. -/
theorem acquire_eq_complete (client : Client) {server : Server} {schema : Schema}
    (describes : server.Describes schema) (addressed : client.server ≠ "") (now : Time.Stamp)
    (x : Exchange) :
    ∃ v x', (schema.cut (levels client.depth)).Shown v ∧ client.acquire now server x =
      client.complete now server v x' := by
  obtain ⟨data, v, x', asked, found, shown⟩ :=
    ask_of_bears (describes.answersSchema x.sent client.depth)
  refine ⟨v, x', shown, ?_⟩
  have notEmpty : client.server.isEmpty = false := by simpa using addressed
  obtain ⟨entries, rfl, -⟩ := shown
  simp only [Client.acquire, notEmpty, Bool.false_eq_true, if_false, asked, found]

/-- A client that asks for enough levels at once gets the schema that its server describes. -/
theorem exists_acquire_of_within (client : Client) {server : Server} {schema : Schema}
    (describes : server.Describes schema) (sound : schema.Sound)
    (shallow : ∀ ref ∈ schema.refs, ref.depth ≤ maxRefDepth) (addressed : client.server ≠ "")
    (positive : 1 ≤ client.depth) (within : ∀ ref ∈ schema.refs, (ref.depth : Int) ≤ client.depth)
    (now : Time.Stamp) (x : Exchange) :
    ∃ info x', client.acquire now server x = (.ok ⟨schema, now, client.server, info⟩, x') := by
  obtain ⟨v, x', shown, acquired⟩ := acquire_eq_complete client describes addressed now x
  rw [acquired]
  rcases complete_of_describes client describes sound shallow positive now shown x' with
    ⟨-, completed⟩ | ⟨⟨type, member, exceeds⟩, -⟩
  · exact completed
  · have grows : client.depth ≤ lastDepth client.maxDepth client.rounds client.depth :=
      le_lastDepth client.maxDepth client.rounds positive
    obtain ⟨ref, refMember, long⟩ :=
      (exceeds_levels_iff (Int.le_trans positive grows)).mp exceeds
    have fits := within ref (List.mem_flatMap.mpr ⟨type, member, refMember⟩)
    omega

/-- A client gets exactly the schema that its server describes if no reference is longer than its
reach, and otherwise reports exactly the types with a longer one. -/
theorem Client.acquire_of_describes (client : Client) {server : Server} {schema : Schema}
    (describes : server.Describes schema) (loadable : ∃ v, Schema.load v = .ok schema)
    (shallow : ∀ ref ∈ schema.refs, ref.depth ≤ 200) (addressed : client.server ≠ "")
    (positive : 1 ≤ client.depth) (now : Time.Stamp) (x : Exchange) :
    ∃ reach : Int, IsReach client.maxDepth client.depth reach ∧
      ((∀ ref ∈ schema.refs, ref.depth ≤ reach) → ∃ info x',
        client.acquire now server x = (.ok ⟨schema, now, client.server, info⟩, x')) ∧
      ((∃ ref ∈ schema.refs, reach < ref.depth) → ∃ names x',
        client.acquire now server x = (.error (.refused (.tooDeep client.maxDepth names)), x') ∧
        names.Pairwise (· < ·) ∧
        ∀ name, name ∈ names ↔ ∃ type ∈ schema.types, Value.codesOf type.name = name ∧
          ∃ ref ∈ type.refs, reach < ref.depth) := by
  obtain ⟨w, loaded⟩ := loadable
  have sound : schema.Sound := Schema.sound_of_load loaded
  have shallow := TypeRef.shallow_of_le shallow
  have begun : 1 ≤ lastDepth client.maxDepth client.rounds client.depth :=
    Int.le_trans positive (le_lastDepth client.maxDepth client.rounds positive)
  have reaches : IsReach client.maxDepth client.depth
      (lastDepth client.maxDepth client.rounds client.depth) :=
    isReach_lastDepth positive (lt_rounds client positive)
  obtain ⟨v, x', shown, acquired⟩ := acquire_eq_complete client describes addressed now x
  rw [acquired]
  refine ⟨_, reaches, fun short => ?_, fun deep => ?_⟩
  · rcases complete_of_describes client describes sound shallow positive now shown x' with
      ⟨-, completed⟩ | ⟨⟨type, member, exceeds⟩, -⟩
    · exact completed
    · obtain ⟨ref, refMember, long⟩ := (exceeds_levels_iff begun).mp exceeds
      have fits := short ref (List.mem_flatMap.mpr ⟨type, member, refMember⟩)
      omega
  · rcases complete_of_describes client describes sound shallow positive now shown x' with
      ⟨short, -⟩ | ⟨-, x'', completed⟩
    · obtain ⟨ref, member, long⟩ := deep
      obtain ⟨type, typeMember, refMember⟩ := List.mem_flatMap.mp member
      exact absurd ((exceeds_levels_iff begun).mpr ⟨ref, refMember, long⟩) (short type typeMember)
    · refine ⟨_, x'', completed, sorted_deepNames _ _, fun name => ?_⟩
      rw [mem_deepNames_iff]
      simp only [exceeds_levels_iff begun]

/-- The longest reference of the small schema has four levels. A client that begins with one level
gets there if four are allowed; if three are, it stops at two and reports the one type with a
longer reference. -/
theorem Client.acquire_of_describes_shelf :
    let wide : Client := ⟨"http://localhost", 1, 4, 0⟩
    let narrow : Client := ⟨"http://localhost", 1, 3, 0⟩
    (∃ info x, wide.acquire default (.ofSchema .shelf) .start =
      (.ok ⟨.shelf, default, wide.server, info⟩, x)) ∧
    ∃ names x, narrow.acquire default (.ofSchema .shelf) .start =
      (.error (.refused (.tooDeep 3 names)), x) ∧
      ∀ name, name ∈ names ↔ name = Value.codesOf "Query" := by
  intro wide narrow
  have describes : (Server.ofSchema .shelf).Describes .shelf :=
    describes_ofSchema Schema.shelf_sound
  have loadable : ∃ v, Schema.load v = .ok .shelf :=
    ⟨_, Schema.shelf_sound.load_of_shown Schema.shelf_shallow (Schema.shown_toValue _)⟩
  constructor
  · obtain ⟨reach, reaches, whole, -⟩ :=
      acquire_of_describes wide describes loadable (by decide) (by decide)
        (by decide) default .start
    have four : 4 ≤ reach := by
      rcases reaches with ⟨_, _, _, _, greatest⟩ | ⟨_, beyond⟩
      · exact greatest 2 (by decide) (by decide)
      · exact absurd (beyond 1 (by decide)) (by decide)
    have short : ∀ ref ∈ Schema.shelf.refs, (ref.depth : Int) ≤ 4 := by decide
    exact whole fun ref member => Int.le_trans (short ref member) four
  · obtain ⟨reach, reaches, -, deep⟩ :=
      acquire_of_describes narrow describes loadable (by decide) (by decide)
        (by decide) default .start
    have two : reach = 2 := by
      rcases reaches with ⟨k, one, rfl, fits, -⟩ | ⟨_, beyond⟩
      · obtain ⟨k, rfl⟩ : ∃ m, k = m + 1 := ⟨k - 1, by omega⟩
        have fits : (1 : Int) * 2 ^ (k + 1) ≤ 3 := fits
        show (1 : Int) * 2 ^ (k + 1) = 2
        rw [double_pow] at fits ⊢
        cases k with
        | zero => rfl
        | succ k =>
            have further :=
              double_le_pow (show (1 : Int) ≤ 2 * 1 by decide) (show 1 ≤ k + 1 by omega)
            omega
      · exact absurd (beyond 1 (by decide)) (by decide)
    subst two
    obtain ⟨names, x, acquired, -, listed⟩ := deep (by decide)
    refine ⟨names, x, acquired, fun name => (listed name).trans ?_⟩
    constructor
    · rintro ⟨type, member, rfl, long⟩
      revert type
      decide
    · rintro rfl
      decide

end SchemaBaseline.Introspection
