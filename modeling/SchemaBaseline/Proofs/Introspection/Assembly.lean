import SchemaBaseline.Proofs.Introspection.Requests

/-!
# Where the parts of a snapshot come from

A snapshot is put together from several answers: the first one gives the root types and a list of
type entries, and every refetch replaces the entry at one place of this list. `Client.Assembly`
says how a snapshot goes back to the answers, place by place, and `Client.acquire_assembles` that
every snapshot does: whatever a server answers under whatever names, and in whichever round.
-/

namespace SchemaBaseline

/-! ## Loading keeps places -/

/-- The items of a list are loaded one by one. -/
theorem Checked.forall₂_of_ofItems {α : Type} {load : Value → Checked α} {i : Nat}
    {items : List Value} {parts : List α} (ok : Checked.ofItems load i items = .ok parts) :
    List.Forall₂ (fun item part => load item = .ok part) items parts := by
  induction items generalizing i parts with
  | nil =>
    cases ok
    exact .nil
  | cons item rest ih =>
    simp only [Checked.ofItems, Checked.apply_eq_ok_iff, Checked.map_eq_ok_iff,
      Checked.under_eq_ok_iff] at ok
    obtain ⟨_, others, ⟨part, loaded, rfl⟩, restOk, rfl⟩ := ok
    exact .cons loaded (ih restOk)

/-- What stands at a place of one list has its counterpart at the same place of the other. -/
theorem exists_getElem?_of_forall₂ {α β : Type} {R : α → β → Prop} {as : List α} {bs : List β}
    (each : List.Forall₂ R as bs) {i : Nat} {a : α} (there : as[i]? = some a) :
    ∃ b, bs[i]? = some b ∧ R a b := by
  obtain ⟨short, rfl⟩ := List.getElem?_eq_some_iff.mp there
  have within : i < bs.length := each.length_eq ▸ short
  exact ⟨bs[i], List.getElem?_eq_getElem within, each.get short within⟩

/-- A schema is loaded from its roots and, one by one, from its type entries. -/
theorem Schema.entries_of_load {entries : Entries} {types : List Value} {schema : Schema}
    (listed : Entries.get? entries "types" = some (.list types))
    (ok : Schema.load (.object entries) = .ok schema) :
    Entries.optional entries "queryType" "query_type" none Schema.loadRoot =
      .ok schema.queryType ∧
    Entries.optional entries "mutationType" "mutation_type" none Schema.loadRoot =
      .ok schema.mutationType ∧
    Entries.optional entries "subscriptionType" "subscription_type" none Schema.loadRoot =
      .ok schema.subscriptionType ∧
    List.Forall₂ (fun entry type => NamedType.load entry = .ok type) types schema.types := by
  simp only [Schema.load, Value.entries?, Checked.andThen_eq_ok_iff, Checked.apply_eq_ok_iff,
    Checked.map_eq_ok_iff] at ok
  obtain ⟨_, ⟨_, parts, ⟨_, subscription, ⟨_, mutation, ⟨query, queryOk, rfl⟩, mutationOk, rfl⟩,
      subscriptionOk, rfl⟩, typesOk, rfl⟩, namesOk⟩ := ok
  unfold Schema.checkNames at namesOk
  split at namesOk
  · cases namesOk
  · injection namesOk with same
    subst same
    refine ⟨queryOk, mutationOk, subscriptionOk, ?_⟩
    simp only [Entries.optional, Entries.either?, listed, Option.some_or, Checked.under_eq_ok_iff]
      at typesOk
    exact Checked.forall₂_of_ofItems typesOk

theorem Entries.optional_put {α : Type} {load : Value → Checked α} {name second other : String}
    {default : α} (entries : Entries) (value : Value) (ne : name ≠ other)
    (secondNe : second ≠ other) :
    optional (put entries other value) name second default load =
      optional entries name second default load := by
  unfold optional either?
  rw [get?_put_of_ne entries value ne, get?_put_of_ne entries value secondNe]

namespace Introspection

/-! ## What replacing leaves at a place -/

theorem getElem?_replaced_of_untouched {types : List Value} {refetches : List Refetch}
    {place : Nat} (untouched : ∀ r ∈ refetches, r.place ≠ place) :
    (replaced types refetches)[place]? = types[place]? := by
  induction refetches generalizing types with
  | nil => rfl
  | cons r others ih =>
    obtain ⟨here, later⟩ := List.forall_mem_cons.mp untouched
    exact (ih later).trans (List.getElem?_set_ne here)

/-- The last refetch for a place decides what stands there. -/
theorem getElem?_replaced_last {types : List Value} {earlier later : List Refetch} {r : Refetch}
    (within : r.place < types.length) (last : ∀ other ∈ later, other.place ≠ r.place) :
    (replaced types (earlier ++ r :: later))[r.place]? = some (.object r.entry) := by
  rw [replaced_append]
  refine (getElem?_replaced_of_untouched last).trans (List.getElem?_set_self ?_)
  rwa [length_replaced]

/-! ## What is known of every round -/

variable {client : Client} {server : Server} {k : Nat} {types : List Value}
    {before : List Request}
  {played : List (List Refetch)}

theorem Client.Plays.answered (plays : client.Plays server k types before played) :
    Answered server before played.flatten := by
  induction plays with
  | none => exact .nil
  | round completed _ _ ih => exact completed.answered.append ih

theorem Client.Plays.place_lt (plays : client.Plays server k types before played) :
    ∀ r ∈ played.flatten, r.place < types.length := by
  induction plays with
  | none => exact fun _ member => (nomatch member)
  | round completed _ _ ih =>
    intro r member
    rcases List.mem_append.mp (List.flatten_cons ▸ member) with here | later
    · obtain ⟨entry, found, -⟩ := (completed.fits r here).place_last.named
      exact (List.getElem?_eq_some_iff.mp found).1
    · exact length_replaced _ _ ▸ ih r later

/-- Each refetch of a round goes to the last entry of its name at the beginning of that round. -/
theorem Client.Plays.fits (plays : client.Plays server k types before played) :
    ∀ (j : Nat) (round : List Refetch), played[j]? = some round → ∀ r ∈ round,
      r.Fits (replaced types (played.take j).flatten) (client.depth * 2 ^ (k + j + 1)) := by
  induction plays with
  | none => exact fun _ _ found => (nomatch found)
  | round completed _ _ ih =>
    rintro (_ | j) round found r member
    · cases found
      exact completed.fits r member
    · rw [List.take_succ_cons, List.flatten_cons, replaced_append, ← Nat.add_assoc,
        Nat.add_right_comm _ j 1]
      exact ih j round found r member

/-! ## Whole acquisitions -/

theorem schema_of_snapshot {now : Time.Stamp} {schema info : Value} {s : Snapshot}
    (made : client.snapshot now schema info = .ok s) : Schema.load schema = .ok s.schema := by
  rw [Client.snapshot, load_snapshotEntries] at made
  split at made
  · rename_i loaded
    cases made
    simp only [Checked.apply_eq_ok_iff, Checked.map_eq_ok_iff, Checked.under_eq_ok_iff] at loaded
    obtain ⟨_, told, ⟨schema, schemaOk, rfl⟩, -, rfl⟩ := loaded
    exact schemaOk
  · cases made

/-- For a snapshot the rounds have to come to their end, and what they lead to has to load. -/
theorem complete_ok_cases {now : Time.Stamp} {schema : Entries} {types : List Value}
    {x x' : Exchange} {s : Snapshot} (found : (Value.object schema).field "types" = .list types)
    (completed : client.complete now server (.object schema) x = (.ok s, x')) :
    ∃ types' y, client.deepen server client.rounds client.depth types x = (.ok types', y) ∧
      x'.sent = y.sent ++ [.about] ∧
      Schema.load (.object (Entries.put schema "types" (.list types'))) = .ok s.schema := by
  cases deepened : client.deepen server client.rounds client.depth types x with
  | mk result y =>
    cases result with
    | error e =>
      rw [complete_of_error found deepened] at completed
      cases completed
    | ok types' =>
      have sent := sent_complete_of_ok now found deepened
      rw [completed] at sent
      refine ⟨types', y, rfl, sent, ?_⟩
      simp only [Client.complete, found, deepened] at completed
      split at completed
      · cases completed
      · split at completed
        · cases completed
        · rename_i made
          cases completed
          exact schema_of_snapshot made

/-- Whatever a server answers, a snapshot that is acquired is one that some value denotes. -/
theorem Client.loaded_of_acquire {now : Time.Stamp} {x : Exchange} {s : Snapshot}
    (acquired : (client.acquire now server x).1 = .ok s) :
    s.Loaded := by
  rcases acquire_first_cases client server now x with ⟨-, e, failed⟩ | ⟨-, -, e, failed⟩ |
    ⟨schema, types, -, -, found, goesOn⟩
  · rw [failed] at acquired
    cases acquired
  · rw [failed] at acquired
    cases acquired
  · rw [goesOn] at acquired
    obtain ⟨_, _, -, -, loaded⟩ := complete_ok_cases found (Prod.ext acquired rfl)
    exact Snapshot.loaded_of_sound (Schema.sound_of_load loaded) (Schema.depth_le_of_load loaded)

/-- How a snapshot goes back to the answers of a server, when the given requests have been sent
before. `schema` is the schema of the first answer, `types` are its type entries, and `played` are
the rounds. -/
structure Client.Assembly (client : Client) (server : Server) (before : List Request)
    (schema : Entries) (types : List Value)
    (played : List (List Refetch)) (s : Snapshot) : Prop where
  first : (server.answer before (.schema client.depth)).Yields "__schema" schema
  types_eq : (Value.object schema).field "types" = .list types
  answered : Answered server (before ++ [.schema client.depth]) played.flatten
  fits : ∀ (j : Nat) (round : List Refetch), played[j]? = some round → ∀ r ∈ round,
    r.Fits (replaced types (played.take j).flatten) (client.depth * 2 ^ (j + 1))
  length_eq : s.schema.types.length = types.length
  /-- Where no refetch has gone stands what has been loaded from the first answer. -/
  untouched : ∀ (place : Nat) (entry : Value), types[place]? = some entry →
    (∀ r ∈ played.flatten, r.place ≠ place) →
    ∃ type, s.schema.types[place]? = some type ∧ NamedType.load entry = .ok type
  /-- Elsewhere stands what has been loaded from the answer of the last refetch for the place. -/
  refetched : ∀ (earlier : List Refetch) (r : Refetch) (later : List Refetch),
    played.flatten = earlier ++ r :: later →
    (∀ other ∈ later, other.place ≠ r.place) →
    ∃ type, s.schema.types[r.place]? = some type ∧ NamedType.load (.object r.entry) = .ok type
  query : Entries.optional schema "queryType" "query_type" none Schema.loadRoot =
    .ok s.schema.queryType
  mutation : Entries.optional schema "mutationType" "mutation_type" none Schema.loadRoot =
    .ok s.schema.mutationType
  subscription :
    Entries.optional schema "subscriptionType" "subscription_type" none Schema.loadRoot =
      .ok s.schema.subscriptionType

/-- Every snapshot is assembled from good answers: the first one, and one for every refetch. -/
theorem Client.acquire_assembles (client : Client) (server : Server) {now : Time.Stamp}
    {x x' : Exchange} {s : Snapshot} (acquired : client.acquire now server x = (.ok s, x')) :
    ∃ schema types played, client.Assembly server x.sent schema types played s ∧
      x'.sent = x.sent ++ .schema client.depth :: (played.flatten.map Refetch.request ++
        [.about]) := by
  rcases acquire_first_cases client server now x with
    ⟨-, e, failed⟩ | ⟨-, -, e, failed⟩ | ⟨schema, types, -, yields, found, goesOn⟩
  · cases failed.symm.trans acquired
  · cases failed.symm.trans acquired
  obtain ⟨types', y, deepened, sent, loaded⟩ :=
    complete_ok_cases found (goesOn.symm.trans acquired)
  obtain ⟨played, plays, outcome⟩ :=
    deepen_cases client server client.rounds 0 types (x.send server (.schema client.depth)).2
  have begun : client.depth * 2 ^ 0 = client.depth := Int.mul_one _
  rw [begun, deepened] at outcome
  rw [Exchange.sent_send] at plays outcome
  rcases outcome with ⟨_, finished, -, sentRounds⟩ | ⟨e, _, failed, -⟩
  · cases finished
    obtain ⟨query, mutation, subscription, each⟩ :=
      Schema.entries_of_load (Entries.get?_put_self _ _ _) loaded
    rw [Entries.optional_put schema _ (by decide) (by decide)] at query mutation subscription
    refine ⟨schema, types, played,
      ⟨yields, found, plays.answered, ?_, ?_, ?_, ?_, query, mutation, subscription⟩, ?_⟩
    · simpa only [Nat.zero_add] using plays.fits
    · rw [← each.length_eq, length_replaced]
    · intro place entry there untouched
      exact exists_getElem?_of_forall₂ each
        ((getElem?_replaced_of_untouched untouched).trans there)
    · intro earlier r later split last
      have within :=
        plays.place_lt r (by rw [split]; exact List.mem_append_right _ List.mem_cons_self)
      exact exists_getElem?_of_forall₂ each (split ▸ getElem?_replaced_last within last)
    · rw [sent, sentRounds]
      simp only [List.append_assoc, List.cons_append, List.nil_append]
  · cases failed

/-- The small schema has a type with a reference of four levels, for which a client that begins
with one level asks twice more. -/
theorem Client.acquire_assembles_shelf :
    let client : Client := ⟨"http://localhost", 1, 4, 0⟩
    let server := Server.ofSchema .shelf
    ∃ s x, client.acquire default server .start = (.ok s, x) ∧
      ∃ schema types played, client.Assembly server [] schema types played s ∧
        x.sent = .schema 1 :: (played.flatten.map Refetch.request ++ [.about]) := by
  intro client server
  have describes : server.Describes .shelf := describes_ofSchema Schema.shelf_sound
  obtain ⟨v, y, shown, goesOn⟩ := acquire_eq_complete client describes (by decide) default .start
  rcases complete_of_describes client describes Schema.shelf_sound Schema.shelf_shallow
    (by decide) default shown y with
    ⟨-, info, x, completed⟩ | ⟨⟨type, member, long⟩, -⟩
  · have acquired := goesOn.trans completed
    exact ⟨_, x, acquired, client.acquire_assembles server acquired⟩
  · obtain ⟨ref, refMember, long⟩ := (exceeds_levels_iff (by decide)).mp long
    have short : ∀ ref ∈ Schema.shelf.refs,
        (ref.depth : Int) ≤ lastDepth client.maxDepth client.rounds client.depth := by decide
    exact absurd long (Int.not_lt.mpr
      (short ref (List.mem_flatMap.mpr ⟨type, member, refMember⟩)))

end Introspection

end SchemaBaseline
