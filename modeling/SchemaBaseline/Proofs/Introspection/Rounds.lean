import SchemaBaseline.Proofs.Introspection.Acquire

/-!
# The rounds of an acquisition

After its first answer a client goes through rounds: in each of them it asks once more for every
type that is truncated, one after the other, at twice the depth of the round before. A server may
answer as it likes, so nothing is known about the entries at hand beyond where they come from.
`Client.Plays` says what a sequence of completed rounds is, and `Client.Stops` how it ends;
neither of them knows of a bound on the number of rounds. `deepen_cases` shows that this is what
happens, whatever the server answers and wherever it fails.
-/

namespace SchemaBaseline.Introspection

/-! ## Good answers -/

/-- A successful reply whose body is an object that reports no errors and holds, among its data,
an object of the given name. -/
def Reply.Yields (reply : Reply) (name : String) (entries : Entries) : Prop :=
  ∃ status bytes body data, reply = .answer status bytes ∧ status.isSuccess = true ∧
    Json.readBody bytes = .ok (.object body) ∧
    ((Value.object body).field "errors").isTruthy = false ∧
    (Value.object body).field "data" = .object data ∧
    (Value.object data).field name = .object entries

/-- What a body must be for its data to be used. -/
theorem object_of_dataOfBody {body data : Value} (ok : dataOfBody body = .ok data) :
    ∃ entries dataEntries, body = .object entries ∧ (body.field "errors").isTruthy = false ∧
      body.field "data" = .object dataEntries ∧ data = .object dataEntries := by
  cases body with
  | object entries =>
    simp only [dataOfBody] at ok
    split at ok
    · split at ok <;> cases ok
    · rename_i noErrors
      split at ok
      · rename_i dataEntries found
        cases ok
        exact ⟨entries, dataEntries, rfl, Bool.eq_false_iff.mpr noErrors, found, rfl⟩
      · cases ok
  | _ => cases ok

/-- A reply yields an object exactly if the object is found in the data that a client takes from
the reply. -/
theorem Reply.yields_iff {reply : Reply} {name : String} {entries : Entries} :
    reply.Yields name entries ↔ ∃ data, dataOfReply reply = .ok data ∧
      data.field name = .object entries := by
  constructor
  · rintro ⟨status, bytes, body, data, rfl, success, read, noErrors, found, inside⟩
    refine ⟨.object data, ?_, inside⟩
    simp only [dataOfReply, success, if_true, read, dataOfBody, noErrors, Bool.false_eq_true,
      if_false, found]
  · rintro ⟨data, ok, inside⟩
    cases reply with
    | failure failure => cases failure <;> cases ok
    | answer status bytes =>
      simp only [dataOfReply] at ok
      split at ok
      · rename_i success
        split at ok
        · rename_i body read
          obtain ⟨entries, dataEntries, rfl, noErrors, found, rfl⟩ := object_of_dataOfBody ok
          exact ⟨status, bytes, entries, dataEntries, rfl, success, read, noErrors, found, inside⟩
        · cases ok
      · cases ok

/-! ## What is truncated -/

/-- Every entry has a name and can be searched for truncated references. -/
def Searchable (types : List Value) : Prop :=
  ∀ entry ∈ types, ∃ name truncated, entryName? entry = some name ∧
    anyTruncated (sightings entry) = .ok truncated

/-- The names of the entries with a truncated reference, in rising order and each of them once. -/
structure Pending (types : List Value) (names : List TypeName) : Prop where
  searchable : Searchable types
  sorted : names.Pairwise (· < ·)
  mem_iff : ∀ name, name ∈ names ↔
    ∃ entry ∈ types, entryName? entry = some name ∧ anyTruncated (sightings entry) = .ok true

theorem pending_of_truncatedNames {types : List Value} {names : List TypeName}
    (found : truncatedNames types = .ok names) :
    Pending types names := by
  induction types generalizing names with
  | nil =>
    cases found
    exact ⟨fun _ member => (nomatch member), .nil, fun name => by simp⟩
  | cons entry rest ih =>
    simp only [truncatedNames] at found
    split at found
    · cases found
    rename_i name named
    split at found
    · cases found
    · cases found
    rename_i truncated searched
    split at found
    · cases found
    rename_i others foundRest
    have pending := ih foundRest
    injection found with same
    subst same
    refine ⟨List.forall_mem_cons.mpr ⟨⟨name, truncated, named, searched⟩, pending.searchable⟩, ?_,
      fun other => ?_⟩
    · split
      · exact sorted_insertName name pending.sorted
      · exact pending.sorted
    · cases truncated with
      | true => simp [mem_insertName, pending.mem_iff, named, searched, eq_comm]
      | false => simp [pending.mem_iff, searched]

theorem not_searchable_of_truncatedNames {types : List Value} {fault : SearchFault}
    (failed : truncatedNames types = .error fault) : ¬ Searchable types := by
  intro searchable
  induction types generalizing fault with
  | nil => cases failed
  | cons entry rest ih =>
    obtain ⟨⟨name, truncated, named, searched⟩, others⟩ := List.forall_mem_cons.mp searchable
    simp only [truncatedNames, named, searched] at failed
    split at failed
    · rename_i failedRest
      exact ih failedRest others
    · cases failed

/-! ## Places -/

/-- The last of the entries that goes by a name stands at a place. -/
structure LastNamed (types : List Value) (name : TypeName) (place : Nat) : Prop where
  named : ∃ entry, types[place]? = some entry ∧ entryName? entry = some name
  last : ∀ later entry, place < later → types[later]? = some entry → entryName? entry ≠ some name

theorem lastNamed_of_lastPosition {types : List Value} {name : TypeName} {place : Nat}
    (found : lastPosition name types = some place) : LastNamed types name place := by
  obtain ⟨back, foundBack, rfl⟩ := Option.map_eq_some_iff.mp found
  obtain ⟨short, named, before⟩ := List.findIdx?_eq_some_iff_getElem.mp foundBack
  rw [List.length_reverse] at short
  rw [List.getElem_reverse, beq_iff_eq] at named
  refine ⟨⟨_, List.getElem?_eq_getElem (by omega), named⟩,
    fun later entry behind there sameName => ?_⟩
  obtain ⟨within, rfl⟩ := List.getElem?_eq_some_iff.mp there
  have earlier := before (types.length - 1 - later) (by omega)
  have mirrored : types.length - 1 - (types.length - 1 - later) = later := by omega
  simp only [List.getElem_reverse, mirrored, sameName, beq_self_eq_true, not_true] at earlier

theorem exists_lastPosition {types : List Value} {name : TypeName} {entry : Value}
    (member : entry ∈ types) (named : entryName? entry = some name) :
    ∃ place, lastPosition name types = some place := by
  have found : (types.reverse.findIdx? fun entry => entryName? entry == some name).isSome := by
    rw [List.findIdx?_isSome, List.any_eq_true]
    exact ⟨entry, List.mem_reverse.mpr member, by rw [named]; exact beq_self_eq_true _⟩
  obtain ⟨back, foundBack⟩ := Option.isSome_iff_exists.mp found
  exact ⟨types.length - 1 - back, by rw [lastPosition, foundBack]; rfl⟩

/-! ## Refetches -/

/-- A type that has been fetched again: the depth and the name that were asked for, the place of
the type among the entries, and the object in the answer. -/
structure Refetch where
  depth : Int
  name : TypeName
  place : Nat
  entry : Entries

/-- The request of a refetch. -/
def Refetch.request (r : Refetch) : Request :=
  .type r.depth r.name

/-- Type entries after some of them have been replaced, one after the other, by what has been
fetched again. -/
def replaced (types : List Value) (refetches : List Refetch) : List Value :=
  refetches.foldl (fun types r => types.set r.place (.object r.entry)) types

/-- The requests of refetches are sent in their order, and each of them is answered with its
object. -/
inductive Answered (server : Server) : List Request → List Refetch → Prop
  | nil {before : List Request} : Answered server before []
  | cons {before : List Request} {r : Refetch} {others : List Refetch}
    (yields : (server.answer before r.request).Yields "__type" r.entry)
    (behind : Answered server (before ++ [r.request]) others) :
    Answered server before (r :: others)

/-- A refetch belongs to a round at a depth that begins with the given entries: it goes to the
last entry of its name. -/
structure Refetch.Fits (types : List Value) (depth : Int) (r : Refetch) : Prop where
  depth_eq : r.depth = depth
  place_last : LastNamed types r.name r.place

theorem replaced_append (types : List Value) (first second : List Refetch) :
    replaced types (first ++ second) = replaced (replaced types first) second :=
  List.foldl_append

@[simp] theorem length_replaced (types : List Value) (refetches : List Refetch) :
    (replaced types refetches).length = types.length := by
  induction refetches generalizing types with
  | nil => rfl
  | cons r others ih => exact (ih _).trans List.length_set

variable {server : Server}

theorem Answered.append {before : List Request} {first second : List Refetch}
    (former : Answered server before first)
    (latter : Answered server (before ++ first.map Refetch.request) second) :
    Answered server before (first ++ second) := by
  induction former with
  | nil => simpa using latter
  | cons yields _ ih => exact .cons yields (ih (by simpa using latter))

/-! ## One round -/

/-- The entry that a client takes from a reply to a request for a single type, or why it takes
none. -/
def entryOfReply (name : TypeName) (reply : Reply) : Except AcquireError Value :=
  (dataOfReply reply).bind (typeOfData name)

theorem entryOfReply_cases (name : TypeName) (reply : Reply) :
    (∃ entry, reply.Yields "__type" entry ∧ entryOfReply name reply = .ok (.object entry)) ∨
      (∀ entry, ¬ reply.Yields "__type" entry) ∧ ∃ e, entryOfReply name reply = .error e := by
  simp only [Reply.yields_iff, entryOfReply]
  cases dataOfReply reply with
  | error e => exact .inr ⟨fun entry ⟨_, ok, _⟩ => (nomatch ok), e, rfl⟩
  | ok data =>
    cases found : data.field "__type" with
    | object entry =>
      refine .inl ⟨entry, ⟨data, rfl, found⟩, ?_⟩
      simp only [Except.bind, typeOfData, found]
    | _ =>
      refine .inr ⟨?_, .refused (.vanished name), ?_⟩
      · rintro entry ⟨_, ok, inside⟩
        cases ok
        cases found.symm.trans inside
      · simp only [Except.bind, typeOfData, found]

/-- A refetch takes the first name, and goes on with the others if that has been answered. -/
theorem refetch_cons (depth : Int) (place : TypeName → Option Nat) (name : TypeName)
    (names : List TypeName) (types : List Value) (x : Exchange) :
    refetch server depth place (name :: names) types x =
      match entryOfReply name (server.answer x.sent (.type depth name)) with
      | .error e => (.error e, (x.send server (.type depth name)).2)
      | .ok entry =>
        refetch server depth place names
          (((place name).map fun i => types.set i entry).getD types)
          (x.send server (.type depth name)).2 := by
  have asked : ask server (.type depth name) x =
      (dataOfReply (server.answer x.sent (.type depth name)),
      (x.send server (.type depth name)).2) := rfl
  rw [refetch, asked, entryOfReply]
  cases dataOfReply (server.answer x.sent (.type depth name)) with
  | error e => rfl
  | ok data =>
    simp only [Except.bind]
    cases typeOfData name data with
    | error e => rfl
    | ok entry => cases place name <;> rfl

/-- A round asks for one name after the other. Either all of them are answered, and their types
replaced, or one is not, and nothing is asked for behind it. `first` are the entries at the
beginning of the round, by which the places are told. -/
theorem refetch_cases (depth : Int) (first : List Value) {names : List TypeName}
    (known : ∀ name ∈ names, ∃ place, lastPosition name first = some place) (types : List Value)
    (x : Exchange) :
    (∃ refetches x', refetches.map Refetch.name = names ∧ (∀ r ∈ refetches, r.Fits first depth) ∧
      Answered server x.sent refetches ∧ x'.sent = x.sent ++ refetches.map Refetch.request ∧
      refetch server depth (lastPosition · first) names types x =
        (.ok (replaced types refetches), x')) ∨
    ∃ refetches name unasked e x', names = refetches.map Refetch.name ++ name :: unasked ∧
      (∀ r ∈ refetches, r.Fits first depth) ∧ Answered server x.sent refetches ∧
      (∀ entry, ¬ (server.answer (x.sent ++ refetches.map Refetch.request)
        (.type depth name)).Yields "__type" entry) ∧
      x'.sent = x.sent ++ refetches.map Refetch.request ++ [.type depth name] ∧
      refetch server depth (lastPosition · first) names types x = (.error e, x') := by
  induction names generalizing types x with
  | nil => exact .inl ⟨[], x, rfl, List.forall_mem_nil _, .nil, (List.append_nil _).symm, rfl⟩
  | cons name names ih =>
    obtain ⟨place, found⟩ := known name List.mem_cons_self
    rcases entryOfReply_cases name (server.answer x.sent (.type depth name)) with
      ⟨entry, yields, ok⟩ | ⟨none, e, failed⟩
    · have step : refetch server depth (lastPosition · first) (name :: names) types x =
          refetch server depth (lastPosition · first) names (types.set place (.object entry))
            (x.send server (.type depth name)).2 := by
        simp only [refetch_cons, ok, found, Option.map_some, Option.getD_some]
      have fits : Refetch.Fits first depth ⟨depth, name, place, entry⟩ :=
        ⟨rfl, lastNamed_of_lastPosition found⟩
      rw [step]
      rcases ih (fun other member => known other (List.mem_cons_of_mem _ member))
        (types.set place (.object entry)) (x.send server (.type depth name)).2 with
        ⟨refetches, x', rfl, allFit, answered, sent, fetched⟩ |
        ⟨refetches, failing, unasked, e, x', rfl, allFit, answered, none, sent, fetched⟩
      · refine .inl ⟨⟨depth, name, place, entry⟩ :: refetches, x', rfl,
          List.forall_mem_cons.mpr ⟨fits, allFit⟩, .cons yields answered, ?_, fetched⟩
        simpa [Refetch.request] using sent
      · refine .inr ⟨⟨depth, name, place, entry⟩ :: refetches, failing, unasked, e, x', rfl,
          List.forall_mem_cons.mpr ⟨fits, allFit⟩, .cons yields answered, ?_, ?_, fetched⟩
        · simpa [Refetch.request] using none
        · simpa [Refetch.request] using sent
    · refine .inr ⟨[], name, names, e, (x.send server (.type depth name)).2, rfl,
        List.forall_mem_nil _, .nil, ?_, ?_, ?_⟩
      · simpa using none
      · simp
      · simp only [refetch_cons, failed]

/-! ## All rounds -/

/-- A round under way, the next one after `k` rounds: its depth is within the limit, and of the
names of what is truncated the first ones have been asked for and answered, and some are left. -/
structure Client.Underway (client : Client) (server : Server) (k : Nat) (types : List Value)
    (before : List Request)
    (refetches : List Refetch) (left : List TypeName) : Prop where
  pending : Pending types (refetches.map Refetch.name ++ left)
  within : client.depth * 2 ^ (k + 1) ≤ client.maxDepth
  fits : ∀ r ∈ refetches, r.Fits types (client.depth * 2 ^ (k + 1))
  answered : Answered server before refetches

/-- Rounds that are completed one after the other, when `k` have been completed before and have
led to the given entries. -/
inductive Client.Plays (client : Client) (server : Server) :
    Nat → List Value → List Request → List (List Refetch) → Prop
  | none {k : Nat} {types : List Value} {before : List Request} :
    Plays client server k types before []
  | round {k : Nat} {types : List Value} {before : List Request} {refetches : List Refetch}
    {others : List (List Refetch)}
      (completed : client.Underway server k types before refetches []) (some : refetches ≠ [])
      (further : Plays client server (k + 1) (replaced types refetches)
        (before ++ refetches.map Refetch.request) others) :
      Plays client server k types before (refetches :: others)

/-- How it goes on to its end when `k` rounds have been completed, and what is requested on the
way. -/
inductive Client.Stops (client : Client) (server : Server) (k : Nat) (types : List Value)
    (before : List Request) :
    List Request → Prop
  /-- Nothing is truncated any more, and the version is asked for. -/
  | whole (pending : Pending types []) : Stops client server k types before [.about]
  /-- The entries cannot be searched for what is truncated. -/
  | unsearchable (stuck : ¬ Searchable types) : Stops client server k types before []
  /-- Something is truncated, but the depth of the next round exceeds the limit. -/
  | ceiling {names : List TypeName} (pending : Pending types names) (some : names ≠ [])
    (exceeds : client.maxDepth < client.depth * 2 ^ (k + 1)) :
    Stops client server k types before []
  /-- In the next round a request is not answered with an object, and the names behind it are not
  asked for. -/
  | broken {refetches : List Refetch} {name : TypeName} {unasked : List TypeName}
      (underway : client.Underway server k types before refetches (name :: unasked))
      (failed : ∀ entry, ¬ (server.answer (before ++ refetches.map Refetch.request)
        (.type (client.depth * 2 ^ (k + 1)) name)).Yields "__type" entry) :
      Stops client server k types before
        (refetches.map Refetch.request ++ [.type (client.depth * 2 ^ (k + 1)) name])

theorem mul_two_pow_succ (depth : Int) (k : Nat) : 2 * (depth * 2 ^ k) = depth * 2 ^ (k + 1) := by
  rw [double_pow, Int.mul_assoc]

theorem mul_two_pow_pos {depth : Int} (positive : 1 ≤ depth) (k : Nat) : 0 < depth * 2 ^ k :=
  Int.mul_pos positive (Int.pow_pos (by decide))

theorem Pending.exists_lastPosition {types : List Value} {names : List TypeName}
    (pending : Pending types names) :
    ∀ name ∈ names, ∃ place, lastPosition name types = some place := by
  intro name member
  obtain ⟨entry, entryMember, named, -⟩ := (pending.mem_iff name).mp member
  exact Introspection.exists_lastPosition entryMember named

section Deepen

variable (client : Client) (server : Server) {types : List Value} {name : TypeName}
    {names : List TypeName}

/-- What a round comes to: it is completed and the next one begins, or a request in it is not
answered with an object. -/
theorem deepen_round_cases {k : Nat} (search : truncatedNames types = .ok (name :: names))
    (within : client.depth * 2 ^ (k + 1) ≤ client.maxDepth) (rounds : Nat) (x : Exchange) :
    (∃ refetches x', client.Underway server k types x.sent refetches [] ∧ refetches ≠ [] ∧
      x'.sent = x.sent ++ refetches.map Refetch.request ∧
      client.deepen server (rounds + 1) (client.depth * 2 ^ k) types x =
        client.deepen server rounds (client.depth * 2 ^ (k + 1)) (replaced types refetches) x') ∨
    ∃ e x' rest, client.Stops server k types x.sent rest ∧ x'.sent = x.sent ++ rest ∧
      client.deepen server (rounds + 1) (client.depth * 2 ^ k) types x = (.error e, x') := by
  have pending := pending_of_truncatedNames search
  have reachable : 2 * (client.depth * 2 ^ k) ≤ client.maxDepth := by rwa [mul_two_pow_succ]
  have step := deepen_succ client server search reachable rounds x
  rw [mul_two_pow_succ] at step
  -- What is logged at the beginning of the round is not sent.
  generalize noted : x.note .debug _ = x₀ at step
  have sent₀ : x₀.sent = x.sent := by rw [← noted, Exchange.sent_note]
  rcases refetch_cases (client.depth * 2 ^ (k + 1)) types pending.exists_lastPosition types
    x₀ with
    ⟨refetches, x', asked, fits, answered, sent, fetched⟩ |
    ⟨refetches, failing, unasked, e, x', asked, fits, answered, none, sent, fetched⟩
  · rw [sent₀] at answered sent
    rw [fetched] at step
    refine .inl ⟨refetches, x', ⟨by rwa [List.append_nil, asked], within, fits, answered⟩,
      ?_, sent, step⟩
    rintro rfl
    cases asked
  · rw [sent₀] at answered none sent
    rw [fetched] at step
    rw [asked] at pending
    exact .inr ⟨e, x', _, .broken ⟨pending, within, fits, answered⟩ none,
      by rwa [← List.append_assoc], step⟩

end Deepen

/-- Whatever a server answers, a client completes some rounds and then has its entries, or fails.
With rounds enough to exceed the limit by doubling, the failure is for one of the reasons of
`Client.Stops`, and never for the number of rounds. -/
theorem deepen_cases (client : Client) (server : Server) (rounds k : Nat) (types : List Value)
    (x : Exchange) :
    ∃ played, client.Plays server k types x.sent played ∧
      ((∃ x', client.deepen server rounds (client.depth * 2 ^ k) types x =
        (.ok (replaced types played.flatten), x') ∧
          Pending (replaced types played.flatten) [] ∧
            x'.sent = x.sent ++ played.flatten.map Refetch.request) ∨
        ∃ e x', client.deepen server rounds (client.depth * 2 ^ k) types x = (.error e, x') ∧
          (1 ≤ client.depth → (client.maxDepth - client.depth * 2 ^ k).toNat < rounds →
            ∃ rest, client.Stops server (k + played.length) (replaced types played.flatten)
                (x.sent ++ played.flatten.map Refetch.request) rest ∧
              x'.sent = x.sent ++ played.flatten.map Refetch.request ++ rest)) := by
  induction rounds generalizing k types x with
  | zero =>
    refine ⟨[], .none, ?_⟩
    cases search : truncatedNames types with
    | error fault =>
      exact .inr ⟨_, x, deepen_of_error client server search 0 _ x,
        fun _ enough => absurd enough (Nat.not_lt_zero _)⟩
    | ok names =>
      cases names with
      | nil =>
        exact .inl ⟨x, deepen_of_whole client server search 0 _ x,
          pending_of_truncatedNames search, by simp⟩
      | cons name others =>
        exact .inr ⟨_, x, deepen_zero client server search _ x,
          fun _ enough => absurd enough (Nat.not_lt_zero _)⟩
  | succ rounds ih =>
    cases search : truncatedNames types with
    | error fault =>
      exact ⟨[], .none, .inr ⟨_, x, deepen_of_error client server search _ _ x, fun _ _ =>
        ⟨[], .unsearchable (not_searchable_of_truncatedNames search), by simp⟩⟩⟩
    | ok names =>
      have pending := pending_of_truncatedNames search
      cases names with
      | nil =>
        exact ⟨[], .none, .inl ⟨x, deepen_of_whole client server search _ _ x, pending, by simp⟩⟩
      | cons name others =>
        by_cases exceeds : client.maxDepth < client.depth * 2 ^ (k + 1)
        · have beyond : client.maxDepth < 2 * (client.depth * 2 ^ k) := by rwa [mul_two_pow_succ]
          have failed := deepen_of_exceeds client server search beyond (rounds + 1) x
          exact ⟨[], .none, .inr ⟨_, x, failed,
            fun _ _ => ⟨[], .ceiling pending (List.cons_ne_nil _ _) exceeds, by simp⟩⟩⟩
        · have within : client.depth * 2 ^ (k + 1) ≤ client.maxDepth := Int.not_lt.mp exceeds
          rcases deepen_round_cases client server search within rounds x with
            ⟨refetches, x', completed, some, sent, step⟩ | ⟨e, x', rest, stops, sent, failed⟩
          · obtain ⟨played, plays, outcome⟩ := ih (k + 1) (replaced types refetches) x'
            refine ⟨refetches :: played, .round completed some (sent ▸ plays), ?_⟩
            have count : k + (refetches :: played).length = k + 1 + played.length := by
              rw [List.length_cons]
              omega
            rw [step, count, List.flatten_cons, replaced_append, List.map_append,
              ← List.append_assoc, ← sent]
            rcases outcome with finished | ⟨e, x'', failed, stops⟩
            · exact .inl finished
            · refine .inr ⟨e, x'', failed, fun positive enough => stops positive ?_⟩
              have grows := mul_two_pow_pos positive k
              have doubled := mul_two_pow_succ client.depth k
              omega
          · refine ⟨[], .none, .inr ⟨e, x', failed, fun _ _ => ⟨rest, ?_, by simpa using sent⟩⟩⟩
            simpa [replaced] using stops

end SchemaBaseline.Introspection
