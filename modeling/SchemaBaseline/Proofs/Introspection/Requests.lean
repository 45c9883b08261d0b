import SchemaBaseline.Proofs.Introspection.Rounds

/-!
# What an acquisition asks for

`Client.Course` says which requests an acquisition may send, given what the server answers: the
whole schema first, then the rounds, then the version if nothing is truncated any more. It breaks
off where an answer is of no use. `Client.acquire_requests` shows that every acquisition keeps to
it, with any server, and that its rounds end by themselves: with more rounds allowed nothing
changes.
-/

namespace SchemaBaseline.Introspection

/-! ## The rounds end by themselves -/

/-- Once there are rounds enough to exceed the limit by doubling, more of them change nothing. -/
theorem deepen_add (client : Client) (server : Server) {rounds : Nat} {depth : Int}
    (positive : 1 ≤ depth) (enough : (client.maxDepth - depth).toNat < rounds) (more : Nat)
    (types : List Value) (x : Exchange) :
    client.deepen server (rounds + more) depth types x =
      client.deepen server rounds depth types x := by
  induction rounds generalizing depth types x with
  | zero => exact absurd enough (Nat.not_lt_zero _)
  | succ rounds ih =>
    cases search : truncatedNames types with
    | error fault =>
      rw [deepen_of_error client server search, deepen_of_error client server search]
    | ok names =>
      cases names with
      | nil => rw [deepen_of_whole client server search, deepen_of_whole client server search]
      | cons name others =>
        by_cases exceeds : client.maxDepth < 2 * depth
        · rw [deepen_of_exceeds client server search exceeds,
            deepen_of_exceeds client server search exceeds]
        · have within : 2 * depth ≤ client.maxDepth := Int.not_lt.mp exceeds
          have deeper := ih (show 1 ≤ 2 * depth by omega) (by omega)
          rw [Nat.add_right_comm, deepen_succ client server search within,
            deepen_succ client server search within]
          simp only [deeper]

theorem deepen_rounds_add (client : Client) (server : Server) (positive : 1 ≤ client.depth)
    (more : Nat) (types : List Value) (x : Exchange) :
    client.deepen server (client.rounds + more) client.depth types x =
      client.deepen server client.rounds client.depth types x :=
  deepen_add client server positive (lt_rounds client positive) more types x

/-! ## The first answer and the last request -/

variable {client : Client} {server : Server}

/-- An acquisition has no address, or its first answer is of no use, or it goes on with the type
entries of the first answer. -/
theorem acquire_first_cases (client : Client) (server : Server) (now : Time.Stamp)
    (x : Exchange) :
    (client.server = "" ∧ ∃ e, client.acquire now server x = (.error e, x)) ∨
    (client.server ≠ "" ∧ (∀ schema types,
      (server.answer x.sent (.schema client.depth)).Yields "__schema" schema →
        (Value.object schema).field "types" ≠ .list types) ∧
      ∃ e, client.acquire now server x = (.error e, (x.send server (.schema client.depth)).2)) ∨
    ∃ schema types, client.server ≠ "" ∧
      (server.answer x.sent (.schema client.depth)).Yields "__schema" schema ∧
      (Value.object schema).field "types" = .list types ∧
      client.acquire now server x =
        client.complete now server (.object schema) (x.send server (.schema client.depth)).2 := by
  by_cases addressed : client.server = ""
  · exact .inl ⟨addressed, _, by rw [Client.acquire, addressed]; rfl⟩
  · have asked : ask server (.schema client.depth) x =
        (dataOfReply (server.answer x.sent (.schema client.depth)),
        (x.send server (.schema client.depth)).2) := rfl
    have notEmpty : ¬ client.server.isEmpty = true := by simpa using addressed
    refine .inr ?_
    simp only [Reply.yields_iff]
    rw [Client.acquire, if_neg notEmpty, asked]
    cases taken : dataOfReply (server.answer x.sent (.schema client.depth)) with
    | error e =>
      refine .inl ⟨addressed, ?_, e, rfl⟩
      rintro schema types ⟨_, ok, -⟩
      cases ok
    | ok data =>
      cases found : data.field "__schema" with
      | object schema =>
        cases entries : (Value.object schema).field "types" with
        | list types =>
          exact .inr ⟨schema, types, addressed, ⟨data, rfl, found⟩, entries, by simp only [found]⟩
        | _ =>
          refine .inl ⟨addressed, ?_, .refused .typesNotAList,
            by simp only [found, Client.complete, entries]⟩
          rintro schema types ⟨_, ok, inside⟩ listed
          cases ok
          cases found.symm.trans inside
          cases entries.symm.trans listed
      | _ =>
        refine .inl ⟨addressed, ?_, .refused .noSchema, by simp only [found]⟩
        rintro schema types ⟨_, ok, inside⟩
        cases ok
        cases found.symm.trans inside

theorem sent_version (client : Client) (server : Server) (x : Exchange) :
    (client.version server x).2.sent = x.sent ++ [.about] := by
  unfold Client.version
  simp only
  split <;> simp

/-- Once the rounds are over, the version is asked for. -/
theorem sent_complete_of_ok (now : Time.Stamp) {schema : Value} {types types' : List Value}
    {x x' : Exchange} (found : schema.field "types" = .list types)
    (deepened : client.deepen server client.rounds client.depth types x = (.ok types', x')) :
    (client.complete now server schema x).2.sent = x'.sent ++ [.about] := by
  rw [← sent_version client server x']
  simp only [Client.complete, found, deepened]
  split
  · rename_i b x'' told
    rw [told]
  · rename_i info x'' told
    rw [told]
    split <;> rfl

theorem complete_of_error {now : Time.Stamp} {schema : Value} {types : List Value}
    {x x' : Exchange} {e : AcquireError} (found : schema.field "types" = .list types)
    (failed : client.deepen server client.rounds client.depth types x = (.error e, x')) :
    client.complete now server schema x = (.error e, x') := by
  simp only [Client.complete, found, failed]

/-! ## The law of the requests -/

/-- What an acquisition sends when the given requests have been sent before it. -/
inductive Client.Course (client : Client) (server : Server) (before : List Request) :
    List Request → Prop
  /-- There is no server to ask. -/
  | unaddressed (none : client.server = "") : Course client server before []
  /-- The first answer holds no schema with a list of types. -/
  | refused (addressed : client.server ≠ "")
      (failed : ∀ schema types, (server.answer before (.schema client.depth)).Yields
        "__schema" schema →
        (Value.object schema).field "types" ≠ .list types) :
      Course client server before [.schema client.depth]
  /-- The type entries of the first answer are followed by rounds, and these by what ends them. -/
  | rounds {schema : Entries} {types : List Value} {played : List (List Refetch)}
    {rest : List Request}
      (addressed : client.server ≠ "")
      (yields : (server.answer before (.schema client.depth)).Yields "__schema" schema)
      (found : (Value.object schema).field "types" = .list types)
      (plays : client.Plays server 0 types (before ++ [.schema client.depth]) played)
      (stops : client.Stops server played.length (replaced types played.flatten)
        (before ++ [.schema client.depth] ++ played.flatten.map Refetch.request) rest) :
      Course client server before (.schema client.depth ::
        (played.flatten.map Refetch.request ++ rest))

theorem Client.Plays.depth_le {k : Nat} {types : List Value} {before : List Request}
    {played : List (List Refetch)} (plays : client.Plays server k types before played) :
    ∀ r ∈ played.flatten, r.depth ≤ client.maxDepth := by
  induction plays with
  | none => exact fun _ member => (nomatch member)
  | round completed _ _ ih =>
    intro r member
    rw [List.flatten_cons, List.mem_append] at member
    rcases member with here | later
    · exact (completed.fits r here).depth_eq ▸ completed.within
    · exact ih r later

/-- No type is asked for at a depth above the limit. -/
theorem Client.Course.depth_le {before requests : List Request}
    (course : client.Course server before requests) {depth : Int} {name : TypeName}
    (member : .type depth name ∈ requests) : depth ≤ client.maxDepth := by
  have refetched : ∀ {refetches : List Refetch}, (∀ r ∈ refetches, r.depth ≤ client.maxDepth) →
      .type depth name ∈ refetches.map Refetch.request → depth ≤ client.maxDepth := by
    intro refetches within listed
    obtain ⟨r, listed, same⟩ := List.mem_map.mp listed
    injection same with same
    exact same ▸ within r listed
  cases course with
  | unaddressed => cases member
  | refused =>
    cases List.mem_singleton.mp member
  | rounds _ _ _ plays stops =>
    rcases List.mem_append.mp ((List.mem_cons.mp member).resolve_left (fun same => nomatch same))
      with inRounds | behind
    · exact refetched plays.depth_le inRounds
    · cases stops with
      | whole => cases List.mem_singleton.mp behind
      | unsearchable => cases behind
      | ceiling => cases behind
      | broken underway _ =>
        rcases List.mem_append.mp behind with answered | failing
        · exact refetched (fun r listed => (underway.fits r listed).depth_eq ▸
            underway.within) answered
        · injection List.mem_singleton.mp failing with same
          exact same ▸ underway.within

/-- An acquisition keeps to its course. -/
theorem course_of_acquire (client : Client) (server : Server) (positive : 1 ≤ client.depth)
    (now : Time.Stamp) (x : Exchange) :
    ∃ requests, (client.acquire now server x).2.sent = x.sent ++ requests ∧
      client.Course server x.sent requests := by
  rcases acquire_first_cases client server now x with
    ⟨none, e, acquired⟩ | ⟨addressed, failed, e, acquired⟩ |
      ⟨schema, types, addressed, yields, found, acquired⟩
  · exact ⟨[], by rw [acquired, List.append_nil], .unaddressed none⟩
  · exact ⟨[.schema client.depth],
      by rw [acquired, Exchange.sent_send], .refused addressed failed⟩
  · obtain ⟨played, plays, outcome⟩ :=
      deepen_cases client server client.rounds 0 types (x.send server (.schema client.depth)).2
    have begun : client.depth * 2 ^ 0 = client.depth := Int.mul_one _
    rw [begun] at outcome
    rw [acquired]
    rcases outcome with ⟨x', finished, pending, sent⟩ | ⟨e, x', failed, stops⟩
    · refine ⟨_, ?_, .rounds addressed yields found plays (.whole pending)⟩
      rw [sent_complete_of_ok now found finished, sent, Exchange.sent_send]
      simp only [List.append_assoc, List.cons_append, List.nil_append]
    · obtain ⟨rest, stops, sent⟩ := stops positive (lt_rounds client positive)
      rw [Nat.zero_add, Exchange.sent_send] at stops
      refine ⟨_, ?_, .rounds addressed yields found plays stops⟩
      rw [complete_of_error found failed, sent, Exchange.sent_send]
      simp only [List.append_assoc, List.cons_append, List.nil_append]

/-- Whatever a server answers, the rounds of an acquisition end by themselves: it makes no
difference if more of them are allowed. What an acquisition sends is its course, which asks for
exactly what is truncated, and never at a depth above the limit. -/
theorem Client.acquire_requests (client : Client) (positive : 1 ≤ client.depth) (server : Server)
    (now : Time.Stamp) (x : Exchange) :
    (∀ more types x', client.deepen server (client.rounds + more) client.depth types x' =
      client.deepen server client.rounds client.depth types x') ∧
    ∃ requests, (client.acquire now server x).2.sent = x.sent ++ requests ∧
      client.Course server x.sent requests ∧
      ∀ depth name, .type depth name ∈ requests → depth ≤ client.maxDepth := by
  refine ⟨deepen_rounds_add client server positive, ?_⟩
  obtain ⟨requests, sent, course⟩ := course_of_acquire client server positive now x
  exact ⟨requests, sent, course, fun _ _ member => course.depth_le member⟩

theorem Client.acquire_requests_shelf :
    let client : Client := ⟨"http://localhost", 1, 3, 0⟩
    let server := Server.ofSchema .shelf
    1 ≤ client.depth ∧
    (∀ more types x, client.deepen server (client.rounds + more) client.depth types x =
      client.deepen server client.rounds client.depth types x) ∧
    ∃ requests, (client.acquire default server .start).2.sent = requests ∧
      client.Course server [] requests ∧
      ∀ depth name, .type depth name ∈ requests → depth ≤ 3 := by
  intro client server
  exact ⟨by decide, client.acquire_requests (by decide) server default .start⟩

end SchemaBaseline.Introspection
