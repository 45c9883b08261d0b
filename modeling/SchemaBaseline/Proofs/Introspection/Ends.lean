import SchemaBaseline.Introspection.Acquire
import SchemaBaseline.Proofs.Introspection.Snag
import SchemaBaseline.Proofs.Json.RoundTrip

/-!
# How an acquisition can end

Whatever a server answers, an acquisition ends in a snapshot or in a refusal, with one exception:
an answer can hold a trap (`Trap`), errors that cannot be listed or a type entry that trips the
search. `Client.acquire_cases` says that there is no other way to break an acquisition as long as
the requests themselves come back with an answer or with the transport having failed, and
`Client.acquire_of_memberless` is the plainest way to break it.

`Ends` is what is shown for each part of an acquisition: the ways to end with what holds of the
result, and, where the part has broken, the trap among the answers received since the acquisition
began.
-/

namespace SchemaBaseline.Introspection

/-! ## Answers and traps -/

/-- Every request comes back with an answer, or the transport fails. -/
def Server.Steady (server : Server) : Prop :=
  ∀ before request b, server.answer before request ≠ .failure (.breakdown b)

theorem steady_ofScript {queries others : List Reply}
    (plain : ∀ reply ∈ queries ++ others, ∀ b, reply ≠ .failure (.breakdown b)) :
    (Server.ofScript queries others).Steady := by
  have orNone : ∀ reply? : Option Reply,
      (∀ reply, reply? = some reply → reply ∈ queries ++ others) →
        ∀ b, reply?.getD noReply ≠ .failure (.breakdown b) := by
    intro reply? known b
    cases reply? with
    | none => exact fun same => nomatch same
    | some reply => exact plain reply (known reply rfl) b
  intro before request b
  simp only [Server.ofScript, lastRepeated]
  split
  · exact orNone _ (fun reply found => List.mem_append_left _ (List.mem_of_getElem? found)) b
  · refine orNone _ (fun reply found => List.mem_append_right _ ?_) b
    rcases Option.or_eq_some_iff.mp found with there | ⟨-, last⟩
    · exact List.mem_of_getElem? there
    · exact List.mem_of_getLast? last

/-- The body of a successful answer to one of the queries of an exchange, not counting those at
its beginning. -/
def Received (server : Server) (first : List Request) (x : Exchange) (body : Value) : Prop :=
  ∃ before request after status bytes, x.sent = before ++ request :: after ∧ first <+: before ∧
    request.isQuery = true ∧
    server.answer before request = .answer status bytes ∧ status.isSuccess = true ∧
      Json.readBody bytes = .ok body

/-- The type entries of a body: those of a whole schema, or a single one. -/
inductive Offers (body : Value) : Value → Prop
  | schema {types : List Value} {entry : Value}
    (found : ((body.field "data").field "__schema").field "types" = .list types)
    (member : entry ∈ types) : Offers body entry
  | type : Offers body ((body.field "data").field "__type")

/-- What in a body breaks an acquisition, and the fault in which that ends. -/
inductive Trap (body : Value) : WalkFault → Prop
  | errors (memberless : (body.field "errors").Memberless) :
    Trap body (.notIterable (body.field "errors").kindWord)
  | entry {entry : Value} {fault : WalkFault} (offers : Offers body entry)
    (snag : Snag entry fault) : Trap body fault

/-- How a part of an acquisition can end, and what holds of its result. -/
inductive Ends {α : Type} (server : Server) (first : List Request) (x : Exchange)
    (good : α → Prop) :
    Except AcquireError α → Prop
  | ok {a : α} (holds : good a) : Ends server first x good (.ok a)
  | refused (refusal : Refusal) : Ends server first x good (.error (.refused refusal))
  | trapped {body : Value} {fault : WalkFault} (received : Received server first x body)
    (trap : Trap body fault) :
    Ends server first x good (.error (.broke (.walk fault)))

/-- A part of an acquisition goes on from an exchange, and ends. What holds of its result may
depend on the exchange then. -/
structure Goes {α : Type} (server : Server) (first : List Request) (x : Exchange)
    (good : Exchange → α → Prop)
    (r : Except AcquireError α × Exchange) : Prop where
  goesOn : x.sent <+: r.2.sent
  ends : Ends server first r.2 (good r.2) r.1

/-- Every one of some type entries has been received. -/
def Supplied (server : Server) (first : List Request) (x : Exchange) (types : List Value) :
    Prop :=
  ∀ entry ∈ types, ∃ body, Received server first x body ∧ Offers body entry

variable {server : Server} {first : List Request} {x x' : Exchange}

theorem Received.mono {body : Value} (received : Received server first x body)
    (goesOn : x.sent <+: x'.sent) :
    Received server first x' body := by
  obtain ⟨before, request, after, status, bytes, sent, since, rest⟩ := received
  obtain ⟨more, longer⟩ := goesOn
  refine ⟨before, request, after ++ more, status, bytes, ?_, since, rest⟩
  rw [← longer, sent, List.append_assoc, List.cons_append]

theorem Supplied.mono {types : List Value} (supplied : Supplied server first x types)
    (goesOn : x.sent <+: x'.sent) :
    Supplied server first x' types := by
  intro entry member
  obtain ⟨body, received, offers⟩ := supplied entry member
  exact ⟨body, received.mono goesOn, offers⟩

theorem Ends.imp {α : Type} {good better : α → Prop} {r : Except AcquireError α}
    (ends : Ends server first x good r) (improves : ∀ a, good a → better a) :
    Ends server first x better r := by
  cases ends with
  | ok holds => exact .ok (improves _ holds)
  | refused refusal => exact .refused refusal
  | trapped received trap => exact .trapped received trap

theorem Supplied.set {types : List Value} {entry body : Value}
    (supplied : Supplied server first x types) (received : Received server first x body)
    (offers : Offers body entry) (i : Nat) :
    Supplied server first x (types.set i entry) := by
  intro other member
  rcases List.mem_or_eq_of_mem_set member with old | rfl
  · exact supplied other old
  · exact ⟨body, received, offers⟩

/-- A part has failed, and so has whatever it is a part of, or it goes on with its result. -/
theorem Goes.cases {α : Type} {good : Exchange → α → Prop} {r : Except AcquireError α × Exchange}
    (goes : Goes server first x good r) :
    (∃ e x', r = (.error e, x') ∧ x.sent <+: x'.sent ∧
        ∀ (β : Type) (better : β → Prop), Ends server first x' better (.error e)) ∨
      ∃ a x', r = (.ok a, x') ∧ x.sent <+: x'.sent ∧ good x' a := by
  obtain ⟨result, x'⟩ := r
  obtain ⟨goesOn, ends⟩ := goes
  cases ends with
  | ok holds => exact .inr ⟨_, x', rfl, goesOn, holds⟩
  | refused refusal => exact .inl ⟨_, x', rfl, goesOn, fun _ _ => .refused refusal⟩
  | trapped received trap => exact .inl ⟨_, x', rfl, goesOn, fun _ _ => .trapped received trap⟩

theorem Goes.of_later {α : Type} {good : Exchange → α → Prop}
    {r : Except AcquireError α × Exchange} (later : Goes server first x' good r)
    (goesOn : x.sent <+: x'.sent) : Goes server first x good r :=
  ⟨goesOn.trans later.goesOn, later.ends⟩

/-- A search among received entries that ends in a fault has come upon a trap. -/
theorem Supplied.ends_ofSearch {α : Type} {good : α → Prop} {types : List Value}
    (supplied : Supplied server first x types) {fault : SearchFault}
    (failed : truncatedNames types = .error fault) :
    Ends server first x good (.error (.ofSearch fault)) := by
  cases fault with
  | unnamedEntry => exact .refused _
  | badEntry name => exact .refused _
  | fault fault =>
    obtain ⟨entry, member, snag⟩ := snag_of_truncatedNames failed
    obtain ⟨body, received, offers⟩ := supplied entry member
    exact .trapped received (.entry offers snag)

/-! ## Queries -/

/-- The data of a body, a refusal, or errors that cannot be listed. -/
theorem ends_dataOfBody {body : Value} (received : Received server first x body) :
    Ends server first x (fun data => data = body.field "data") (dataOfBody body) := by
  cases body with
  | object entries =>
    simp only [dataOfBody]
    split
    · rename_i truthy
      split
      · exact .refused _
      · rename_i failed
        obtain ⟨none, rfl⟩ := walk_eq_error failed
        exact .trapped received (.errors ⟨truthy, none⟩)
    · split
      · rename_i found
        exact .ok found.symm
      · exact .refused _
  | _ => exact .refused _

theorem ask_goes (steady : server.Steady) (request : Request) (query : request.isQuery = true)
    (since : first <+: x.sent) :
    Goes server first x (fun x' data => ∃ body, Received server first x' body ∧
      data = body.field "data")
      (ask server request x) := by
  have goesOn : x.sent <+: (ask server request x).2.sent := List.prefix_append _ _
  refine ⟨goesOn, ?_⟩
  have result : (ask server request x).1 = dataOfReply (server.answer x.sent request) := rfl
  rw [result]
  cases replied : server.answer x.sent request with
  | failure failure =>
    cases failure with
    | transport message => exact .refused _
    | breakdown b => exact absurd replied (steady _ _ _)
  | answer status bytes =>
    simp only [dataOfReply]
    by_cases success : status.isSuccess = true
    · rw [if_pos success]
      cases read : Json.readBody bytes with
      | error fault => exact .refused _
      | ok body =>
        have received : Received server first (ask server request x).2 body :=
          ⟨x.sent, request, [], status, bytes, rfl, since, query, replied, success, read⟩
        exact (ends_dataOfBody received).imp fun data same => ⟨body, received, same⟩
    · rw [if_neg success]
      exact .refused _

/-! ## Fetching types again -/

theorem typeOfData_cases (name : TypeName) (data : Value) :
    typeOfData name data = .ok (data.field "__type") ∨
      typeOfData name data = .error (.refused (.vanished name)) := by
  unfold typeOfData
  split
  · rename_i found
    exact .inl (by rw [found])
  · exact .inr rfl

/-- Entries that are fetched again are received as well. -/
theorem refetch_goes (steady : server.Steady) (depth : Int) (place : TypeName → Option Nat)
    (names : List TypeName) {types : List Value} (since : first <+: x.sent)
    (supplied : Supplied server first x types) :
    Goes server first x (Supplied server first) (refetch server depth place names types x) := by
  induction names generalizing types x with
  | nil => exact ⟨List.prefix_refl _, .ok supplied⟩
  | cons name names ih =>
    unfold refetch
    rcases (ask_goes steady (.type depth name) rfl since).cases with
      ⟨e, x', asked, goesOn, failed⟩ | ⟨_, x', asked, goesOn, body, received, rfl⟩
    · simp only [asked]
      exact ⟨goesOn, failed _ _⟩
    · simp only [asked]
      rcases typeOfData_cases name (body.field "data") with found | vanished
      · simp only [found]
        have kept := supplied.mono goesOn
        -- A name without a place is of no entry; nothing changes then.
        cases place name with
        | none => exact (ih (since.trans goesOn) kept).of_later goesOn
        | some i => exact (ih (since.trans goesOn) (kept.set received .type i)).of_later goesOn
      · simp only [vanished]
        exact ⟨goesOn, .refused _⟩

/-- Every round searches what has been received, whether in this round or before. -/
theorem deepen_goes (client : Client) (steady : server.Steady) (rounds : Nat) (depth : Int)
    {types : List Value} (since : first <+: x.sent) (supplied : Supplied server first x types) :
    Goes server first x (Supplied server first) (client.deepen server rounds depth types x) := by
  induction rounds generalizing depth types x with
  | zero =>
    unfold Client.deepen
    split
    · rename_i failed
      exact ⟨List.prefix_refl _, supplied.ends_ofSearch failed⟩
    · exact ⟨List.prefix_refl _, .ok supplied⟩
    · exact ⟨List.prefix_refl _, .refused _⟩
  | succ rounds ih =>
    unfold Client.deepen
    split
    · rename_i failed
      exact ⟨List.prefix_refl _, supplied.ends_ofSearch failed⟩
    · exact ⟨List.prefix_refl _, .ok supplied⟩
    · rename_i _ name names _
      simp only
      split
      · exact ⟨List.prefix_refl _, .refused _⟩
      · -- What is logged is not sent, so the entries are still the ones received.
        have fetched :=
          refetch_goes (x := x.note .debug
            s!"Re-fetching {(name :: names).length} types with type reference depth {2 * depth}")
            steady (2 * depth) (lastPosition · types) (name :: names) since supplied
        rcases fetched.cases with ⟨e, x', refetched, goesOn, failed⟩ |
          ⟨types', x', refetched, goesOn, supplied'⟩
        · simp only [refetched]
          exact ⟨goesOn, failed _ _⟩
        · simp only [refetched]
          exact (ih (2 * depth) (since.trans goesOn) supplied').of_later goesOn

/-! ## Whole acquisitions -/

/-- Asking for the version never fails. -/
theorem version_goes (client : Client) (steady : server.Steady) (x : Exchange) :
    ∃ info x', client.version server x = (.ok info, x') ∧ x.sent <+: x'.sent := by
  have goesOn : x.sent <+: (x.send server .about).2.sent := List.prefix_append _ _
  unfold Client.version
  simp only
  split
  · rename_i b broke
    exfalso
    cases replied : (x.send server .about).1 with
    | failure failure =>
      rw [replied] at broke
      cases failure with
      | transport message => cases broke
      | breakdown b => exact steady _ _ _ replied
    | answer status body =>
      rw [replied] at broke
      simp only [Client.versionOfReply] at broke
      split at broke
      · split at broke <;> cases broke
      · cases broke
  · exact ⟨_, _, rfl, goesOn⟩
  · exact ⟨_, _, rfl, goesOn⟩

theorem snapshot_cases (client : Client) (now : Time.Stamp) (schema info : Value) :
    (∃ s, client.snapshot now schema info = .ok s) ∨
      ∃ refusal, client.snapshot now schema info = .error (.refused refusal) := by
  unfold Client.snapshot
  split
  · exact .inl ⟨_, rfl⟩
  · exact .inr ⟨_, rfl⟩

theorem complete_goes (client : Client) (steady : server.Steady) (now : Time.Stamp) {body : Value}
    (since : first <+: x.sent) (received : Received server first x body) :
    Goes server first x (fun _ _ => True) (client.complete now server
      ((body.field "data").field "__schema") x) := by
  unfold Client.complete
  split
  · rename_i types found
    have supplied : Supplied server first x types :=
      fun entry member => ⟨body, received, .schema found member⟩
    rcases (deepen_goes client steady client.rounds client.depth since supplied).cases with
      ⟨e, x', deepened, goesOn, failed⟩ | ⟨types', x', deepened, goesOn, -⟩
    · simp only [deepened]
      exact ⟨goesOn, failed _ _⟩
    · obtain ⟨info, x'', told, goesOn'⟩ := version_goes client steady x'
      simp only [deepened, told]
      rcases snapshot_cases client now
        (Client.withTypes ((body.field "data").field "__schema") types') info with
        ⟨s, made⟩ | ⟨refusal, bad⟩
      · simp only [made]
        exact ⟨goesOn.trans goesOn', .ok trivial⟩
      · simp only [bad]
        exact ⟨goesOn.trans goesOn', .refused refusal⟩
  · exact ⟨List.prefix_refl _, .refused _⟩

theorem acquire_goes (client : Client) (steady : server.Steady) (now : Time.Stamp)
    (x : Exchange) :
    Goes server x.sent x (fun _ _ => True) (client.acquire now server x) := by
  unfold Client.acquire
  split
  · exact ⟨List.prefix_refl _, .refused _⟩
  · rcases (ask_goes steady (.schema client.depth) rfl (List.prefix_refl x.sent)).cases with
      ⟨e, x', asked, goesOn, failed⟩ | ⟨_, x', asked, goesOn, body, received, rfl⟩
    · simp only [asked]
      exact ⟨goesOn, failed _ _⟩
    · simp only [asked]
      split
      · rename_i entries found
        have completed := complete_goes client steady now goesOn received
        rw [found] at completed
        exact completed.of_later goesOn
      · exact ⟨goesOn, .refused _⟩

/-- As long as every request comes back with an answer, whatever it is, or with the transport
having failed, an acquisition ends in a snapshot or in a refusal, unless one of the answers to its
queries holds a trap. The reader of the answers goes down to any depth: a limit on nested calls,
at which a body of about a thousand levels would break the acquisition too, is no part of what is
said. -/
theorem Client.acquire_cases (client : Client) {server : Server} (steady : server.Steady)
    (now : Time.Stamp) (x : Exchange) :
    (∃ s x', client.acquire now server x = (.ok s, x')) ∨
      (∃ refusal x', client.acquire now server x = (.error (.refused refusal), x')) ∨
      ∃ fault body x', client.acquire now server x = (.error (.broke (.walk fault)), x') ∧
        Received server x.sent x' body ∧ Trap body fault := by
  have goes := acquire_goes client steady now x
  generalize client.acquire now server x = acquisition at goes ⊢
  obtain ⟨result, x'⟩ := acquisition
  obtain ⟨-, ends⟩ := goes
  cases ends with
  | ok => exact .inl ⟨_, x', rfl⟩
  | refused refusal => exact .inr (.inl ⟨refusal, x', rfl⟩)
  | trapped received trap => exact .inr (.inr ⟨_, _, x', rfl, received, trap⟩)

/-- Errors that cannot be listed break an acquisition as soon as they are reported. -/
theorem Client.acquire_of_memberless (client : Client) {server : Server}
    (addressed : client.server ≠ "") {x : Exchange} {status : Status} {bytes : List UInt8}
    {entries : Entries}
    (answered : server.answer x.sent (.schema client.depth) = .answer status bytes)
    (success : status.isSuccess = true) (read : Json.readBody bytes = .ok (.object entries))
    (memberless : ((Value.object entries).field "errors").Memberless) (now : Time.Stamp) :
    ∃ x', client.acquire now server x =
      (.error (.broke (.walk (.notIterable ((Value.object entries).field "errors").kindWord))),
        x') := by
  have notEmpty : client.server.isEmpty = false := by simpa using addressed
  have unlisted : walk ((Value.object entries).field "errors") =
      .error (.notIterable ((Value.object entries).field "errors").kindWord) := by
    rw [walk, memberless.none]
  refine ⟨(x.send server (.schema client.depth)).2, ?_⟩
  simp only [acquire, notEmpty, Bool.false_eq_true, if_false, ask, Exchange.send, answered,
    dataOfReply, success, if_true, read, dataOfBody, memberless.truthy, unlisted]

/-- A body of an error report that reports no list of errors. -/
def flatReport : Value := .object [("errors", .bool true)]

/-- A server that reports errors, but not as a list. -/
def flatServer : Server :=
  .ofScript [.answer ⟨200⟩ (Text.Utf8.encode (Json.pretty flatReport))] []

theorem steady_flatServer : flatServer.Steady := by
  refine steady_ofScript fun reply member b same => ?_
  obtain rfl := List.mem_singleton.mp member
  cases same

theorem readBody_flatReport :
    Json.readBody (Text.Utf8.encode (Json.pretty flatReport)) = .ok flatReport :=
  Json.readBody_pretty (.object (by simp) (List.forall_mem_singleton.mpr (.bool true)))

theorem Client.acquire_flatServer :
    let client : Client := ⟨"http://suwayomi.test", 8, 64, 0⟩
    1 ≤ client.depth ∧ flatServer.Steady ∧
      ∃ x, client.acquire default flatServer .start =
          (.error (.broke (.walk (.notIterable "bool"))), x) := by
  intro client
  exact ⟨by decide, steady_flatServer,
    client.acquire_of_memberless (by decide) rfl rfl readBody_flatReport ⟨rfl, rfl⟩ default⟩

theorem Client.acquire_cases_flatServer :
    let client : Client := ⟨"http://suwayomi.test", 8, 64, 0⟩
    flatServer.Steady ∧ ∃ fault body x, client.acquire default flatServer .start =
      (.error (.broke (.walk fault)), x) ∧
      Received flatServer [] x body ∧ Trap body fault := by
  intro client
  refine ⟨steady_flatServer, ?_⟩
  obtain ⟨x, broke⟩ : ∃ x, client.acquire default flatServer .start =
      (.error (.broke (.walk (.notIterable "bool"))), x) :=
    client.acquire_of_memberless (by decide) rfl rfl readBody_flatReport ⟨rfl, rfl⟩ default
  rcases client.acquire_cases steady_flatServer default .start with
    ⟨s, x', settled⟩ | ⟨refusal, x', settled⟩ | trapped
  · cases broke.symm.trans settled
  · cases broke.symm.trans settled
  · exact trapped

end SchemaBaseline.Introspection
