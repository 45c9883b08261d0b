import SchemaBaseline.Proofs.Introspection.Requests

/-!
# The version has no say

A client asks for the version of its server last, and whatever comes back it has a text for it,
which goes into the snapshot and nowhere else. `Client.acquire_indifferent` says so of two servers
that answer queries alike: with either of them a client sends the same requests, and comes to the
same end, up to the version that a snapshot states.
-/

namespace SchemaBaseline

/-- A snapshot without the version of its server. -/
def Snapshot.withoutInfo (s : Snapshot) : Snapshot :=
  { s with info := "" }

namespace Introspection

/-! ## What a version can be made of -/

/-- A reply fails by transport or for a value that is out of range, or it is an answer of whatever
status and body, as long as no text that stands directly under a name has surrogates standing
alone. Further down such texts are quoted, and so do no harm. -/
def Reply.Quotable (reply : Reply) : Prop :=
  match reply with
  | .failure (.transport _) => True
  | .failure (.breakdown b) => ∃ message, b = .badValue message
  | .answer _ body =>
    ∀ v, Json.readBody body = .ok v → ∀ name codes, v.field name ≠ .brokenText codes

theorem exists_codesOf_versionPart {entries : Entries} {name : String}
    (whole : ∀ codes, (Value.object entries).field name ≠ .brokenText codes) :
    ∃ s, Client.versionPart entries name = Value.codesOf s := by
  unfold Client.versionPart
  split
  · exact ⟨"", rfl⟩
  · rename_i codes found
    exact absurd (by rw [Value.field, found, Option.getD_some]) (whole codes)
  · exact ⟨_, rfl⟩

/-- A version that is put together from whole parts is a text. -/
theorem exists_versionValue_eq_text {v : Value}
    (whole : ∀ name codes, v.field name ≠ .brokenText codes) :
    ∃ s, Client.versionValue v = .text s := by
  cases v with
  | object entries =>
    obtain ⟨version, versionCodes⟩ := exists_codesOf_versionPart (whole "version")
    obtain ⟨build, buildCodes⟩ := exists_codesOf_versionPart (whole "buildType")
    obtain ⟨revision, revisionCodes⟩ := exists_codesOf_versionPart (whole "revision")
    refine ⟨version ++ " (build: " ++ build ++ ", revision: " ++ revision ++ ")", ?_⟩
    simp only [Client.versionValue, versionCodes, buildCodes, revisionCodes,
      ← Value.codesOf_append]
    exact Value.ofCodes_codesOf _
  | _ => exact ⟨"", rfl⟩

theorem Reply.Quotable.tellsVersion {reply : Reply} (quotable : reply.Quotable) :
    reply.TellsVersion := by
  cases reply with
  | failure failure => cases failure <;> exact quotable
  | answer status body => exact fun v _ read => exists_versionValue_eq_text (quotable v read)

/-! ## Two servers -/

/-- Two servers answer all queries alike. Requests for the version they may answer each in its own
way. -/
def Server.AgreesOnQueries (server server' : Server) : Prop :=
  ∀ before request, request.isQuery = true → server.answer before request =
    server'.answer before request

/-- Two exchanges came to the same result with the same requests. What has been logged may
differ. -/
def Alike {α : Type} (r r' : α × Exchange) : Prop :=
  ∃ result y y', r = (result, y) ∧ r' = (result, y') ∧ y.sent = y'.sent

variable {client : Client} {server server' : Server}

theorem ask_alike (agree : server.AgreesOnQueries server') (request : Request)
    (query : request.isQuery = true) {x x' : Exchange} (same : x.sent = x'.sent) :
    Alike (ask server request x) (ask server' request x') := by
  refine ⟨_, (x.send server request).2, (x'.send server' request).2, rfl, ?_, ?_⟩
  · rw [Exchange.send, agree _ _ query, same]
    rfl
  · rw [Exchange.sent_send, Exchange.sent_send, same]

theorem refetch_alike (agree : server.AgreesOnQueries server') (depth : Int)
    (place : TypeName → Option Nat) (names : List TypeName) (types : List Value) {x x' : Exchange}
    (same : x.sent = x'.sent) :
    Alike (refetch server depth place names types x)
      (refetch server' depth place names types x') := by
  induction names generalizing types x x' with
  | nil => exact ⟨_, x, x', rfl, rfl, same⟩
  | cons name names ih =>
    have sent : (x.send server (.type depth name)).2.sent =
        (x'.send server' (.type depth name)).2.sent := by
      rw [Exchange.sent_send, Exchange.sent_send, same]
    rw [refetch_cons, refetch_cons, agree _ _ rfl, same]
    cases entryOfReply name (server'.answer x'.sent (.type depth name)) with
    | error e => exact ⟨_, _, _, rfl, rfl, sent⟩
    | ok entry => exact ih _ sent

/-- A client that is done with its entries, or fails, without a further request does so with any
server. Otherwise there is a round. -/
theorem deepen_idle_cases (client : Client) (rounds : Nat) (depth : Int) (types : List Value) :
    (∃ result, ∀ server x, client.deepen server rounds depth types x = (result, x)) ∨
    ∃ others name names, rounds = others + 1 ∧ truncatedNames types = .ok (name :: names) ∧
      2 * depth ≤ client.maxDepth := by
  cases search : truncatedNames types with
  | error fault =>
    exact .inl ⟨_, fun server x => deepen_of_error client server search rounds depth x⟩
  | ok pending =>
    cases pending with
    | nil => exact .inl ⟨_, fun server x => deepen_of_whole client server search rounds depth x⟩
    | cons name names =>
      by_cases exceeds : client.maxDepth < 2 * depth
      · exact .inl ⟨_, fun server x => deepen_of_exceeds client server search exceeds rounds x⟩
      · cases rounds with
        | zero => exact .inl ⟨_, fun server x => deepen_zero client server search depth x⟩
        | succ others => exact .inr ⟨others, name, names, rfl, rfl, Int.not_lt.mp exceeds⟩

/-- The rounds do not depend on how the version is told. -/
theorem deepen_alike (client : Client) (agree : server.AgreesOnQueries server') (rounds : Nat)
    (depth : Int) (types : List Value) {x x' : Exchange} (same : x.sent = x'.sent) :
    Alike (client.deepen server rounds depth types x)
      (client.deepen server' rounds depth types x') := by
  induction rounds generalizing depth types x x' with
  | zero =>
    rcases deepen_idle_cases client 0 depth types with ⟨result, idle⟩ | ⟨_, _, _, impossible, -⟩
    · exact ⟨result, x, x', idle _ _, idle _ _, same⟩
    · cases impossible
  | succ rounds ih =>
    rcases deepen_idle_cases client (rounds + 1) depth types with
      ⟨result, idle⟩ | ⟨_, name, names, -, search, within⟩
    · exact ⟨result, x, x', idle _ _, idle _ _, same⟩
    · rw [deepen_succ client server search within, deepen_succ client server' search within]
      -- The note at the beginning of the round is not sent.
      generalize noted : x.note .debug _ = y
      generalize noted' : x'.note .debug _ = y'
      have sent : y.sent = y'.sent := by
        rw [← noted, ← noted', Exchange.sent_note, Exchange.sent_note, same]
      obtain ⟨result, z, z', round, round', sent⟩ :=
        refetch_alike agree (2 * depth) (lastPosition · types) (name :: names) types sent
      rw [round, round']
      cases result with
      | error e => exact ⟨_, z, z', rfl, rfl, sent⟩
      | ok types => exact ih _ _ sent

/-! ## Whole acquisitions -/

/-- Which text stands for the version makes no difference to a snapshot but for this text. -/
theorem snapshot_alike (client : Client) (now : Time.Stamp) (schema : Value)
    (info info' : String) :
    (client.snapshot now schema (.text info)).map Snapshot.withoutInfo =
      (client.snapshot now schema (.text info')).map Snapshot.withoutInfo := by
  rw [Client.snapshot, Client.snapshot, load_snapshotEntries, load_snapshotEntries]
  cases Schema.load schema <;> rfl

/-- Whatever is told about the version, a client goes on with a text for it. -/
theorem version_of_quotable (client : Client) {server : Server} {x : Exchange}
    (quotable : (server.answer x.sent .about).Quotable) :
    ∃ info y, client.version server x = (.ok (.text info), y) ∧ y.sent = x.sent ++ [.about] := by
  obtain ⟨info, y, told⟩ := version_of_tellsVersion client quotable.tellsVersion
  exact ⟨info, y, told, by rw [← sent_version client server x, told]⟩

/-- Once its entries are at hand, a client asks for the version and makes its snapshot. -/
theorem complete_of_quotable (now : Time.Stamp) {schema : Value} {types types' : List Value}
    {x y : Exchange} (found : schema.field "types" = .list types)
    (deepened : client.deepen server client.rounds client.depth types x = (.ok types', y))
    (quotable : (server.answer y.sent .about).Quotable) :
    ∃ info z, client.complete now server schema x =
      (client.snapshot now (Client.withTypes schema types') (.text info), z) ∧
      z.sent = y.sent ++ [.about] := by
  obtain ⟨info, z, told, sent⟩ := version_of_quotable client quotable
  simp only [Client.complete, found, deepened, told]
  cases made : client.snapshot now (Client.withTypes schema types') (.text info) with
  | error e => exact ⟨info, z, by rw [made], sent⟩
  | ok s =>
    exact ⟨info, z.note .info s!"Introspected {s.schema.types.length} types from {client.server}",
      by rw [made], sent⟩

theorem complete_alike (agree : server.AgreesOnQueries server')
    (quotable : ∀ before, (server.answer before .about).Quotable)
    (quotable' : ∀ before, (server'.answer before .about).Quotable) (now : Time.Stamp)
    (schema : Value) {x x' : Exchange} (same : x.sent = x'.sent) :
    (client.complete now server schema x).1.map Snapshot.withoutInfo =
        (client.complete now server' schema x').1.map Snapshot.withoutInfo ∧
      (client.complete now server schema x).2.sent =
        (client.complete now server' schema x').2.sent := by
  cases found : schema.field "types" with
  | list types =>
    obtain ⟨outcome, y, y', deepened, deepened', sent⟩ :=
      deepen_alike client agree client.rounds client.depth types same
    cases outcome with
    | error e =>
      rw [complete_of_error found deepened, complete_of_error found deepened']
      exact ⟨rfl, sent⟩
    | ok types' =>
      obtain ⟨info, z, completed, sentAll⟩ := complete_of_quotable now found deepened (quotable _)
      obtain ⟨info', z', completed', sentAll'⟩ :=
        complete_of_quotable now found deepened' (quotable' _)
      rw [completed, completed']
      exact ⟨snapshot_alike client now _ info info', by rw [sentAll, sentAll', sent]⟩
  | _ =>
    have failed : ∀ server x, client.complete now server schema x =
        (.error (.refused .typesNotAList), x) := fun server x => by
      rw [Client.complete, found]
    rw [failed, failed]
    exact ⟨rfl, same⟩

/-- How a server tells its version, or fails to, has no influence on an acquisition: the same
requests are sent, and it ends in the same error or in the same snapshot, but for the version that
this states. -/
theorem Client.acquire_indifferent (client : Client) {server server' : Server}
    (agree : server.AgreesOnQueries server')
    (quotable : ∀ before, (server.answer before .about).Quotable)
    (quotable' : ∀ before, (server'.answer before .about).Quotable) (now : Time.Stamp)
    {x x' : Exchange} (same : x.sent = x'.sent) :
    (client.acquire now server x).1.map Snapshot.withoutInfo =
      (client.acquire now server' x').1.map Snapshot.withoutInfo ∧
      (client.acquire now server x).2.sent = (client.acquire now server' x').2.sent := by
  by_cases addressed : client.server.isEmpty = true
  · have failed : ∀ server x, client.acquire now server x = (.error (.refused .noServer), x) :=
      fun server x => by
      rw [acquire, if_pos addressed]
    rw [failed, failed]
    exact ⟨rfl, same⟩
  · obtain ⟨result, y, y', asked, asked', sent⟩ := ask_alike agree (.schema client.depth) rfl same
    rw [acquire, acquire, if_neg addressed, if_neg addressed, asked, asked']
    cases result with
    | error e => exact ⟨rfl, sent⟩
    | ok data =>
      cases found : data.field "__schema" with
      | object entries =>
        simp only [found]
        exact complete_alike agree quotable quotable' now (.object entries) sent
      | _ =>
        simp only [found]
        exact ⟨trivial, sent⟩

/-- A server that answers requests for the version with one and the same reply. -/
def Server.telling (server : Server) (reply : Reply) : Server where
  answer before request := if request.isQuery then server.answer before request else reply

theorem agreesOnQueries_telling (server : Server) (reply : Reply) :
    server.AgreesOnQueries (server.telling reply) :=
  fun _ _ query => (if_pos query).symm

/-- A body that tells a version in a list. -/
def listedVersion : Value :=
  .object [("version", .list [.text "1.0"])]

theorem quotable_listedVersion :
    (Reply.answer ⟨200⟩ (Text.Utf8.encode (Json.pretty listedVersion))).Quotable := by
  have plain : listedVersion.Plain :=
    .object (by simp) (List.forall_mem_singleton.mpr
      (.list (List.forall_mem_singleton.mpr (.text "1.0"))))
  intro v read name codes
  cases (Json.readBody_pretty plain).symm.trans read
  by_cases named : name = "version"
  · subst named
    intro broken
    cases broken
  · have missing : Entries.get? [("version", Value.list [.text "1.0"])] name = none := by
      rw [Entries.get?, List.lookup_cons, beq_false_of_ne named]
      rfl
    rw [Value.field, missing]
    intro broken
    cases broken

/-- It makes no difference whether the server of the small schema keeps silent about its version
or tells one in a list. -/
theorem Client.acquire_indifferent_shelf :
    let client : Client := ⟨"http://localhost", 1, 4, 0⟩
    let silent := Server.ofSchema .shelf
    let telling := silent.telling (.answer ⟨200⟩ (Text.Utf8.encode (Json.pretty listedVersion)))
    silent.AgreesOnQueries telling ∧ (∀ before, (silent.answer before .about).Quotable) ∧
    (∀ before, (telling.answer before .about).Quotable) ∧
    (client.acquire default silent .start).1.map Snapshot.withoutInfo =
      (client.acquire default telling .start).1.map Snapshot.withoutInfo ∧
    (client.acquire default silent .start).2.sent =
        (client.acquire default telling .start).2.sent := by
  intro client silent telling
  have agree : silent.AgreesOnQueries telling := agreesOnQueries_telling _ _
  have quotable : ∀ before, (silent.answer before .about).Quotable := fun _ => trivial
  have quotable' : ∀ before, (telling.answer before .about).Quotable :=
    fun _ => quotable_listedVersion
  exact ⟨agree, quotable, quotable',
    client.acquire_indifferent agree quotable quotable' default rfl⟩

end Introspection

end SchemaBaseline
