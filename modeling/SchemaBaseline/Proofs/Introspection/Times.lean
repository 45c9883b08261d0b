import SchemaBaseline.Proofs.Introspection.Version

/-!
# The time has no say

A client puts the time into its snapshot and does nothing else with it, and what has been logged
it does not look at. So when a server is asked twice, at two times but after the same requests,
the client sends the same requests again and ends in the same error or with the same schema:
`schema_acquire_eq`. The parts are compared as in the proof that the version has no say, now with
a single server, which tells the same version both times.
-/

namespace SchemaBaseline.Introspection

variable {client : Client} {server : Server}

theorem Server.agreesOnQueries_self (server : Server) : server.AgreesOnQueries server :=
  fun _ _ _ => rfl

theorem version_alike (client : Client) (server : Server) {x x' : Exchange}
    (same : x.sent = x'.sent) :
    Alike (client.version server x) (client.version server x') := by
  have sent : (x.send server .about).2.sent = (x'.send server .about).2.sent := by
    rw [Exchange.sent_send, Exchange.sent_send, same]
  have replied : (x.send server .about).1 = (x'.send server .about).1 :=
    congrArg (server.answer · .about) same
  unfold Client.version
  simp only [replied]
  split
  · exact ⟨_, _, _, rfl, rfl, sent⟩
  · exact ⟨_, _, _, rfl, rfl, sent⟩
  · exact ⟨_, _, _, rfl, rfl, sent⟩

/-- The time shows in a snapshot, but not in its schema. -/
theorem schema_snapshot_eq (client : Client) (now now' : Time.Stamp) (schema info : Value) :
    (client.snapshot now schema info).map Snapshot.schema =
      (client.snapshot now' schema info).map Snapshot.schema := by
  rw [Client.snapshot, Client.snapshot, load_snapshotEntries, load_snapshotEntries]
  cases Schema.load schema <;> cases Value.loadText info <;> rfl

/-- Once the rounds are over and the version is known, an acquisition ends with the making of the
snapshot. -/
theorem complete_of_told (now : Time.Stamp) {schema info : Value} {types types' : List Value}
    {x y z : Exchange} (found : schema.field "types" = .list types)
    (deepened : client.deepen server client.rounds client.depth types x = (.ok types', y))
    (told : client.version server y = (.ok info, z)) :
    (client.complete now server schema x).1 =
      client.snapshot now (Client.withTypes schema types') info ∧
      (client.complete now server schema x).2.sent = z.sent := by
  simp only [Client.complete, found, deepened, told]
  cases client.snapshot now (Client.withTypes schema types') info <;> exact ⟨rfl, rfl⟩

theorem schema_complete_eq (client : Client) (server : Server) (now now' : Time.Stamp)
    (schema : Value) {x x' : Exchange} (same : x.sent = x'.sent) :
    (client.complete now server schema x).1.map Snapshot.schema =
      (client.complete now' server schema x').1.map Snapshot.schema ∧
      (client.complete now server schema x).2.sent =
        (client.complete now' server schema x').2.sent := by
  cases found : schema.field "types" with
  | list types =>
    obtain ⟨outcome, y, y', deepened, deepened', sent⟩ :=
      deepen_alike client server.agreesOnQueries_self client.rounds client.depth types same
    cases outcome with
    | error e =>
      rw [complete_of_error found deepened, complete_of_error found deepened']
      exact ⟨rfl, sent⟩
    | ok types' =>
      obtain ⟨answer, z, z', told, told', sent⟩ := version_alike client server sent
      cases answer with
      | error b =>
        simp only [Client.complete, found, deepened, deepened', told, told']
        exact ⟨trivial, sent⟩
      | ok info =>
        obtain ⟨made, sentAll⟩ := complete_of_told now found deepened told
        obtain ⟨made', sentAll'⟩ := complete_of_told now' found deepened' told'
        rw [made, made', sentAll, sentAll']
        exact ⟨schema_snapshot_eq client now now' _ info, sent⟩
  | _ =>
    have failed : ∀ now x, client.complete now server schema x =
        (.error (.refused .typesNotAList), x) := fun now x => by
      rw [Client.complete, found]
    rw [failed, failed]
    exact ⟨rfl, same⟩

/-- At what time a client asks its server, and what has been logged before, makes no difference to
the requests, to an error or to the schema that is acquired. -/
theorem schema_acquire_eq (client : Client) (server : Server) (now now' : Time.Stamp)
    {x x' : Exchange} (same : x.sent = x'.sent) :
    (client.acquire now server x).1.map Snapshot.schema =
      (client.acquire now' server x').1.map Snapshot.schema ∧
      (client.acquire now server x).2.sent = (client.acquire now' server x').2.sent := by
  by_cases addressed : client.server.isEmpty = true
  · have failed : ∀ now x, client.acquire now server x = (.error (.refused .noServer), x) :=
      fun now x => by
      rw [Client.acquire, if_pos addressed]
    rw [failed, failed]
    exact ⟨rfl, same⟩
  · obtain ⟨result, y, y', asked, asked', sent⟩ :=
      ask_alike server.agreesOnQueries_self (.schema client.depth) rfl same
    rw [Client.acquire, Client.acquire, if_neg addressed, if_neg addressed, asked, asked']
    cases result with
    | error e => exact ⟨rfl, sent⟩
    | ok data =>
      cases found : data.field "__schema" with
      | object entries =>
        simp only [found]
        exact schema_complete_eq client server now now' (.object entries) sent
      | _ =>
        simp only [found]
        exact ⟨trivial, sent⟩

end SchemaBaseline.Introspection
