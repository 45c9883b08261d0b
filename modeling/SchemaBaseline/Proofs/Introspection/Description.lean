import SchemaBaseline.Proofs.Introspection.Refetch
import SchemaBaseline.Proofs.Schema.Plain
import SchemaBaseline.Proofs.Schema.RoundTrip

/-!
# A server for every schema

`Server.ofSchema` answers queries about a given schema and has no version to tell. It describes
the schema if its type names are unique (`describes_ofSchema`), so what is said about servers that
describe a schema is said about something.
-/

namespace SchemaBaseline.Introspection

/-- A successful reply with a value under a name of its data. -/
def dataReply (name : String) (v : Value) : Reply :=
  .answer ⟨200⟩ (Text.Utf8.encode (Json.pretty (.object [("data", .object [(name, v)])])))

/-- A server that answers queries with the values of a schema and of its types, cut after the
levels that a query asks for. -/
def Server.ofSchema (schema : Schema) : Server where
  answer _ request :=
    match request with
    | .schema depth => dataReply "__schema" (schema.cut (levels depth)).toValue
    | .type depth name =>
      dataReply "__type" (((schema.type? (Value.nameOfCodes name)).map fun type =>
        (type.cut (levels depth)).toValue).getD .null)
    | .about => noReply

theorem bears_dataReply {name : String} {v : Value} {described : Value → Prop} (plain : v.Plain)
    (shown : described v) :
    (dataReply name v).Bears name described := by
  have inner : (Value.object [(name, v)]).Plain :=
    .object (by simp) (List.forall_mem_singleton.mpr plain)
  have outer : (Value.object [("data", .object [(name, v)])]).Plain :=
    .object (by simp) (List.forall_mem_singleton.mpr inner)
  refine ⟨⟨200⟩, _, _, rfl, rfl, Json.readBody_pretty outer, rfl, [(name, v)], rfl, v, ?_, shown⟩
  simp [Entries.get?]

/-- The server of a sound schema describes it. -/
theorem describes_ofSchema {schema : Schema} (sound : schema.Sound) :
    (Server.ofSchema schema).Describes schema where
  answersSchema _ depth := bears_dataReply (Schema.plain_toValue _) (Schema.shown_toValue _)
  answersType before depth type member := by
    have found : schema.type? type.name = some type := sound.type?_eq_some_iff.mpr ⟨member, rfl⟩
    have answer : (Server.ofSchema schema).answer before (.type depth (Value.codesOf type.name)) =
        dataReply "__type" (type.cut (levels depth)).toValue := by
      simp only [Server.ofSchema, Value.nameOfCodes_codesOf, found, Option.map_some,
        Option.getD_some]
    rw [answer]
    exact bears_dataReply (NamedType.plain_toValue _) (NamedType.shown_toValue _)
  answersAbout _ := trivial

end SchemaBaseline.Introspection
