import SchemaBaseline.Introspection.Address
import SchemaBaseline.Introspection.Exchange
import SchemaBaseline.Introspection.Truncation
import SchemaBaseline.Json.Reader
import SchemaBaseline.Schema.Load
import SchemaBaseline.Text.Blank
import SchemaBaseline.Value.Display

/-!
# Acquiring a schema

`Client.acquire` fetches the schema of a server. The first query sees every reference down to
`depth` levels; types with a truncated reference are fetched again, one by one, at twice the
depth, then at four times the depth and so on, until nothing is truncated or `maxDepth` would be
exceeded, which is an error: a shortened reference never becomes part of a schema. The version of
the server is asked for at the end, and it does not matter if that fails. A failure is a `Refusal`
or, where something underneath fails, a `Breakdown`.
-/

namespace SchemaBaseline.Introspection

/-- Why a client gives up. -/
inductive Refusal
  | noServer
  | unreachable (message : String)
  | badStatus (status : Status)
  | notJson
  | notAnObject
  | reported (messages : List String)
  | noData
  | noSchema
  | typesNotAList
  | unnamedEntry
  | badEntry (name : TypeName)
  | tooDeep (limit : Int) (names : List TypeName)
  | vanished (name : TypeName)
  | badSnapshot (issues : Nat)
deriving Repr, DecidableEq

def Refusal.message : Refusal → String
  | .noServer => "No server URL configured"
  | .unreachable message => "Failed to introspect schema: " ++ message
  | .badStatus status => s!"Failed to introspect schema: HTTP {status.code}"
  | .notJson => "Failed to introspect schema: response is not JSON"
  | .notAnObject => "Failed to introspect schema: unexpected response shape"
  | .reported messages => "GraphQL errors during introspection: " ++ joined "; " messages
  | .noData => "Failed to introspect schema: response has no data"
  | .noSchema => "Malformed introspection payload: missing '__schema'"
  | .typesNotAList => "Malformed introspection payload: '__schema.types' is not a list"
  | .unnamedEntry => "Malformed introspection payload: type entry without a name"
  | .badEntry name => s!"Malformed introspection payload in type '{Value.nameOfCodes name}'"
  | .tooDeep limit names =>
    s!"Type reference nesting exceeds {limit} levels in: " ++
      joined ", " (names.map Value.nameOfCodes)
  | .vanished name => s!"Type '{Value.nameOfCodes name}' disappeared during introspection"
  | .badSnapshot issues => s!"Malformed introspection payload: {issues} validation errors"

/-- How an acquisition fails. -/
inductive AcquireError
  | refused (refusal : Refusal)
  | broke (b : Breakdown)
deriving Repr, DecidableEq

/-- The message of a failed acquisition. -/
def AcquireError.message : AcquireError → String
  | .refused refusal => refusal.message
  | .broke b => b.message

/-- A failed search among type entries, as a failed acquisition. -/
def AcquireError.ofSearch : SearchFault → AcquireError
  | .unnamedEntry => .refused .unnamedEntry
  | .badEntry name => .refused (.badEntry name)
  | .fault fault => .broke (.walk fault)

/-- How a client talks to its server. -/
structure Client where
  /-- The address of the server, without slashes at its end. -/
  server : String
  /-- The number of levels of references that the first query asks for. -/
  depth : Int
  /-- The number of levels that no query may exceed. -/
  maxDepth : Int
  /-- How many rounds a client goes on whose depth is below one, and so does not grow by
  doubling. -/
  patience : Nat
deriving Repr, DecidableEq

/-- The path of the endpoint for queries. -/
def queryPath : String := "/api/graphql"

/-- The path of the endpoint for the version. -/
def aboutPath : String := "/api/v1/settings/about"

def Client.ofAddress (address : String) (depth maxDepth : Int) (patience : Nat) : Client :=
  ⟨Text.dropTrailingSlashes address, depth, maxDepth, patience⟩

namespace Client

/-- The URL of the endpoint that takes a request. -/
def url (client : Client) (request : Request) : String :=
  endpoint client.server (if request.isQuery then queryPath else aboutPath)

/-! ## Is the server there? -/

/-- Whether the server answers at all, and that it is fine. -/
def ping (client : Client) (server : Server) (x : Exchange) : Except Breakdown Bool × Exchange :=
  if client.server.isEmpty then (.ok false, x)
  else
    match x.send server .about with
    | (.answer status _, x) => (.ok status.isSuccess, x)
    | (.failure (.transport message), x) =>
      (.ok false, x.note .debug s!"Ping to {client.server} failed: {message}")
    | (.failure (.breakdown b), x) => (.error b, x)

end Client

/-! ## Reading answers -/

/-- The message of an error that a server reports. -/
def reportedMessage (v : Value) : String :=
  match v with
  | .object entries => ((Entries.get? entries "message").getD v).display
  | v => v.display

/-- The entries under `data` of the body of an answer. -/
def dataOfBody (v : Value) : Except AcquireError Value :=
  match v with
  | .object _ =>
    let errors := v.field "errors"
    if errors.isTruthy then
      match walk errors with
      | .ok items => .error (.refused (.reported (items.map reportedMessage)))
      | .error fault => .error (.broke (.walk fault))
    else
      match v.field "data" with
      | .object entries => .ok (.object entries)
      | _ => .error (.refused .noData)
  | _ => .error (.refused .notAnObject)

/-- The entries under `data` of a reply to a query. -/
def dataOfReply : Reply → Except AcquireError Value
  | .failure (.transport message) => .error (.refused (.unreachable message))
  | .failure (.breakdown b) => .error (.broke b)
  | .answer status body =>
    if status.isSuccess then
      match Json.readBody body with
      | .ok v => dataOfBody v
      | .error _ => .error (.refused .notJson)
    else .error (.refused (.badStatus status))

/-- Sends a query. -/
def ask (server : Server) (request : Request) (x : Exchange) :
    Except AcquireError Value × Exchange :=
  let (reply, x) := x.send server request
  (dataOfReply reply, x)

/-! ## Going deeper -/

/-- The position of the last entry of a name. -/
def lastPosition (name : TypeName) (types : List Value) : Option Nat :=
  (types.length - 1 - ·) <$> types.reverse.findIdx? fun entry => entryName? entry == some name

/-- The type in the answer to a query for a single type. -/
def typeOfData (name : TypeName) (data : Value) : Except AcquireError Value :=
  match data.field "__type" with
  | .object entries => .ok (.object entries)
  | _ => .error (.refused (.vanished name))

/-- Fetches the types of the given names again and puts each in the place that `place` gives for
its name. -/
def refetch (server : Server) (depth : Int) (place : TypeName → Option Nat) :
    List TypeName → List Value → Exchange → Except AcquireError (List Value) × Exchange
  | [], types, x => (.ok types, x)
  | name :: names, types, x =>
    match ask server (.type depth name) x with
    | (.error e, x) => (.error e, x)
    | (.ok data, x) =>
      match typeOfData name data with
      | .error e => (.error e, x)
      | .ok entry =>
        let types := match place name with
          | some i => types.set i entry
          | none => types
        refetch server depth place names types x

namespace Client

/-- Fetches truncated types again at twice the depth, and so on for at most `rounds` rounds, until
none is truncated. -/
def deepen (client : Client) (server : Server) :
    Nat → Int → List Value → Exchange → Except AcquireError (List Value) × Exchange
  | rounds, depth, types, x =>
    match truncatedNames types with
    | .error fault => (.error (.ofSearch fault), x)
    | .ok [] => (.ok types, x)
    | .ok (first :: others) =>
      let names := first :: others
      let tooDeep := AcquireError.refused (.tooDeep client.maxDepth names)
      match rounds with
      | 0 => (.error tooDeep, x)
      | rounds + 1 =>
        let depth := 2 * depth
        if client.maxDepth < depth then (.error tooDeep, x)
        else
          let x :=
            x.note .debug s!"Re-fetching {names.length} types with type reference depth {depth}"
          -- Of several entries of one name only the last one is replaced.
          match refetch server depth (lastPosition · types) names types x with
          | (.error e, x) => (.error e, x)
          | (.ok types, x) => deepen client server rounds depth types x

/-- Doubling a depth of at least one exceeds the limit after fewer rounds than this. -/
def rounds (client : Client) : Nat :=
  if 1 ≤ client.depth then (client.maxDepth - client.depth).toNat + 1 else client.patience

/-! ## The version of the server -/

/-- The character codes of a part of the version as it reads in running text; there are none if it
is absent. -/
def versionPart (entries : Entries) (name : String) : List Nat :=
  match Entries.get? entries name with
  | none => []
  | some (.brokenText codes) => codes
  | some v => Value.codesOf v.display

/-- The version that a body tells, which is a text unless a part of it is broken; empty if the
body is no object. -/
def versionValue (v : Value) : Value :=
  match v with
  | .object entries =>
    Value.ofCodes (versionPart entries "version" ++ Value.codesOf " (build: " ++
      versionPart entries "buildType" ++ Value.codesOf ", revision: " ++
      versionPart entries "revision" ++ Value.codesOf ")")
  | _ => .text ""

/-- The version that a reply tells, or why it tells none. -/
def versionOfReply (url : String) : Reply → Except Breakdown (Except String Value)
  | .failure (.transport message) => .ok (.error message)
  -- A value out of range counts as a body that cannot be read.
  | .failure (.breakdown (.badValue message)) => .ok (.error message)
  | .failure (.breakdown b) => .error b
  | .answer status body =>
    if status.isSuccess then
      match Json.readBody body with
      | .ok v => .ok (.ok (versionValue v))
      | .error fault => .ok (.error fault.message)
    else .ok (.error (status.complaint url))

/-- Asks for the version of the server; it is empty if the server does not tell. -/
def version (client : Client) (server : Server) (x : Exchange) :
    Except Breakdown Value × Exchange :=
  let (reply, x) := x.send server .about
  match versionOfReply (client.url .about) reply with
  | .error b => (.error b, x)
  | .ok (.ok info) => (.ok info, x)
  | .ok (.error reason) => (.ok (.text ""), x.note .debug ("Server info unavailable: " ++ reason))

/-! ## The whole schema -/

def withTypes (schema : Value) (types : List Value) : Value :=
  match schema with
  | .object entries => .object (Entries.put entries "types" (.list types))
  | v => v

def snapshot (client : Client) (now : Time.Stamp) (schema info : Value) :
    Except AcquireError Snapshot :=
  match Snapshot.load now (.object [
      ("__schema", schema), ("fetchedAt", .stamp now), ("serverUrl", .text client.server),
      ("serverInfo", info)]) with
  | .ok s => .ok s
  | .bad issues => .error (.refused (.badSnapshot issues.length))

/-- Completes a schema: fetches truncated types again, and asks for the version. -/
def complete (client : Client) (now : Time.Stamp) (server : Server) (schema : Value)
    (x : Exchange) :
    Except AcquireError Snapshot × Exchange :=
  match schema.field "types" with
  | .list types =>
    match client.deepen server client.rounds client.depth types x with
    | (.error e, x) => (.error e, x)
    | (.ok types, x) =>
      match client.version server x with
      | (.error b, x) => (.error (.broke b), x)
      | (.ok info, x) =>
        match client.snapshot now (withTypes schema types) info with
        | .error e => (.error e, x)
        | .ok s =>
          (.ok s,
            x.note .info s!"Introspected {s.schema.types.length} types from {client.server}")
  | _ => (.error (.refused .typesNotAList), x)

/-- Fetches the schema of the server. -/
def acquire (client : Client) (now : Time.Stamp) (server : Server) (x : Exchange) :
    Except AcquireError Snapshot × Exchange :=
  if client.server.isEmpty then (.error (.refused .noServer), x)
  else
    match ask server (.schema client.depth) x with
    | (.error e, x) => (.error e, x)
    | (.ok data, x) =>
      match data.field "__schema" with
      | .object entries => client.complete now server (.object entries) x
      | _ => (.error (.refused .noSchema), x)

end Client

end SchemaBaseline.Introspection
