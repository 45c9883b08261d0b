import SchemaBaseline.Schema.Basic
import SchemaBaseline.Value.Load

/-!
# Loading schemas

Schemas are loaded from document values, as a server answers them or as a baseline holds them.
Unknown entries are ignored. The issues of all parts of a record are collected in the order of its
fields; conditions on a record as a whole, such as that no two types share a name, are checked
only once all of its parts are good.
-/

namespace SchemaBaseline

open Time (Stamp)

/-- References nested deeper than this are not loaded. -/
def maxRefDepth : Nat := 255

namespace TypeRef

/-- The kind of a node: any text that is not the label of a wrapper stands for a named type. -/
def loadKind : Value → Checked RefKind
  | .text "NON_NULL" => .ok .nonNull
  | .text "LIST" => .ok .list
  | .text _ => .ok .named
  | .brokenText _ => .ok .named
  | _ => .fail .notAChoice

/-- The node with the given parts. -/
def ofParts (kind : RefKind) (name : Option String) (inner : Option TypeRef) : TypeRef :=
  match inner with
  | none => .leaf kind name
  | some inner => .wrap kind name inner

/-- What is wrong with the shape of a node whose parts are good. -/
def shapeProblem? (kind : RefKind) (name : Option String) (inner : Option TypeRef) :
    Option String :=
  match kind, inner with
  | .named, some _ =>
    some ("Named type reference '" ++ name.getD "None" ++ "' must not wrap another type")
  | .named, none =>
    if (name.getD "").isEmpty then some "Named type reference requires a name" else none
  | kind, none => some (kind.label.getD "None" ++ " type reference requires an inner type")
  | _, some _ => none

/-- The node with the given parts, if its shape is right. -/
def checkShape (parts : RefKind × Option String × Option TypeRef) : Checked TypeRef :=
  match shapeProblem? parts.1 parts.2.1 parts.2.2 with
  | some reason => .fail (.rejected reason)
  | none => .ok (ofParts parts.1 parts.2.1 parts.2.2)

/-- What is inside a node, null standing for nothing. -/
def loadInner (load : Value → Checked TypeRef) : Value → Checked (Option TypeRef)
  | .null => .ok none
  | v => (load v).map some

/-- A reference of at most `limit` nodes. -/
def loadWithin : Nat → Value → Checked TypeRef
  | 0, _ => .fail .tooDeep
  | limit + 1, v =>
    match v.entries? with
    | none => .fail .notAnObject
    | some entries =>
      let kind := Entries.required entries "kind" "kind" loadKind
      let name := Entries.optional entries "name" "name" none Value.loadTextOrNull
      let inner := Entries.optional entries "ofType" "of_type" none (loadInner (loadWithin limit))
      (((kind.map fun k n i => (k, n, i)).apply name).apply inner).andThen checkShape

def load (v : Value) : Checked TypeRef :=
  loadWithin maxRefDepth v

end TypeRef

/-- An argument or input field. -/
def InputValue.load (v : Value) : Checked InputValue :=
  match v.entries? with
  | none => .fail .notAnObject
  | some entries =>
    let name := Entries.required entries "name" "name" Value.loadText
    let description :=
      Entries.optional entries "description" "description" none Value.loadTextOrNull
    let type := Entries.required entries "type" "type" TypeRef.load
    let defaultValue :=
      Entries.optional entries "defaultValue" "default_value" none Value.loadTextOrNull
    (((name.map InputValue.mk).apply description).apply type).apply defaultValue

def FieldDef.load (v : Value) : Checked FieldDef :=
  match v.entries? with
  | none => .fail .notAnObject
  | some entries =>
    let name := Entries.required entries "name" "name" Value.loadText
    let description :=
      Entries.optional entries "description" "description" none Value.loadTextOrNull
    let args := Entries.optional entries "args" "args" [] (Value.loadChildren InputValue.load)
    let type := Entries.required entries "type" "type" TypeRef.load
    let isDeprecated :=
      Entries.optional entries "isDeprecated" "is_deprecated" false Value.loadFlag
    let reason :=
      Entries.optional entries "deprecationReason" "deprecation_reason" none Value.loadTextOrNull
    (((((name.map FieldDef.mk).apply description).apply args).apply type).apply
      isDeprecated).apply reason

def EnumValue.load (v : Value) : Checked EnumValue :=
  match v.entries? with
  | none => .fail .notAnObject
  | some entries =>
    let name := Entries.required entries "name" "name" Value.loadText
    let description :=
      Entries.optional entries "description" "description" none Value.loadTextOrNull
    let isDeprecated :=
      Entries.optional entries "isDeprecated" "is_deprecated" false Value.loadFlag
    let reason :=
      Entries.optional entries "deprecationReason" "deprecation_reason" none Value.loadTextOrNull
    (((name.map EnumValue.mk).apply description).apply isDeprecated).apply reason

/-- The kind of a named type. -/
def TypeKind.load : Value → Checked TypeKind
  | .text s =>
    match TypeKind.ofLabel? s with
    | some kind => .ok kind
    | none => .fail .notAChoice
  | _ => .fail .notAChoice

def NamedType.load (v : Value) : Checked NamedType :=
  match v.entries? with
  | none => .fail .notAnObject
  | some entries =>
    let kind := Entries.required entries "kind" "kind" TypeKind.load
    let name := Entries.required entries "name" "name" Value.loadText
    let description :=
      Entries.optional entries "description" "description" none Value.loadTextOrNull
    let fields := Entries.optional entries "fields" "fields" [] (Value.loadChildren FieldDef.load)
    let inputFields :=
      Entries.optional entries "inputFields" "input_fields" []
        (Value.loadChildren InputValue.load)
    let interfaces :=
      Entries.optional entries "interfaces" "interfaces" [] (Value.loadChildren TypeRef.load)
    let enumValues :=
      Entries.optional entries "enumValues" "enum_values" [] (Value.loadChildren EnumValue.load)
    let members :=
      Entries.optional entries "possibleTypes" "possible_types" []
        (Value.loadChildren TypeRef.load)
    (((((((kind.map NamedType.mk).apply name).apply description).apply fields).apply
      inputFields).apply interfaces).apply enumValues).apply members

/-- The name of a root operation type. -/
def Schema.loadRoot : Value → Checked (Option String)
  | .null => .ok none
  | v =>
    match v.entries? with
    | none => .fail .notAnObject
    | some entries => (Entries.required entries "name" "name" Value.loadText).map some

/-- A schema whose parts are good, if no two of its types share a name. -/
def Schema.checkNames (schema : Schema) : Checked Schema :=
  match firstRepeated [] (schema.types.map NamedType.name) with
  | some name => .fail (.rejected s!"Duplicate type name in schema: {name}")
  | none => .ok schema

def Schema.load (v : Value) : Checked Schema :=
  match v.entries? with
  | none => .fail .notAnObject
  | some entries =>
    let query := Entries.optional entries "queryType" "query_type" none Schema.loadRoot
    let mutation := Entries.optional entries "mutationType" "mutation_type" none Schema.loadRoot
    let subscription :=
      Entries.optional entries "subscriptionType" "subscription_type" none Schema.loadRoot
    let types := Entries.optional entries "types" "types" [] (Value.loadChildren NamedType.load)
    ((((query.map Schema.mk).apply mutation).apply subscription).apply types).andThen
      Schema.checkNames

/-- A snapshot; one that does not say when it was fetched counts as fetched at `now`. -/
def Snapshot.load (now : Stamp) (v : Value) : Checked Snapshot :=
  match v.entries? with
  | none => .fail .notAnObject
  | some entries =>
    let schema := Entries.required entries "__schema" "schema_" Schema.load
    let fetchedAt := Entries.optional entries "fetchedAt" "fetched_at" now Value.loadStamp
    let source := Entries.optional entries "serverUrl" "source_identifier" "" Value.loadText
    let info := Entries.optional entries "serverInfo" "source_info" "" Value.loadText
    (((schema.map Snapshot.mk).apply fetchedAt).apply source).apply info

end SchemaBaseline
