import SchemaBaseline.Schema.Basic
import SchemaBaseline.Value.Basic

/-!
# Schemas as document values

The value of a schema part holds every field under its name, null for what is absent, in a fixed
order. These are the values that baselines store.
-/

namespace SchemaBaseline

/-- A text, or null. -/
def Value.ofTextOrNull (s : Option String) : Value :=
  (s.map Value.text).getD .null

def TypeRef.toValue : TypeRef → Value
  | .leaf kind name => .object [
      ("kind", .ofTextOrNull kind.label), ("name", .ofTextOrNull name), ("ofType", .null)]
  | .wrap kind name inner => .object [
      ("kind", .ofTextOrNull kind.label), ("name", .ofTextOrNull name), ("ofType", inner.toValue)]

/-- The value of an argument or input field. -/
def InputValue.toValue (v : InputValue) : Value := .object [
  ("name", .text v.name), ("description", .ofTextOrNull v.description), ("type", v.type.toValue),
  ("defaultValue", .ofTextOrNull v.defaultValue)]

def FieldDef.toValue (f : FieldDef) : Value := .object [
  ("name", .text f.name), ("description", .ofTextOrNull f.description),
  ("args", .list (f.args.map InputValue.toValue)), ("type", f.type.toValue),
  ("isDeprecated", .bool f.isDeprecated),
  ("deprecationReason", .ofTextOrNull f.deprecationReason)]

def EnumValue.toValue (e : EnumValue) : Value := .object [
  ("name", .text e.name), ("description", .ofTextOrNull e.description),
  ("isDeprecated", .bool e.isDeprecated),
  ("deprecationReason", .ofTextOrNull e.deprecationReason)]

def NamedType.toValue (t : NamedType) : Value := .object [
  ("kind", .text t.kind.label), ("name", .text t.name),
  ("description", .ofTextOrNull t.description), ("fields", .list (t.fields.map FieldDef.toValue)),
  ("inputFields", .list (t.inputFields.map InputValue.toValue)),
  ("interfaces", .list (t.interfaces.map TypeRef.toValue)),
  ("enumValues", .list (t.enumValues.map EnumValue.toValue)),
  ("possibleTypes", .list (t.possibleTypes.map TypeRef.toValue))]

/-- The value of a root operation type. -/
def Schema.rootValue (name : Option String) : Value :=
  (name.map fun name => Value.object [("name", .text name)]).getD .null

def Schema.toValue (s : Schema) : Value := .object [
  ("queryType", rootValue s.queryType), ("mutationType", rootValue s.mutationType),
  ("subscriptionType", rootValue s.subscriptionType),
  ("types", .list (s.types.map NamedType.toValue))]

/-- The value of a snapshot; the time is written as text. -/
def Snapshot.toValue (s : Snapshot) : Value := .object [
  ("__schema", s.schema.toValue), ("fetchedAt", .text s.fetchedAt.text),
  ("serverUrl", .text s.source), ("serverInfo", .text s.info)]

end SchemaBaseline
