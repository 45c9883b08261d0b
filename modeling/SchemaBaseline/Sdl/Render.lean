import SchemaBaseline.Schema.Basic
import SchemaBaseline.Value.Display

/-!
# Schema texts

`Snapshot.sdl` prints a schema in the schema definition language: a comment that says where it
comes from, the types in stored order without those of the introspection system, and the root
operation types. Descriptions become block strings, in which three quotes in a row are escaped;
reasons of deprecation become string literals. A malformed reference where a type is printed makes
the printing fail. `Snapshot.summary` counts the types by kind.
-/

namespace SchemaBaseline

namespace Sdl

open TypeRef (Malformed)

/-- Lines of a text, or the malformed reference that cannot be printed. -/
abbrev Lines := Except Malformed (List String)

/-- Escapes every three quotes in a row by a backslash, from left to right. -/
def escapeBlock : List Char → List Char
  | '"' :: '"' :: '"' :: rest => '\\' :: '"' :: '"' :: '"' :: escapeBlock rest
  | c :: rest => c :: escapeBlock rest
  | [] => []

/-- A description as a block string on a line of its own; an empty one takes no line. -/
def descriptionLines (indent : String) (description : Option String) : List String :=
  match description with
  | none => []
  | some text =>
    if text.isEmpty then []
    else [indent ++ "\"\"\"" ++ String.ofList (escapeBlock text.toList) ++ "\"\"\""]

/-- Escapes backslashes and quotes. -/
def escapeLiteral (cs : List Char) : List Char :=
  cs.flatMap fun c => if c = '\\' || c = '"' then ['\\', c] else [c]

/-- The mark of a deprecated part, with its reason as a string literal. -/
def deprecation (isDeprecated : Bool) (reason : Option String) : String :=
  if isDeprecated then
    " @deprecated(reason: \"" ++ String.ofList (escapeLiteral (reason.getD "").toList) ++ "\")"
  else ""

/-- An argument or input field with its type and default. -/
def inputValue (v : InputValue) : Except Malformed String := do
  let type ← v.type.canonical
  let value := v.defaultValue.getD ""
  .ok (v.name ++ ": " ++ type ++ if value.isEmpty then "" else " = " ++ value)

def each {α β : Type} (print : α → Except Malformed β) : List α → Except Malformed (List β)
  | [] => .ok []
  | part :: rest => do
    let first ← print part
    let others ← each print rest
    .ok (first :: others)

def fieldLines (field : FieldDef) : Lines := do
  let args ← each inputValue field.args
  let type ← field.type.canonical
  let list := if field.args.isEmpty then "" else "(" ++ joined ", " args ++ ")"
  .ok (descriptionLines "  " field.description ++
    ["  " ++ field.name ++ list ++ ": " ++ type ++
      deprecation field.isDeprecated field.deprecationReason])

def enumValueLines (value : EnumValue) : List String :=
  descriptionLines "  " value.description ++
    ["  " ++ value.name ++ deprecation value.isDeprecated value.deprecationReason]

def inputFieldLines (field : InputValue) : Lines := do
  let text ← inputValue field
  .ok (descriptionLines "  " field.description ++ ["  " ++ text])

/-- A block in braces. -/
def block (header : String) (body : List (List String)) : List String :=
  (header ++ " \x7b") :: body.flatten ++ ["\x7d"]

/-- The interfaces of an object type. -/
def implementsClause (interfaces : List TypeRef) : String :=
  if interfaces.isEmpty then ""
  else " implements " ++ joined " & " (interfaces.map TypeRef.namedType)

/-- The declaration of a type without its description. -/
def declaration (type : NamedType) : Lines :=
  match type.kind with
  | .object => do
    let fields ← each fieldLines type.fields
    .ok (block ("type " ++ type.name ++ implementsClause type.interfaces) fields)
  | .interface => do
    let fields ← each fieldLines type.fields
    .ok (block ("interface " ++ type.name) fields)
  | .enum => .ok (block ("enum " ++ type.name) (type.enumValues.map enumValueLines))
  | .inputObject => do
    let fields ← each inputFieldLines type.inputFields
    .ok (block ("input " ++ type.name) fields)
  | .scalar => .ok ["scalar " ++ type.name]
  | .union =>
    .ok ["union " ++ type.name ++ " = " ++
      joined " | " (type.possibleTypes.map TypeRef.namedType)]

/-- The lines of a type, with an empty line at the end. -/
def typeLines (type : NamedType) : Lines := do
  let body ← declaration type
  .ok (descriptionLines "" type.description ++ body ++ [""])

/-- A root operation type, if it has a name that is not empty. -/
def rootLine (operation : String) (name : Option String) : List String :=
  match name with
  | none => []
  | some name => if name.isEmpty then [] else ["  " ++ operation ++ ": " ++ name]

/-- The comment at the head of a schema text. -/
def headerLines (s : Snapshot) : List String := [
  "# GraphQL Schema",
  "# Fetched from: " ++ s.source,
  "# Server: " ++ s.info,
  "# Date: " ++ s.fetchedAt.toSecond,
  ""]

/-- The block of the root operation types. -/
def rootLines (schema : Schema) : List String :=
  ["schema \x7b"] ++ rootLine "query" schema.queryType ++
    rootLine "mutation" schema.mutationType ++
    rootLine "subscription" schema.subscriptionType ++ ["\x7d"]

/-- The number of types of a kind, those of the introspection system left out. -/
def countKind (schema : Schema) (kind : TypeKind) : Nat :=
  schema.types.countP fun type => !type.isInternal && type.kind == kind

/-- The counts by kind, in the order of the labels; kinds without types are left out. -/
def countLines (schema : Schema) : List String :=
  TypeKind.all.filterMap fun kind =>
    let count := countKind schema kind
    if count = 0 then none else some s!"  {kind.label}: {count}"

/-- A root operation type in a summary. -/
def summaryRootLine (label : String) (name : Option String) : List String :=
  match name with
  | none => []
  | some name => if name.isEmpty then [] else [label ++ " Type: " ++ name]

end Sdl

namespace Snapshot

open Sdl

def sdl (s : Snapshot) : Except TypeRef.Malformed String := do
  let types ← each typeLines (s.schema.types.filter fun type => !type.isInternal)
  .ok (joined "\n" (headerLines s ++ types.flatten ++ rootLines s.schema) ++ "\n")

/-- An overview of a schema: where it comes from, how many types of each kind it has, and its root
operation types. -/
def summary (s : Snapshot) : String :=
  let query := match s.schema.queryType with
    | none => "(none)"
    | some name => if name.isEmpty then "(none)" else name
  joined "\n" ([
    "GraphQL Schema Summary",
    "Server: " ++ s.source,
    "Info: " ++ s.info,
    "Fetched: " ++ s.fetchedAt.toSecond,
    "",
    "Type Counts:"] ++ countLines s.schema ++ ["", "Query Type: " ++ query] ++
    summaryRootLine "Mutation" s.schema.mutationType ++
    summaryRootLine "Subscription" s.schema.subscriptionType) ++ "\n"

end Snapshot

end SchemaBaseline
