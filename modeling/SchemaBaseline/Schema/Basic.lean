import SchemaBaseline.Schema.TypeRef
import SchemaBaseline.Time.Stamp

/-!
# Schemas

The types of a GraphQL schema with their fields, arguments, values and members, the three root
operation types, and a schema as it was fetched from a server. Look-ups by name find the first
part of that name. `Schema.Sound` says what every loaded schema satisfies: all its type references
are well formed, and no two of its types share a name.
-/

namespace SchemaBaseline

/-- An argument of a field, or a field of an input object. -/
structure InputValue where
  name : String
  description : Option String
  type : TypeRef
  defaultValue : Option String
deriving Repr, DecidableEq

/-- A field of an object or interface type. -/
structure FieldDef where
  name : String
  description : Option String
  args : List InputValue
  type : TypeRef
  isDeprecated : Bool
  deprecationReason : Option String
deriving Repr, DecidableEq

structure EnumValue where
  name : String
  description : Option String
  isDeprecated : Bool
  deprecationReason : Option String
deriving Repr, DecidableEq

/-- The kinds of named types. -/
inductive TypeKind
  | object
  | interface
  | enum
  | inputObject
  | scalar
  | union
deriving Repr, DecidableEq

def TypeKind.label : TypeKind → String
  | .object => "OBJECT"
  | .interface => "INTERFACE"
  | .enum => "ENUM"
  | .inputObject => "INPUT_OBJECT"
  | .scalar => "SCALAR"
  | .union => "UNION"

/-- All kinds, in the order of their labels. -/
def TypeKind.all : List TypeKind :=
  [.enum, .inputObject, .interface, .object, .scalar, .union]

def TypeKind.ofLabel? (label : String) : Option TypeKind :=
  all.find? fun kind => kind.label == label

/-- A named type. Which of the lists matter depends on its kind. -/
structure NamedType where
  kind : TypeKind
  name : String
  description : Option String
  fields : List FieldDef
  inputFields : List InputValue
  interfaces : List TypeRef
  enumValues : List EnumValue
  possibleTypes : List TypeRef
deriving Repr, DecidableEq

/-- A type system: the names of its root operation types, and its types. -/
structure Schema where
  queryType : Option String
  mutationType : Option String
  subscriptionType : Option String
  types : List NamedType
deriving Repr, DecidableEq

/-- A schema together with when and where it was fetched. -/
structure Snapshot where
  schema : Schema
  fetchedAt : Time.Stamp
  source : String
  info : String
deriving Repr, DecidableEq

/-- Whether a name belongs to the introspection system itself. -/
def isInternalName (name : String) : Bool :=
  "__".toList.isPrefixOf name.toList

def FieldDef.arg? (field : FieldDef) (name : String) : Option InputValue :=
  field.args.find? fun arg => arg.name == name

namespace NamedType

/-- Whether a type belongs to the introspection system itself. -/
def isInternal (type : NamedType) : Bool :=
  isInternalName type.name

def field? (type : NamedType) (name : String) : Option FieldDef :=
  type.fields.find? fun field => field.name == name

def inputField? (type : NamedType) (name : String) : Option InputValue :=
  type.inputFields.find? fun field => field.name == name

def enumValue? (type : NamedType) (name : String) : Option EnumValue :=
  type.enumValues.find? fun value => value.name == name

/-- Every type reference of a type: of its fields and their arguments, its input fields,
interfaces and members. -/
def refs (type : NamedType) : List TypeRef :=
  (type.fields.flatMap fun field => field.type :: field.args.map InputValue.type) ++
    type.inputFields.map InputValue.type ++ type.interfaces ++ type.possibleTypes

end NamedType

namespace Schema

def type? (schema : Schema) (name : String) : Option NamedType :=
  schema.types.find? fun type => type.name == name

/-- Every type reference of a schema. -/
def refs (schema : Schema) : List TypeRef :=
  schema.types.flatMap NamedType.refs

end Schema

/-- The first name of a list that has occurred before, either earlier in the list or among those
seen already. -/
def firstRepeated (seen : List String) : List String → Option String
  | [] => none
  | name :: rest => if seen.contains name then some name else firstRepeated (name :: seen) rest

/-- All references are well formed, and type names are unique. -/
structure Schema.Sound (s : Schema) : Prop where
  refs_wellFormed : ∀ ref ∈ s.refs, ref.WellFormed
  names_unique : (s.types.map NamedType.name).Nodup

instance (s : Schema) : Decidable s.Sound :=
  decidable_of_iff ((∀ ref ∈ s.refs, ref.WellFormed) ∧ (s.types.map NamedType.name).Nodup)
    ⟨fun ⟨refs, names⟩ => ⟨refs, names⟩, fun ⟨refs, names⟩ => ⟨refs, names⟩⟩

end SchemaBaseline
