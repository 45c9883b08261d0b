import SchemaBaseline.Value.Basic

/-!
# Introspection queries

A server describes its schema in answer to a query, but a query must say how many levels of
wrappers it wants to see of each type reference. `refFragment` asks for a given number of levels,
`schemaQuery` for the whole schema and `typeQuery` for one type, whose name is a variable.
-/

namespace SchemaBaseline.Introspection

/-- What is asked of every type, argument and input field. -/
def typeFragments : String :=
"
fragment FullType on __Type \x7b
  kind
  name
  description
  fields(includeDeprecated: true) \x7b
    name
    description
    args \x7b ...InputValue \x7d
    type \x7b ...TypeRef \x7d
    isDeprecated
    deprecationReason
  \x7d
  inputFields \x7b ...InputValue \x7d
  interfaces \x7b ...TypeRef \x7d
  enumValues(includeDeprecated: true) \x7b
    name
    description
    isDeprecated
    deprecationReason
  \x7d
  possibleTypes \x7b ...TypeRef \x7d
\x7d

fragment InputValue on __InputValue \x7b
  name
  description
  type \x7b ...TypeRef \x7d
  defaultValue
\x7d
"

/-- What is asked of a reference beyond its first level, `deeper` times over. -/
def selection : Nat → String
  | 0 => "kind name"
  | deeper + 1 => "kind name ofType \x7b " ++ selection deeper ++ " \x7d"

/-- The number of levels that a query of a nominal depth asks for: at least one. -/
def levels (depth : Int) : Nat :=
  (depth - 1).toNat + 1

/-- What is asked of a reference. -/
def refFragment (depth : Int) : String :=
  "fragment TypeRef on __Type \x7b " ++ selection (levels depth - 1) ++ " \x7d\n"

def schemaQuery (depth : Int) : String :=
"
query IntrospectionQuery \x7b
  __schema \x7b
    queryType \x7b name \x7d
    mutationType \x7b name \x7d
    subscriptionType \x7b name \x7d
    types \x7b ...FullType \x7d
  \x7d
\x7d
" ++ typeFragments ++ refFragment depth

def typeQuery (depth : Int) : String :=
"
query TypeRefetch($name: String!) \x7b
  __type(name: $name) \x7b ...FullType \x7d
\x7d
" ++ typeFragments ++ refFragment depth

/-- The name of a type as an answer gives it: the codes of its characters, among which may be some
that are no characters. -/
abbrev TypeName := List Nat

/-- What a client asks of a server. -/
inductive Request
  /-- The whole schema, at a depth. -/
  | schema (depth : Int)
  /-- One type again, at a greater depth. -/
  | type (depth : Int) (name : TypeName)
  /-- The version of the server. -/
  | about
deriving Repr, DecidableEq

namespace Request

def isQuery : Request → Bool
  | .about => false
  | _ => true

/-- The name of the operation that a query asks for, and its text. -/
def query? : Request → Option (String × String)
  | .schema depth => some ("IntrospectionQuery", schemaQuery depth)
  | .type depth _ => some ("TypeRefetch", typeQuery depth)
  | .about => none

/-- The number of levels of each reference that a query asks for. -/
def levels? : Request → Option Nat
  | .schema depth => some (levels depth)
  | .type depth _ => some (levels depth)
  | .about => none

/-- The name of the single type that a query asks for. -/
def typeName? : Request → Option TypeName
  | .type _ name => some name
  | _ => none

end Request

end SchemaBaseline.Introspection
