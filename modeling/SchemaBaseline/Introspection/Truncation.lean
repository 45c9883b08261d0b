import SchemaBaseline.Introspection.Query
import SchemaBaseline.Value.Walk

/-!
# Truncated references

A query sees each type reference down to a fixed number of levels. A reference that goes on below
them shows as a wrapper around nothing, and the type it belongs to has to be fetched again.
`truncatedNames` finds these types in the raw type entries of an answer, before anything else
about the entries is checked; the entries may therefore hold any value anywhere, and a value that
cannot be walked ends the search with a `WalkFault`.
-/

namespace SchemaBaseline

namespace Introspection

/-- Whether the kind of a node is that of a wrapper. -/
def isWrapperLabel : Value → Except WalkFault Bool
  | .text s => .ok (s == "LIST" || s == "NON_NULL")
  | .list items => .error (.unhashable (Value.list items).kindWord)
  | .object entries => .error (.unhashable (Value.object entries).kindWord)
  | _ => .ok false

def isNull : Value → Bool
  | .null => true
  | _ => false

mutual

/-- Whether a reference has a wrapper around nothing. What is no object ends the reference. -/
def isTruncated : Value → Except WalkFault Bool
  | .object entries =>
    match isWrapperLabel ((Value.object entries).field "kind") with
    | .error fault => .error fault
    | .ok wraps =>
      if wraps && isNull ((Value.object entries).field "ofType") then .ok true
      else isTruncatedInside entries
  | _ => .ok false

/-- Whether the reference inside a node has a wrapper around nothing. -/
def isTruncatedInside : List (String × Value) → Except WalkFault Bool
  | [] => .ok false
  | (name, v) :: rest => if name = "ofType" then isTruncated v else isTruncatedInside rest

end

/-! ## The references of a type entry -/

/-- Why the search among the references of an entry ends early. -/
inductive Obstacle
  /-- A part that should be an object is none. -/
  | notAnObject
  | fault (fault : WalkFault)
deriving Repr, DecidableEq

/-- References in the order in which they are looked at; an obstacle may take the place of the
last one. -/
abbrev Sightings := List (Except Obstacle Value)

/-- The sightings in the members of a value; a value that counts as false has none. -/
def sightEach (sight : Value → Sightings) (v : Value) : Sightings :=
  if v.isTruthy then
    match walk v with
    | .ok items => items.flatMap sight
    | .error fault => [.error (.fault fault)]
  else []

/-- The type of an argument or input field. -/
def sightType (v : Value) : Sightings :=
  match v with
  | .object _ => [.ok (v.field "type")]
  | _ => [.error .notAnObject]

/-- The type of a field and the types of its arguments. -/
def sightField (v : Value) : Sightings :=
  match v with
  | .object _ => .ok (v.field "type") :: sightEach sightType (v.field "args")
  | _ => [.error .notAnObject]

/-- The references of a type entry: of its fields and their arguments, its input fields,
interfaces and members. -/
def sightings (entry : Value) : Sightings :=
  sightEach sightField (entry.field "fields") ++
    sightEach sightType (entry.field "inputFields") ++
    sightEach (fun v => [.ok v]) (entry.field "interfaces") ++
    sightEach (fun v => [.ok v]) (entry.field "possibleTypes")

/-- Whether a truncated reference is sighted before any obstacle. -/
def anyTruncated : Sightings → Except Obstacle Bool
  | [] => .ok false
  | .error obstacle :: _ => .error obstacle
  | .ok ref :: rest =>
    match isTruncated ref with
    | .error fault => .error (.fault fault)
    | .ok true => .ok true
    | .ok false => anyTruncated rest

/-! ## The names of truncated types -/

/-- Why the type entries of an answer cannot be searched. -/
inductive SearchFault
  | unnamedEntry
  | badEntry (name : TypeName)
  | fault (fault : WalkFault)
deriving Repr, DecidableEq

def entryName? (entry : Value) : Option TypeName :=
  match entry.field "name" with
  | .text name => some (Value.codesOf name)
  | .brokenText codes => some codes
  | _ => none

/-- Adds a name to names in rising order, unless it is there. -/
def insertName (name : TypeName) : List TypeName → List TypeName
  | [] => [name]
  | other :: rest =>
    if name = other then other :: rest
    else if name < other then name :: other :: rest
    else other :: insertName name rest

/-- The names of the entries with a truncated reference, in rising order and each of them once. -/
def truncatedNames : List Value → Except SearchFault (List TypeName)
  | [] => .ok []
  | entry :: rest =>
    match entryName? entry with
    | none => .error .unnamedEntry
    | some name =>
      match anyTruncated (sightings entry) with
      | .error .notAnObject => .error (.badEntry name)
      | .error (.fault fault) => .error (.fault fault)
      | .ok truncated =>
        match truncatedNames rest with
        | .error fault => .error fault
        | .ok names => .ok (if truncated then insertName name names else names)

end Introspection

end SchemaBaseline
