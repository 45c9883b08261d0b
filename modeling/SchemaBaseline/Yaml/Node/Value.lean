import SchemaBaseline.Value.Display
import SchemaBaseline.Yaml.Node
import SchemaBaseline.Yaml.Scalar

/-!
# The value of a node

`Node.value` says what a node means. Mappings become objects; only names that are texts count. A
mapping may take over the entries of other mappings under the name `<<`, its own entries coming
last. Lists of pairs and sets become lists.

Of several things that are wrong, the one closest to the root counts, and of those at the same
distance the first. A scalar is as far from the root as the collection that it is a member of; so
every `Fault` carries its distance.
-/

namespace SchemaBaseline.Yaml

/-- What is wrong, and how far from the root. -/
structure Fault where
  distance : Nat
  stop : Stop

/-- The results of all parts, or the closest fault, the first one if several are equally close. -/
def allOrClosest {α : Type} : List (Except Fault α) → Except Fault (List α)
  | [] => .ok []
  | first :: rest =>
    match first, allOrClosest rest with
    | .ok v, .ok vs => .ok (v :: vs)
    | .ok _, .error e => .error e
    | .error e, .ok _ => .error e
    | .error e, .error later => .error (if later.distance < e.distance then later else e)

/-- Something wrong at a distance. -/
def faultAt {α : Type} (distance : Nat) (r : Except Stop α) : Except Fault α :=
  match r with
  | .ok v => .ok v
  | .error stop => .error ⟨distance, stop⟩

namespace Node

/-! ## Scalars -/

mutual

/-- The text of a scalar. A mapping stands for its entry under the name `=`, if it has one. -/
def scalarCodes : Node → Except Stop (List Nat)
  | .scalar _ codes _ => .ok codes
  | .mapping _ entries m => defaultCodes m entries
  | n => stopAt (.notOfKind .scalar n.kind) n.mark

/-- The text of the first entry under the name `=`. -/
def defaultCodes (m : Mark) : List (Node × Node) → Except Stop (List Nat)
  | [] => stopAt (.notOfKind .scalar .mapping) m
  | (name, v) :: rest => if name.tag = .value then scalarCodes v else defaultCodes m rest

end

/-- Characters for codes; codes that are no characters become replacement characters. -/
def charsOf (codes : List Nat) : List Char :=
  (Value.nameOfCodes codes).toList

/-- The value of a node by a tag of scalars; nothing for other tags. -/
def scalarValue (n : Node) : Option (Except Stop Value) :=
  let read := fun (meaning : List Char → Except Stop Value) => some do
    let codes ← n.scalarCodes
    meaning (charsOf codes)
  match n.tag with
  | .null => read fun _ => .ok .null
  | .bool => read fun cs => (truthValue cs).map .bool
  | .int => read fun cs => (integerValue cs).map .int
  | .float => read fun cs => (numberValue cs).map .float
  | .text => some (n.scalarCodes.map Value.ofCodes)
  | .binary => some do
    let codes ← n.scalarCodes
    (binaryValue codes n.mark).map .bytes
  | .timestamp => some do
    let codes ← n.scalarCodes
    match n with
    | .scalar .. => (stampValue (charsOf codes)).map .stamp
    | _ => .error (.unfit .stampCollection)
  | .merge => some (stopAt (.unknownTag n.tag.name) n.mark)
  | .value => some (stopAt (.unknownTag n.tag.name) n.mark)
  | .other name => some (stopAt (.unknownTag name) n.mark)
  | _ => none

/-! ## Merging -/

/-- The entries that a mapping takes over, and its own ones. -/
structure Merged where
  taken : List (Node × Node)
  own : List (Node × Node)

/-- All entries, the own ones last. -/
def Merged.all (m : Merged) : List (Node × Node) :=
  m.taken ++ m.own

mutual

/-- The entries that the value of a merging name contributes to a mapping that begins at
`since`. -/
def contribution (since : Mark) : Node → Except Stop (List (Node × Node))
  | .mapping _ entries m => (merge m entries).map Merged.all
  | .sequence _ items _ => contributions since items
  | .enclosing .. => .ok []
  | n => stopDuring .mapping since (.mergesNoMappings n.kind) n.mark

/-- The entries that several mappings contribute: what comes later is overridden by what comes
earlier. -/
def contributions (since : Mark) : List Node → Except Stop (List (Node × Node))
  | [] => .ok []
  | .mapping _ entries m :: rest => do
    let first ← merge m entries
    let others ← contributions since rest
    .ok (others ++ first.all)
  | .enclosing _ .mapping _ :: rest => contributions since rest
  | n :: _ => stopDuring .mapping since (.mergesNoMapping n.kind) n.mark

/-- The entries of a mapping that begins at `since`. -/
def merge (since : Mark) : List (Node × Node) → Except Stop Merged
  | [] => .ok ⟨[], []⟩
  | (name, v) :: rest =>
    if name.tag = .merge then do
      let first ← contribution since v
      let others ← merge since rest
      .ok ⟨first ++ others.taken, others.own⟩
    else do
      let others ← merge since rest
      .ok ⟨others.taken, (name.asName, v) :: others.own⟩

end

/-! ## Collections -/

mutual

/-- How many collections are one inside another. -/
def depth : Node → Nat
  | .sequence _ items _ => depthOfItems items + 1
  | .mapping _ entries _ => depthOfEntries entries + 1
  | _ => 0

/-- The greatest depth of an item. -/
def depthOfItems : List Node → Nat
  | [] => 0
  | n :: rest => max (depth n) (depthOfItems rest)

/-- The greatest depth of a name or a value. -/
def depthOfEntries : List (Node × Node) → Nat
  | [] => 0
  | (name, v) :: rest => max (max (depth name) (depth v)) (depthOfEntries rest)

end

/-- The values of a list without those that come a second time. -/
def distinct (values : List Value) : List Value :=
  values.foldr (fun v rest => v :: rest.filter fun other => other.literal != v.literal) []

/-- Names and values as the entries of an object. -/
def objectOf (pairs : List (Value × Value)) : Value :=
  .object (pairs.foldl (fun entries pair =>
    match pair.1 with
    | .text name => Entries.put entries name pair.2
    | _ => entries) [])

/-- The value of a name, which must be a scalar, in a mapping that begins at `since`. -/
def nameValue (distance : Nat) (since : Mark) (name : Node) : Except Fault Value :=
  match name.scalarValue with
  | some r => faultAt distance r
  | none => faultAt distance (stopDuring .mapping since .unusableKey name.mark)

/-- The names and values of a mapping that begins at `since`, with what it takes over from
others. -/
def entryValues (distance : Nat) (valueOf : Node → Except Fault Value) (since : Mark)
    (entries : List (Node × Node)) :
    Except Fault (List (Value × Value)) := do
  let merged ← faultAt distance (merge since entries)
  allOrClosest (merged.all.map fun (name, v) => do
    let name ← nameValue distance since name
    let v ← valueOf v
    .ok (name, v))

/-- A mapping with one entry as a list of its name and its value. -/
def pairValue (activity : Activity) (distance : Nat) (valueOf : Node → Except Fault Value)
    (since : Mark) :
    Node → Except Fault Value
  | .mapping _ [(name, v)] _ => (allOrClosest [valueOf name, valueOf v]).map .list
  | .mapping _ entries m =>
    faultAt distance (stopDuring activity since (.manyPairs entries.length) m)
  | n => faultAt distance (stopDuring activity since (.noSinglePair n.kind) n.mark)

/-- What a collection means, by the meaning of its members. -/
def collectionValue (distance : Nat) (valueOf : Node → Except Fault Value) (n : Node) :
    Except Fault Value :=
  match n.tag, n with
  | .mapping, .mapping _ entries m => (entryValues distance valueOf m entries).map objectOf
  | .mapping, _ => faultAt distance (stopAt (.notOfKind .mapping n.kind) n.mark)
  | .set, .mapping _ entries m =>
    (entryValues distance valueOf m entries).map fun pairs =>
      .list (distinct (pairs.map Prod.fst))
  | .set, _ => faultAt distance (stopAt (.notOfKind .mapping n.kind) n.mark)
  | .orderedMap, .sequence _ items m =>
    (allOrClosest (items.map (pairValue .orderedMap distance valueOf m))).map .list
  | .orderedMap, _ => faultAt distance (stopDuring .orderedMap n.mark (.noSequence n.kind) n.mark)
  | .pairs, .sequence _ items m =>
    (allOrClosest (items.map (pairValue .pairs distance valueOf m))).map .list
  | .pairs, _ => faultAt distance (stopDuring .pairs n.mark (.noSequence n.kind) n.mark)
  | _, .sequence _ items _ => (allOrClosest (items.map valueOf)).map .list
  | _, .enclosing .. => .ok (.list [])
  | _, _ => faultAt distance (stopAt (.notOfKind .sequence n.kind) n.mark)

/-- What a node means, at a distance from the root; `fuel` bounds how many collections are one
inside another. -/
def valueAt : Nat → Nat → Node → Except Fault Value
  | fuel, distance, n =>
    match n.scalarValue, fuel with
    | some r, _ => faultAt distance r
    | none, 0 => .ok (.list [])
    | none, fuel + 1 => collectionValue (distance + 1) (valueAt fuel (distance + 1)) n

/-- What a node means. -/
def value (n : Node) : Except Stop Value :=
  match valueAt (n.depth + 1) 0 n with
  | .ok v => .ok v
  | .error fault => .error fault.stop

end Node

end SchemaBaseline.Yaml
