import SchemaBaseline.Value.Basic

/-!
# Walking over values

Some code visits the members of a value before it is known to have any. `walk` gives the members,
or a `WalkFault` that says which kind of value has none. The words for the kinds of values are
those used in messages.
-/

namespace SchemaBaseline

namespace Value

/-- The word for the kind of a value, as it is used in messages. -/
def kindWord : Value → String
  | .null => "NoneType"
  | .bool _ => "bool"
  | .int _ => "int"
  | .float _ => "float"
  | .text _ | .brokenText _ => "str"
  | .bytes _ => "bytes"
  | .stamp _ => "datetime"
  | .list _ => "list"
  | .object _ => "dict"

/-- What a walk over a value visits: the items of a list, the names of an object, the characters
of a text. Other values cannot be walked. -/
def members? : Value → Option (List Value)
  | .list items => some items
  | .object entries => some (entries.map fun entry => .text entry.1)
  | .text s => some (s.toList.map fun c => .text (String.singleton c))
  | .brokenText codes => some (codes.map fun code => .brokenText [code])
  | .bytes data => some (data.map fun b => .int b.toNat)
  | _ => none

end Value

/-- A value that cannot be used as a walk needs it. -/
inductive WalkFault
  /-- A value without members where several are expected. -/
  | notIterable (kind : String)
  /-- A list or an object where a name is looked up. -/
  | unhashable (kind : String)
deriving Repr, DecidableEq

def WalkFault.message : WalkFault → String
  | .notIterable kind => s!"'{kind}' object is not iterable"
  | .unhashable kind => s!"unhashable type: '{kind}'"

/-- What a walk over a value visits. -/
def walk (v : Value) : Except WalkFault (List Value) :=
  match v.members? with
  | some items => .ok items
  | none => .error (.notIterable v.kindWord)

end SchemaBaseline
