import SchemaBaseline.Text.Quoted

/-!
# Type references

A type reference names a type and wraps it in lists and non-null marks to any depth. Since
references also arrive from outside, `TypeRef` admits any chain of nodes; `TypeRef.WellFormed`
singles out the references that mean something: wrappers around one named type.
`TypeRef.canonical` spells a reference, `[String!]!` for instance, or says how it is malformed;
`WellFormed.canonicalChars` says that every well-formed reference has a spelling.
-/

namespace SchemaBaseline

open Text (quoted)

/-- The kind of a node. A node of a kind that is none of the three known ones prints like a
non-null mark. -/
inductive RefKind
  | named
  | nonNull
  | list
  | other (label : Option String)
deriving Repr, DecidableEq

def RefKind.label : RefKind → Option String
  | .named => some "NAMED"
  | .nonNull => some "NON_NULL"
  | .list => some "LIST"
  | .other label => label

def RefKind.ofLabel : Option String → RefKind
  | some "NAMED" => .named
  | some "NON_NULL" => .nonNull
  | some "LIST" => .list
  | label => .other label

def RefKind.isWrapper : RefKind → Bool
  | .nonNull => true
  | .list => true
  | _ => false

/-- A chain of nodes, outermost first. Every node may carry a name. -/
inductive TypeRef
  | leaf (kind : RefKind) (name : Option String)
  | wrap (kind : RefKind) (name : Option String) (inner : TypeRef)
deriving Repr, DecidableEq

instance : Inhabited TypeRef := ⟨.leaf .named none⟩

namespace TypeRef

/-- A reference to a type by its name. -/
def named (name : String) : TypeRef :=
  .leaf .named (some name)

/-- A reference that excludes null. -/
def nonNull (inner : TypeRef) : TypeRef :=
  .wrap .nonNull none inner

/-- A reference to lists. -/
def listOf (inner : TypeRef) : TypeRef :=
  .wrap .list none inner

/-- Wrappers around one named type with a name that is not empty. -/
inductive WellFormed : TypeRef → Prop
  | named {name : String} : name ≠ "" → WellFormed (.leaf .named (some name))
  | wrap {kind : RefKind} {name : Option String} {inner : TypeRef} :
      kind.isWrapper = true → WellFormed inner → WellFormed (.wrap kind name inner)

def isWellFormed : TypeRef → Bool
  | .leaf .named (some name) => name != ""
  | .leaf _ _ => false
  | .wrap kind _ inner => kind.isWrapper && inner.isWellFormed

theorem isWellFormed_iff {ref : TypeRef} : ref.isWellFormed = true ↔ ref.WellFormed := by
  constructor
  · intro accepted
    fun_induction isWellFormed ref with
    | case1 name => exact .named (by simpa using accepted)
    | case2 => cases accepted
    | case3 kind name inner ih =>
        rw [Bool.and_eq_true] at accepted
        exact .wrap accepted.1 (ih accepted.2)
  · intro wf
    induction wf with
    | named nonempty => simpa [isWellFormed] using nonempty
    | wrap wrapper _ ih => rw [isWellFormed, wrapper, ih, Bool.and_self]

instance (ref : TypeRef) : Decidable ref.WellFormed :=
  decidable_of_iff _ isWellFormed_iff

/-- The name of the innermost node, empty if it has none. -/
def namedType : TypeRef → String
  | .leaf _ name => name.getD ""
  | .wrap _ _ inner => inner.namedType

/-- The number of nodes. -/
def depth : TypeRef → Nat
  | .leaf _ _ => 1
  | .wrap _ _ inner => inner.depth + 1

/-- How a reference fails to mean anything. -/
inductive Malformed
  | noInnerType (kind : RefKind)
  | badNamedType (name : Option String)
deriving Repr, DecidableEq

def Malformed.message : Malformed → String
  | .noInnerType kind => kind.label.getD "None" ++ " type reference has no inner type"
  | .badNamedType name => "Malformed named type reference: " ++ (name.map quoted).getD "None"

/-- What a wrapper adds to the spelling of what it wraps. -/
def wrapSpelling (kind : RefKind) (inner : List Char) : List Char :=
  match kind with
  | .list => '[' :: inner ++ [']']
  | _ => inner ++ ['!']

/-- The spelling of a reference in characters. -/
def canonicalChars : TypeRef → Except Malformed (List Char)
  | .leaf .named (some name) =>
    if name = "" then .error (.badNamedType (some name)) else .ok name.toList
  | .leaf .named none => .error (.badNamedType none)
  | .leaf kind _ => .error (.noInnerType kind)
  | .wrap .named name _ => .error (.badNamedType name)
  | .wrap kind _ inner =>
    match inner.canonicalChars with
    | .ok cs => .ok (wrapSpelling kind cs)
    | .error e => .error e

/-- The spelling of a reference. -/
def canonical (ref : TypeRef) : Except Malformed String :=
  match ref.canonicalChars with
  | .ok cs => .ok (String.ofList cs)
  | .error e => .error e

/-- Every well-formed reference has a spelling. -/
theorem WellFormed.canonicalChars {ref : TypeRef} (wf : WellFormed ref) :
    ∃ cs, ref.canonicalChars = .ok cs := by
  induction wf with
  | @named name nonempty => exact ⟨name.toList, by simp [TypeRef.canonicalChars, nonempty]⟩
  | wrap wrapper _ ih =>
    obtain ⟨cs, spelled⟩ := ih
    rename_i kind _ _ _
    cases kind <;> simp_all [TypeRef.canonicalChars, RefKind.isWrapper]

theorem depth_pos (ref : TypeRef) : 0 < ref.depth := by
  cases ref <;> simp [depth]

end TypeRef

end SchemaBaseline
