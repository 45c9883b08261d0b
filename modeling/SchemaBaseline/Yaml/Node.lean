import SchemaBaseline.Yaml.Fault
import SchemaBaseline.Yaml.Tag

/-!
# Nodes of YAML

A `Node` is a scalar, a sequence or a mapping with its tag and the place where it begins. A node
that is used again under a name is simply there again; only where it is used inside itself,
`enclosing` stands for it. YAML means a value without end then, one that holds itself. The values
here are finite: such a node is written out once (`Node.unroll`), and inside that copy it counts
as an empty list.
-/

namespace SchemaBaseline.Yaml

/-- A node of a document. -/
inductive Node
  | scalar (tag : Tag) (codes : List Nat) (mark : Mark)
  | sequence (tag : Tag) (items : List Node) (mark : Mark)
  | mapping (tag : Tag) (entries : List (Node × Node)) (mark : Mark)
  /-- A node around this one. -/
  | enclosing (anchor : String) (kind : NodeKind) (mark : Mark)

instance : Inhabited Node := ⟨.scalar .null [] default⟩

namespace Node

def kind : Node → NodeKind
  | scalar .. => .scalar
  | sequence .. => .sequence
  | mapping .. => .mapping
  | enclosing _ kind _ => kind

def mark : Node → Mark
  | scalar _ _ m => m
  | sequence _ _ m => m
  | mapping _ _ m => m
  | enclosing _ _ m => m

/-- The tag of a node. One that holds itself counts as a list where it is inside itself. -/
def tag : Node → Tag
  | scalar tag _ _ => tag
  | sequence tag _ _ => tag
  | mapping tag _ _ => tag
  | enclosing .. => .sequence

/-- A node as a name: the sign `=` is a text there. -/
def asName : Node → Node
  | scalar .value codes m => scalar .text codes m
  | sequence .value items m => sequence .text items m
  | mapping .value entries m => mapping .text entries m
  | n => n

/-- A node that is not written at all. -/
def absent (m : Mark) : Node :=
  .scalar .null [] m

mutual

/-- Puts a node in the place of those that stand for it inside itself. It does so once: those
inside the copies go on standing for it, and mean empty lists. -/
def unroll (anchor : String) (whole : Node) : Node → Node
  | scalar tag codes m => scalar tag codes m
  | sequence tag items m => sequence tag (unrollItems anchor whole items) m
  | mapping tag entries m => mapping tag (unrollEntries anchor whole entries) m
  | enclosing name kind m => if name = anchor then whole else enclosing name kind m

/-- Unrolls the items of a sequence. -/
def unrollItems (anchor : String) (whole : Node) : List Node → List Node
  | [] => []
  | n :: rest => unroll anchor whole n :: unrollItems anchor whole rest

/-- Unrolls the names and values of a mapping. -/
def unrollEntries (anchor : String) (whole : Node) : List (Node × Node) → List (Node × Node)
  | [] => []
  | (name, v) :: rest =>
    (unroll anchor whole name, unroll anchor whole v) :: unrollEntries anchor whole rest

end

end Node

end SchemaBaseline.Yaml
