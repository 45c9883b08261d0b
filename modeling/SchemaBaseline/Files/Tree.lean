import SchemaBaseline.Files.Path

/-!
# File trees

A tree of directories and files, kept as a list of places with what is found there; a place is the
list of components that lead to it from the top, which is a directory that is always there and its
own parent. Paths are resolved from the top one component at a time, as an operating system does
it: every component but the last must be a directory that exists, even if the next one goes up
again. `get?_put_self` and `get?_put_of_ne` say that writing changes one place only.
-/

namespace SchemaBaseline.Files

/-- The components that lead to a node from the top. -/
abbrev Place := List String

/-- What is found at a place. -/
inductive Node
  | directory
  | file (content : List UInt8)
deriving Repr, DecidableEq

/-- What can be in the way of an operation. -/
inductive Problem
  | notFound
  | exists
  | notADirectory
  | isADirectory
  | nameTooLong
  /-- The path holds a null character, so that the operation is not even tried. -/
  | nullCharacter
deriving Repr, DecidableEq

/-- The number of a problem, if the operating system has one for it. -/
def Problem.number? : Problem → Option Nat
  | .notFound => some 2
  | .exists => some 17
  | .notADirectory => some 20
  | .isADirectory => some 21
  | .nameTooLong => some 36
  | .nullCharacter => none

def Problem.words : Problem → String
  | .notFound => "No such file or directory"
  | .exists => "File exists"
  | .notADirectory => "Not a directory"
  | .isADirectory => "Is a directory"
  | .nameTooLong => "File name too long"
  | .nullCharacter => "embedded null byte"

/-- A problem with a path. -/
structure FileError where
  problem : Problem
  path : Path
deriving Repr, DecidableEq

/-- The message of a problem with a path, which is named if the operating system knows the
problem. -/
def FileError.message (e : FileError) : String :=
  match e.problem.number? with
  | some number => s!"[Errno {number}] {e.problem.words}: " ++ Text.quoted e.path.text
  | none => e.problem.words

structure Tree where
  nodes : List (Place × Node)
deriving Repr, DecidableEq, Inhabited

namespace Tree

/-- The tree with nothing below its top. -/
def empty : Tree := ⟨[]⟩

/-- What is found at a place. -/
def get? (tree : Tree) (place : Place) : Option Node :=
  if place.isEmpty then some .directory else tree.nodes.lookup place

/-- Replaces what is found at a place, or adds it. -/
def putNode (place : Place) (node : Node) : List (Place × Node) → List (Place × Node)
  | [] => [(place, node)]
  | (other, old) :: rest =>
    if other = place then (other, node) :: rest else (other, old) :: putNode place node rest

/-- The tree with another node at a place. -/
def put (tree : Tree) (place : Place) (node : Node) : Tree :=
  ⟨putNode place node tree.nodes⟩

theorem lookup_putNode_self (place : Place) (node : Node) (nodes : List (Place × Node)) :
    (putNode place node nodes).lookup place = some node := by
  induction nodes with
  | nil => simp [putNode]
  | cons entry rest ih =>
    obtain ⟨other, old⟩ := entry
    by_cases same : other = place
    · simp [putNode, same]
    · have miss : (place == other) = false := by simpa using fun e : place = other => same e.symm
      simp only [putNode, same, if_false, List.lookup_cons, miss]
      exact ih

theorem lookup_putNode_of_ne {place other : Place} (node : Node) (nodes : List (Place × Node))
    (ne : other ≠ place) : (putNode place node nodes).lookup other = nodes.lookup other := by
  have miss : (other == place) = false := by simpa using ne
  induction nodes with
  | nil => simp [putNode, List.lookup_cons, miss]
  | cons entry rest ih =>
    obtain ⟨third, old⟩ := entry
    by_cases same : third = place
    · subst same
      simp [putNode, List.lookup_cons, miss]
    · simp only [putNode, same, if_false, List.lookup_cons, ih]

/-- What has been put at a place is found there. -/
theorem get?_put_self {place : Place} (tree : Tree) (node : Node) (below : place ≠ []) :
    (tree.put place node).get? place = some node := by
  simp [get?, put, below, lookup_putNode_self]

/-- No other place changes. -/
theorem get?_put_of_ne {place other : Place} (tree : Tree) (node : Node) (ne : other ≠ place) :
    (tree.put place node).get? other = tree.get? other := by
  simp [get?, put, lookup_putNode_of_ne node tree.nodes ne]

/-! ## Resolving paths -/

/-- Names of more bytes than this are refused. -/
def maxNameBytes : Nat := 255

/-- Paths of more bytes than this are refused. -/
def maxPathBytes : Nat := 4095

/-- The component that goes up. -/
def up : String := ".."

/-- The place that components lead to, each of which must be a directory. -/
def enter (tree : Tree) : Place → List String → Except Problem Place
  | here, [] => .ok here
  | here, part :: rest =>
    if part = up then enter tree here.dropLast rest
    else if maxNameBytes < part.utf8ByteSize then .error .nameTooLong
    else match tree.get? (here ++ [part]) with
      | none => .error .notFound
      | some (.file _) => .error .notADirectory
      | some .directory => enter tree (here ++ [part]) rest

/-- The place that a path leads to, whether or not anything is there. -/
def resolve (tree : Tree) (path : Path) : Except Problem Place :=
  if path.hasNull then .error .nullCharacter
  else if maxPathBytes < path.text.utf8ByteSize then .error .nameTooLong
  else match path.parts.getLast? with
    | none => .ok []
    | some last => do
      let here ← enter tree [] path.parts.dropLast
      if last = up then .ok here.dropLast
      else if maxNameBytes < last.utf8ByteSize then .error .nameTooLong
      else .ok (here ++ [last])

def find (tree : Tree) (path : Path) : Except Problem Node := do
  let place ← tree.resolve path
  match tree.get? place with
  | some node => .ok node
  | none => .error .notFound

/-- A question about the node at a path; a path that leads nowhere has a negative answer. -/
def test (tree : Tree) (path : Path) (question : Node → Bool) : Except FileError Bool :=
  match tree.find path with
  | .ok node => .ok (question node)
  | .error .nameTooLong => .error ⟨.nameTooLong, path⟩
  | .error _ => .ok false

def isFile (tree : Tree) (path : Path) : Except FileError Bool :=
  tree.test path fun node => match node with
    | .file _ => true
    | .directory => false

def isDirectory (tree : Tree) (path : Path) : Except FileError Bool :=
  tree.test path fun node => node == .directory

def read (tree : Tree) (path : Path) : Except FileError (List UInt8) :=
  match tree.find path with
  | .ok (.file content) => .ok content
  | .ok .directory => .error ⟨.isADirectory, path⟩
  | .error problem => .error ⟨problem, path⟩

/-! ## Changing a tree -/

/-- Writes a file, whose directory must exist. -/
def write (tree : Tree) (path : Path) (content : List UInt8) : Except FileError Tree :=
  match tree.resolve path with
  | .error problem => .error ⟨problem, path⟩
  | .ok place =>
    match tree.get? place with
    | some .directory => .error ⟨.isADirectory, path⟩
    | _ => .ok (tree.put place (.file content))

/-- Makes a directory where nothing is yet, in a directory that exists. -/
def makeDirectory (tree : Tree) (path : Path) : Except Problem Tree :=
  match tree.resolve path with
  | .error problem => .error problem
  | .ok place =>
    match tree.get? place with
    | some _ => .error .exists
    | none => .ok (tree.put place .directory)

/-- A directory could not be made; that does not matter if it is there. -/
def unlessDirectory (tree : Tree) (path : Path) (problem : Problem) : Option FileError :=
  match tree.isDirectory path with
  | .ok true => none
  | .ok false => some ⟨problem, path⟩
  | .error e => some e

/-- Makes a directory and, before it, those above it that are missing. On failure the ones made so
far remain. -/
def makeDirectories (tree : Tree) (root : String) (parts : List String) :
    Tree × Option FileError :=
  let path : Path := ⟨root, parts⟩
  match tree.makeDirectory path with
  | .ok tree => (tree, none)
  | .error .notFound =>
    if _here : parts = [] then (tree, some ⟨.notFound, path⟩)
    else
      match makeDirectories tree root parts.dropLast with
      | (tree, some e) => (tree, some e)
      | (tree, none) =>
        -- What is above is there by now.
        match tree.makeDirectory path with
        | .ok tree => (tree, none)
        | .error .notFound => (tree, some ⟨.notFound, path⟩)
        | .error problem => (tree, tree.unlessDirectory path problem)
  | .error problem => (tree, tree.unlessDirectory path problem)
termination_by parts.length
decreasing_by
  have := List.length_pos_iff.mpr _here
  simp only [List.length_dropLast]
  omega

/-- Writes a file after making the missing directories above it. -/
def save (tree : Tree) (path : Path) (content : List UInt8) : Tree × Option FileError :=
  match tree.makeDirectories path.root path.parent.parts with
  | (tree, some e) => (tree, some e)
  | (tree, none) =>
    match tree.write path content with
    | .ok tree => (tree, none)
    | .error e => (tree, some e)

/-! ## Listing a tree -/

/-- A place with what is found there, as text; directories end in a slash. -/
def entryText (entry : Place × Node) : String :=
  match entry.2 with
  | .directory => Path.join entry.1 ++ "/"
  | .file _ => Path.join entry.1

/-- All places with a node, as texts in rising order. -/
def listing (tree : Tree) : List String :=
  (tree.nodes.map entryText).mergeSort fun a b => decide (a ≤ b)

end Tree

end SchemaBaseline.Files
