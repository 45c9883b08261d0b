import SchemaBaseline.Text.Quoted
import SchemaBaseline.Text.Split

/-!
# Paths

A path is a root and a list of components. Reading a path drops empty components and those that
stay in place, so that `a//./b` and `a/b` are one path; components that go up are kept. Two
slashes in front, and no other number above one, are kept apart from one.
-/

namespace SchemaBaseline.Files

/-- A path; the root is empty, one slash or two. -/
structure Path where
  root : String
  parts : List String
deriving Repr, DecidableEq, Inhabited

namespace Path

/-- The root of a path with a number of slashes in front. -/
def rootOf (slashes : Nat) : String :=
  if slashes = 0 then "" else if slashes = 2 then "//" else "/"

def ofText (text : String) : Path where
  root := rootOf (text.toList.takeWhile (· == '/')).length
  parts :=
    ((Text.splitAt '/' text.toList).map String.ofList).filter fun part =>
      part != "" && part != "."

/-- Components joined by slashes. -/
def join (parts : List String) : String :=
  "/".intercalate parts

/-- The text of a path; a path without components stands for the place where it starts. -/
def text (p : Path) : String :=
  if p.root.isEmpty && p.parts.isEmpty then "." else p.root ++ join p.parts

/-- Whether a component holds a null character. No file has such a name. -/
def hasNull (p : Path) : Bool :=
  p.parts.any fun part => part.toList.contains '\x00'

/-- The path of the directory in which a path lies. -/
def parent (p : Path) : Path :=
  { p with parts := p.parts.dropLast }

/-- The last component; empty if there is none. -/
def name (p : Path) : String :=
  p.parts.getLast?.getD ""

/-- The part of a name from its last dot on, unless nothing stands before the dot or behind it. -/
def suffixOf (name : List Char) : List Char :=
  let back := name.reverse
  let behind := back.takeWhile (· != '.')
  let front := back.dropWhile (· != '.')
  if behind.isEmpty || front.length ≤ 1 then [] else '.' :: behind.reverse

/-- The suffix of the last component, in lowercase. -/
def suffix (p : Path) : String :=
  String.ofList ((suffixOf p.name.toList).map Char.toLower)

end Path

end SchemaBaseline.Files
