import SchemaBaseline.Schema.TypeRef
import SchemaBaseline.Text.Blank

/-!
# Reading the spelling of a type reference

`TypeRef.parse` reads a spelling such as `[String!]!`. Blanks are allowed around every part. A
mark at the end binds last, so that it is taken off first; brackets come next; what remains must
be a name, which holds neither brackets nor marks nor spaces.
-/

namespace SchemaBaseline.TypeRef

open Text (stripChars quoted)

/-- A text that spells no reference: the part that is neither wrapped nor a name. -/
structure Misspelled where
  part : String
deriving Repr, DecidableEq

/-- The complaint about a text that spells no reference. -/
def Misspelled.message (e : Misspelled) : String :=
  s!"Invalid type notation: {quoted e.part}"

/-- Whether a character may not stand in a name. -/
def endsName (c : Char) : Bool :=
  c == '[' || c == ']' || c == '!' || c == ' '

/-- The outermost wrapper of a text without blanks at its ends, and the text inside it. -/
inductive Peeled
  | nonNull (inner : List Char)
  | list (inner : List Char)
  | plain

/-- Takes the outermost wrapper off a text. -/
def peel (cs : List Char) : Peeled :=
  if cs.getLast? = some '!' then .nonNull cs.dropLast
  else if cs.head? = some '[' && cs.getLast? = some ']' then .list cs.dropLast.tail
  else .plain

theorem length_lt_of_peel_nonNull {cs inner : List Char} (h : peel cs = .nonNull inner) :
    inner.length < cs.length := by
  unfold peel at h
  split at h
  · next marked =>
    injection h with h
    subst h
    cases cs with
    | nil => simp at marked
    | cons c rest => simp
  · split at h <;> cases h

theorem length_lt_of_peel_list {cs inner : List Char} (h : peel cs = .list inner) :
    inner.length < cs.length := by
  unfold peel at h
  split at h
  · cases h
  · split at h
    · next bracketed =>
      injection h with h
      subst h
      cases cs with
      | nil => simp at bracketed
      | cons c rest => simp only [List.length_tail, List.length_dropLast, List.length_cons]; omega
    · cases h

/-- Reads a spelling from characters. -/
def parseChars (text : List Char) : Except Misspelled TypeRef :=
  let cs := stripChars text
  match _peeled : peel cs with
  | .nonNull inner => (parseChars inner).map nonNull
  | .list inner => (parseChars inner).map listOf
  | .plain =>
    if cs.isEmpty || cs.any endsName then .error ⟨String.ofList cs⟩
    else .ok (named (String.ofList cs))
termination_by text.length
decreasing_by
  · exact Nat.lt_of_lt_of_le (length_lt_of_peel_nonNull _peeled) (Text.length_stripChars_le text)
  · exact Nat.lt_of_lt_of_le (length_lt_of_peel_list _peeled) (Text.length_stripChars_le text)

/-- Reads a spelling. -/
def parse (text : String) : Except Misspelled TypeRef :=
  parseChars text.toList

end SchemaBaseline.TypeRef
