import SchemaBaseline.Yaml.Node.OfTokens
import SchemaBaseline.Yaml.Node.Value

/-!
# Reading YAML

`Yaml.read` gives the value of the one document in a text: characters become tokens, tokens become
nodes, and nodes have values. A text without a document is null.
-/

namespace SchemaBaseline.Yaml

/-- Why a text has no value. -/
inductive Failure
  | malformed (message : String)
  | unfit (misfit : Misfit)
deriving Repr, DecidableEq

/-- The first character that no text may hold, and how many characters are before it. -/
def firstUnacceptable? (cs : List Char) : Option (Nat × Char) :=
  (cs.dropWhile isAcceptable).head?.map fun c => ((cs.takeWhile isAcceptable).length, c)

/-- The message about a character that no text may hold. -/
def unacceptableMessage (position : Nat) (c : Char) : String :=
  "unacceptable character #x" ++ String.ofList (Text.hexDigits 4 c.toNat) ++
    s!": special characters are not allowed\n  in \"<unicode string>\", position {position}"

/-- The value of a list of characters. -/
def valueOf (cs : List Char) : Except Stop Value := do
  let (tokens, stop) := tokensOf cs
  match ← Node.ofTokens tokens stop with
  | none => .ok .null
  | some root => root.value

def read (s : String) : Except Failure Value :=
  let cs := s.toList
  match firstUnacceptable? cs with
  | some (position, c) => .error (.malformed (unacceptableMessage position c))
  | none =>
    match valueOf cs with
    | .ok v => .ok v
    | .error (.misread report) => .error (.malformed (report.message cs))
    | .error (.unfit misfit) => .error (.unfit misfit)

end SchemaBaseline.Yaml
