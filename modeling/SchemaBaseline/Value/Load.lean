import SchemaBaseline.Text.Utf8
import SchemaBaseline.Time.Reader
import SchemaBaseline.Value.Issue

/-!
# Loading parts of values

The checks from which records are loaded: texts, flags, date-times, lists, and the fields of an
object. A field may have a second spelling, which counts only where the first one is absent;
issues always name the first one.
-/

namespace SchemaBaseline

open Time (Stamp)

namespace Value

/-- A text. Binary data are taken as UTF-8. -/
def loadText : Value → Checked String
  | .text s => .ok s
  | .brokenText _ => .fail .brokenText
  | .bytes data =>
    match Text.Utf8.decode data with
    | .ok s => .ok s
    | .error _ => .fail .brokenText
  | _ => .fail .notText

def loadTextOrNull : Value → Checked (Option String)
  | .null => .ok none
  | v => (loadText v).map some

/-- The flag that a word stands for, whatever its case. -/
def flagOfWord (s : String) : Option Bool :=
  let word := s.toLower
  if ["0", "off", "f", "false", "n", "no"].contains word then some false
  else if ["1", "on", "t", "true", "y", "yes"].contains word then some true
  else none

/-- The flag that an integer stands for. -/
def flagOfInt (n : Int) : Checked Bool :=
  if n = 0 then .ok false
  else if n = 1 then .ok true
  else if n < -Int.pow 2 63 || Int.pow 2 63 ≤ n then .fail .notABool
  else .fail .unreadableBool

/-- A flag: true or false, 0 or 1, or one of the words for them. -/
def loadFlag : Value → Checked Bool
  | .bool b => .ok b
  | .int n => flagOfInt n
  | .float x =>
    if x.isNaN || x.isInf || !Decimal.isIntegral x then .fail .notABool
    else flagOfInt (Decimal.floor x)
  | .text s =>
    match flagOfWord s with
    | some b => .ok b
    | none => .fail .unreadableBool
  | .bytes data =>
    match (Text.Utf8.decode data).toOption.bind flagOfWord with
    | some b => .ok b
    | none => .fail .unreadableBool
  | .brokenText _ => .fail .unreadableBool
  | _ => .fail .notABool

/-- The problem that a failed reading of a date-time amounts to. -/
def problemOfStamp : Time.StampProblem → Problem
  | .unreadable => .unreadableStamp
  | .unrepresentable => .badStamp
  | .unsuitable => .notAStamp

/-- A date-time: one already, a text, or a count since 1970. -/
def loadStamp (v : Value) : Checked Stamp :=
  let found : Except Time.StampProblem Stamp :=
    match v with
    | .stamp t => .ok t
    | .text s => Time.readText s
    | .bytes data =>
      match Text.Utf8.decode data with
      | .ok s => Time.readText s
      | .error _ => .error .unreadable
    | .brokenText _ => .error .unreadable
    | .int n => Time.readInt n
    | .float x => Time.readFloat x
    | _ => .error .unsuitable
  match found with
  | .ok t => .ok t
  | .error problem => .fail (problemOfStamp problem)

end Value

/-- Checks the items of a list from a position on. -/
def Checked.ofItems {α : Type} (load : Value → Checked α) : Nat → List Value → Checked (List α)
  | _, [] => .ok []
  | i, v :: rest => (((load v).under (.index i)).map List.cons).apply (ofItems load (i + 1) rest)

namespace Value

/-- A list whose items are checked one by one. -/
def loadItems {α : Type} (load : Value → Checked α) : Value → Checked (List α)
  | .list items => Checked.ofItems load 0 items
  | _ => .fail .notAList

/-- A list, null standing for the empty one. -/
def loadChildren {α : Type} (load : Value → Checked α) : Value → Checked (List α)
  | .null => .ok []
  | v => loadItems load v

end Value

namespace Entries

/-- The value under a name, or under its second spelling. -/
def either? (entries : Entries) (name second : String) : Option Value :=
  (get? entries name).or (get? entries second)

/-- A field that must be there. -/
def required {α : Type} (entries : Entries) (name second : String) (load : Value → Checked α) :
    Checked α :=
  match either? entries name second with
  | some v => (load v).under (.name name)
  | none => Checked.under (.name name) (.fail .missing)

/-- A field with a default. -/
def optional {α : Type} (entries : Entries) (name second : String) (default : α)
    (load : Value → Checked α) :
    Checked α :=
  match either? entries name second with
  | some v => (load v).under (.name name)
  | none => .ok default

theorem mem_issues_required {α : Type} {entries : Entries} {name second : String}
    {load : Value → Checked α} {issue : Issue}
    (member : issue ∈ (required entries name second load).issues) :
    issue.problem = .missing ∨ ∃ v, ∃ inside ∈ (load v).issues,
      inside.under (.name name) = issue := by
  unfold required at member
  split at member
  · rename_i v _
    exact .inr ⟨v, Checked.mem_issues_under.mp member⟩
  · obtain ⟨inside, here, rfl⟩ := Checked.mem_issues_under.mp member
    rw [Checked.eq_of_mem_issues_fail here]
    exact .inl rfl

theorem mem_issues_optional {α : Type} {entries : Entries} {name second : String} {default : α}
    {load : Value → Checked α} {issue : Issue}
    (member : issue ∈ (optional entries name second default load).issues) :
    ∃ v, ∃ inside ∈ (load v).issues, inside.under (.name name) = issue := by
  unfold optional at member
  split at member
  · rename_i v _
    exact ⟨v, Checked.mem_issues_under.mp member⟩
  · cases member

end Entries

end SchemaBaseline
