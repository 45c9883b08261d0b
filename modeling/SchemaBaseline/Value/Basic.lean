import SchemaBaseline.Time.Stamp

/-!
# Document values

The values that JSON and YAML documents denote. Entries of an object keep the order in which their
keys were first written; a key that is written again gets the later value in the earlier place
(`Entries.put`). Texts are sequences of characters; a text that a document writes with a surrogate
standing alone is kept apart as `brokenText`. Binary data and date-times come from YAML only.
-/

namespace SchemaBaseline

open Time (Stamp)

/-- A value of a document. -/
inductive Value
  | null
  | bool (b : Bool)
  | int (n : Int)
  | float (x : Float)
  | text (s : String)
  | brokenText (codes : List Nat)
  | bytes (data : List UInt8)
  | stamp (t : Stamp)
  | list (items : List Value)
  | object (entries : List (String × Value))

instance : Inhabited Value := ⟨.null⟩

/-- Named entries in order. -/
abbrev Entries := List (String × Value)

namespace Entries

def get? (entries : Entries) (name : String) : Option Value :=
  entries.lookup name

/-- Adds an entry at the end, or replaces the value of an entry that is there already. -/
def put (entries : Entries) (name : String) (value : Value) : Entries :=
  match entries with
  | [] => [(name, value)]
  | (other, old) :: rest =>
    if other = name then (other, value) :: rest else (other, old) :: put rest name value

theorem get?_put_self (entries : Entries) (name : String) (value : Value) :
    get? (put entries name value) name = some value := by
  induction entries with
  | nil => simp [put, get?]
  | cons entry rest ih =>
    obtain ⟨other, old⟩ := entry
    by_cases h : other = name
    · simp [put, get?, h]
    · have miss : (name == other) = false := by simpa using fun e : name = other => h e.symm
      simp only [put, h, if_false, get?, List.lookup_cons, miss]
      exact ih

theorem get?_put_of_ne {name other : String} (entries : Entries) (value : Value)
    (ne : other ≠ name) :
    get? (put entries name value) other = get? entries other := by
  have miss : (other == name) = false := by simpa using ne
  induction entries with
  | nil => simp [put, get?, List.lookup_cons, miss]
  | cons entry rest ih =>
    obtain ⟨third, old⟩ := entry
    by_cases same : third = name
    · subst same
      simp [put, get?, List.lookup_cons, miss]
    · simp only [put, same, if_false, get?, List.lookup_cons] at ih ⊢
      rw [ih]

end Entries

namespace Value

def entries? : Value → Option Entries
  | .object entries => some entries
  | _ => none

/-- The codes of the characters of a text. -/
def codesOf (s : String) : List Nat :=
  s.toList.map Char.toNat

/-- Codes as a value: a text, if all of them are characters. -/
def ofCodes (codes : List Nat) : Value :=
  if codes.all (·.isValidChar) then .text (String.ofList (codes.map Char.ofNat))
  else .brokenText codes

/-- The name that codes give to an entry; codes that are no characters become replacement
characters, which no reader of entries asks for. -/
def nameOfCodes (codes : List Nat) : String :=
  String.ofList (codes.map fun code => if code.isValidChar then Char.ofNat code else '\ufffd')

theorem isValidChar_toNat (c : Char) : c.toNat.isValidChar := c.valid

/-- The codes of a text are codes of characters. -/
theorem isValidChar_codesOf (s : String) :
    (codesOf s).all (fun code => decide code.isValidChar) = true := by
  rw [List.all_eq_true]
  intro code member
  obtain ⟨c, _, rfl⟩ := List.mem_map.mp member
  exact decide_eq_true (isValidChar_toNat c)

/-- The codes of a text denote the text. -/
theorem ofCodes_codesOf (s : String) : ofCodes (codesOf s) = .text s := by
  have same : (codesOf s).map Char.ofNat = s.toList := by
    rw [codesOf, List.map_map]
    exact List.map_id'' Char.ofNat_toNat s.toList
  rw [ofCodes, if_pos (isValidChar_codesOf s), same, String.ofList_toList]

/-- The codes of a name denote the name. -/
theorem nameOfCodes_codesOf (s : String) : nameOfCodes (codesOf s) = s := by
  have same : (codesOf s).map
      (fun code => if code.isValidChar then Char.ofNat code else '\ufffd') = s.toList := by
    rw [codesOf, List.map_map]
    refine List.map_id'' (fun c => ?_) s.toList
    simp only [Function.comp, isValidChar_toNat, if_true, Char.ofNat_toNat]
  rw [nameOfCodes, same, String.ofList_toList]

theorem codesOf_injective {s t : String} (same : codesOf s = codesOf t) : s = t := by
  rw [← nameOfCodes_codesOf s, same, nameOfCodes_codesOf]

theorem codesOf_append (s t : String) : codesOf (s ++ t) = codesOf s ++ codesOf t := by
  simp only [codesOf, String.toList_append, List.map_append]

/-- The value under a name of an object; null if there is none or the value is no object. -/
def field (v : Value) (name : String) : Value :=
  match v with
  | .object entries => (Entries.get? entries name).getD .null
  | _ => .null

/-- Whether a value counts as true in a condition: null, false, zero and whatever is empty do
not. -/
def isTruthy : Value → Bool
  | .null => false
  | .bool b => b
  | .int n => n != 0
  | .float x => !(x == 0)
  | .text s => s != ""
  | .brokenText codes => !codes.isEmpty
  | .bytes data => !data.isEmpty
  | .stamp _ => true
  | .list items => !items.isEmpty
  | .object entries => !entries.isEmpty

end Value

end SchemaBaseline
