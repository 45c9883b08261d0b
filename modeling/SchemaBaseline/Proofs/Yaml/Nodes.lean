import Mathlib.Data.List.Forall2
import SchemaBaseline.Proofs.Json.RoundTrip
import SchemaBaseline.Proofs.Yaml.Tokens
import SchemaBaseline.Yaml.Reader

/-!
# The nodes of what is written

From the tokens of a value (`valueTokens`) a node is read that means this value (`Node.Means`).
The readers of nodes, items and entries recur on one another, so the induction is again on the
value: what it says of the parts is that a node is read off the front of whatever tokens follow,
with any fuel that is four times the number of the tokens. Only the items of a list behind a name
have no end of their own; there the next token must not begin a further item.
-/

namespace SchemaBaseline.Yaml

/-! ## What a node means -/

namespace Node

/-- A node means a value if it does at each distance from the root, with fuel for all that is
inside it. -/
def Means (n : Node) (v : Value) : Prop :=
  ∀ fuel distance : Nat, n.depth < fuel → n.valueAt fuel distance = .ok v

/-- An entry of a mapping means an entry of an object if its name is that text. -/
def EntryMeans (entry : Node × Node) (meant : String × Value) : Prop :=
  (∃ m, entry.1 = .scalar .text (codesOf meant.1.toList) m) ∧ entry.2.Means meant.2

theorem Means.value {n : Node} {v : Value} (means : n.Means v) : n.value = .ok v := by
  rw [Node.value, means _ 0 (Nat.lt_succ_self _)]

section Scalars

variable {n : Node} {v : Value} {m : Mark}

theorem means_of_scalarValue (reads : n.scalarValue = some (.ok v)) : n.Means v := by
  intro fuel distance _
  unfold valueAt
  rw [reads]
  rfl

theorem scalarValue_text (s : String) :
    (Node.scalar .text (codesOf s.toList) m).scalarValue = some (.ok (.text s)) := by
  have codes : Value.ofCodes (codesOf s.toList) = .text s := Value.ofCodes_codesOf s
  simp [scalarValue, Node.tag, scalarCodes, Except.map, codes]

theorem means_null (codes : List Nat) : (Node.scalar .null codes m).Means .null :=
  means_of_scalarValue rfl

theorem charsOf_codesOf (s : String) : charsOf (codesOf s.toList) = s.toList :=
  congrArg String.toList (Value.nameOfCodes_codesOf s)

theorem means_bool {word : String} {b : Bool} (truth : truthValue word.toList = .ok b) :
    (Node.scalar .bool (codesOf word.toList) m).Means (.bool b) := by
  refine means_of_scalarValue ?_
  simp [scalarValue, Node.tag, scalarCodes, charsOf_codesOf, truth, bind, Except.bind, Except.map]

end Scalars

/-! ## Collections -/

theorem valueAt_collection {n : Node} (fuel distance : Nat) (noScalar : n.scalarValue = none) :
    n.valueAt (fuel + 1) distance =
      collectionValue (distance + 1) (valueAt fuel (distance + 1)) n := by
  unfold valueAt
  rw [noScalar]

theorem allOrClosest_map {α β : Type} {read : α → Except Fault β} {parts : List α}
    {values : List β} (each : List.Forall₂ (fun part v => read part = .ok v) parts values) :
    allOrClosest (parts.map read) = .ok values := by
  induction each with
  | nil => rfl
  | cons first _ ih => simp only [List.map_cons, first, allOrClosest, ih]

/-- Each item is less deep than the list, so the fuel that is left is enough for it. -/
theorem valuesAt_of_means {nodes : List Node} {values : List Value} {fuel distance : Nat}
    (each : List.Forall₂ Means nodes values) (enough : depthOfItems nodes < fuel) :
    List.Forall₂ (fun n v => valueAt fuel distance n = .ok v) nodes values := by
  induction each with
  | nil => exact .nil
  | cons first _ ih =>
      rw [depthOfItems, Nat.max_lt] at enough
      exact .cons (first fuel distance enough.1) (ih enough.2)

theorem means_list {nodes : List Node} {values : List Value} {m : Mark}
    (each : List.Forall₂ Means nodes values) :
    (Node.sequence .sequence nodes m).Means (.list values) := by
  intro fuel distance enough
  obtain ⟨fuel, rfl⟩ : ∃ k, fuel = k + 1 := ⟨fuel - 1, by omega⟩
  rw [depth, Nat.add_lt_add_iff_right] at enough
  have values := allOrClosest_map (@valuesAt_of_means _ _ fuel (distance + 1) each enough)
  rw [valueAt_collection fuel distance rfl]
  simp only [collectionValue, Node.tag, values, Except.map]

/-- Names that are texts take nothing over from other mappings. -/
theorem merge_of_means {nodes : List (Node × Node)} {entries : Entries} (since : Mark)
    (each : List.Forall₂ EntryMeans nodes entries) : merge since nodes = .ok ⟨[], nodes⟩ := by
  induction each with
  | nil => rfl
  | @cons node _ _ _ first _ ih =>
      obtain ⟨name, v⟩ := node
      obtain ⟨⟨m, named⟩, -⟩ := first
      obtain rfl : name = _ := named
      simp [merge, Node.tag, asName, ih, bind, Except.bind]

theorem entryValue_of_means {node : Node × Node} {entry : String × Value} {fuel distance : Nat}
    (d : Nat) (since : Mark) (means : EntryMeans node entry) (enough : node.2.depth < fuel) :
    (do
      let name ← nameValue d since node.1
      let v ← valueAt fuel distance node.2
      .ok (name, v)) = .ok (Value.text entry.1, entry.2) := by
  obtain ⟨⟨m, named⟩, value⟩ := means
  have name : nameValue d since node.1 = .ok (.text entry.1) := by
    rw [named, nameValue, scalarValue_text]
    rfl
  rw [name, value fuel distance enough]
  rfl

theorem entryValues_of_means {nodes : List (Node × Node)} {entries : Entries}
    {fuel distance : Nat} (d : Nat) (since : Mark) (each : List.Forall₂ EntryMeans nodes entries)
    (enough : depthOfEntries nodes < fuel) :
    entryValues d (valueAt fuel distance) since nodes =
      .ok (entries.map fun entry => (.text entry.1, entry.2)) := by
  rw [entryValues, merge_of_means since each]
  refine allOrClosest_map ?_
  rw [Merged.all, List.nil_append]
  induction each with
  | nil => exact .nil
  | @cons node _ _ _ first _ ih =>
      rw [depthOfEntries, Nat.max_lt, Nat.max_lt] at enough
      exact .cons (entryValue_of_means d _ first enough.1.2) (ih enough.2)

theorem objectOf_of_nodup {entries : Entries} (distinct : (entries.map Prod.fst).Nodup) :
    objectOf (entries.map fun entry => (.text entry.1, entry.2)) = .object entries := by
  have added : ∀ {put : Entries → Value × Value → Entries},
      (∀ acc name v, put acc (.text name, v) = Entries.put acc name v) → ∀ {acc : Entries},
      ((acc ++ entries).map Prod.fst).Nodup →
      (entries.map fun entry => (Value.text entry.1, entry.2)).foldl put acc =
      acc ++ entries := by
    clear distinct
    intro put puts
    induction entries with
    | nil => simp
    | cons entry rest ih =>
        obtain ⟨name, v⟩ := entry
        intro acc distinct
        have fresh : name ∉ acc.map Prod.fst := Entries.not_mem_of_nodup distinct
        rw [List.map_cons, List.foldl_cons]
        rw [puts, Entries.put_of_not_mem v fresh, ih (by simpa using distinct)]
        simp
  exact congrArg Value.object (@added _ (fun _ _ _ => rfl) [] distinct)

theorem means_object {nodes : List (Node × Node)} {entries : Entries} {m : Mark}
    (distinct : (entries.map Prod.fst).Nodup) (each : List.Forall₂ EntryMeans nodes entries) :
    (Node.mapping .mapping nodes m).Means (.object entries) := by
  intro fuel distance enough
  obtain ⟨fuel, rfl⟩ : ∃ k, fuel = k + 1 := ⟨fuel - 1, by omega⟩
  rw [depth, Nat.add_lt_add_iff_right] at enough
  have values := @entryValues_of_means _ _ fuel (distance + 1) (distance + 1) m each enough
  rw [valueAt_collection fuel distance rfl]
  simp only [collectionValue, Node.tag, values, Except.map, objectOf_of_nodup distinct]

end Node

/-! ## One step of the readers -/

section Steps

variable {f g h k : Feed} {t : Placed} {rest : List Placed} {fuel : Nat} {place : Place}

theorem Feed.peek_eq (ahead : f.tokens = t :: rest) : f.peek = .ok t := by
  rw [peek, ahead]

theorem Feed.advance_eq (ahead : f.tokens = t :: rest) :
    f.advance = { f with tokens := rest } := by
  rw [advance, ahead, List.tail_cons]

/-- A node without properties. -/
theorem readNode_eq (ahead : f.tokens = t :: rest)
    (content : [TokenKind.alias, .anchor, .tag].contains t.kind = false) :
    readNode (fuel + 1) place f = readContent fuel place ⟨none, none, none⟩ t.start t f := by
  obtain ⟨token, start, stop⟩ := t
  have noProperties : readProperties f = .ok (⟨none, none, none⟩, f) := by
    rw [readProperties, Feed.peek_eq ahead]
    cases token <;> first | rfl | cases content
  simp only [readNode, Feed.peek_eq ahead, noProperties, bind, Except.bind]
  cases token <;> first | rfl | cases content

theorem readNode_scalar {codes : List Nat} {isPlain : Bool} {start stop : Mark}
    (ahead : f.tokens = ⟨.scalar codes isPlain, start, stop⟩ :: rest) :
    readNode (fuel + 2) place f =
      .ok (.scalar (if isPlain then Tag.ofPlain (codes.map Char.ofNat) else .text) codes start,
        { f with tokens := rest }) := by
  rw [readNode_eq ahead rfl]
  simp only [readContent, Feed.advance_eq ahead]
  rfl

theorem readNode_mapping {start stop : Mark} {entries : List (Node × Node)}
    (ahead : f.tokens = ⟨.blockMappingStart, start, stop⟩ :: rest) (inBlock : place ≠ .flow)
    (read : readEntries fuel start { f with tokens := rest } = .ok (entries, g)) :
    readNode (fuel + 2) place f = .ok (.mapping .mapping entries start, g) := by
  rw [readNode_eq ahead rfl]
  rw [← Feed.advance_eq ahead] at read
  have notFlow : (place != .flow) = true := bne_iff_ne.mpr inBlock
  simp only [readContent, notFlow, checkAnchor, Feed.setAnchor, read, bind,
    Except.bind, Except.map]
  rfl

theorem readNode_bareItems {start stop : Mark} {items : List Node}
    (ahead : f.tokens = ⟨.blockEntry, start, stop⟩ :: rest)
    (read : readBareItems fuel f = .ok (items, g)) :
    readNode (fuel + 2) .behindName f = .ok (.sequence .sequence items start, g) := by
  rw [readNode_eq ahead rfl]
  simp only [readContent, checkAnchor, Feed.setAnchor, read, bind, Except.bind, Except.map]
  rfl

theorem readNode_brackets {start stop : Mark} {t : Placed}
    (ahead : f.tokens = ⟨.flowSequenceStart, start, stop⟩ :: t :: rest)
    (closes : t.kind = .flowSequenceEnd) :
    readNode (fuel + 3) place f = .ok (.sequence .sequence [] start,
      { f with tokens := rest }) := by
  rw [readNode_eq ahead rfl]
  have read : readFlowItems (fuel + 1) start true f.advance =
      .ok ([], { f with tokens := rest }) := by
    rw [Feed.advance_eq ahead, readFlowItems, Feed.peek_eq rfl]
    simp only [bind, Except.bind, closes, if_true]
    rfl
  simp only [readContent, checkAnchor, Feed.setAnchor, read, bind, Except.bind, Except.map]
  rfl

theorem readMember_eq {closing : List TokenKind} {m : Mark} (ahead : f.tokens = t :: rest)
    (opens : closing.contains t.kind = false) :
    readMember (fuel + 1) place closing m f = readNode fuel place f := by
  simp only [readMember, Feed.peek_eq ahead, bind, Except.bind, opens,
    Bool.false_eq_true, if_false]

theorem readValue_eq {closing : List TokenKind} (ahead : f.tokens = t :: rest)
    (colon : t.kind = .value) :
    readValue (fuel + 1) place closing f =
      readMember fuel place closing t.stop { f with tokens := rest } := by
  simp only [readValue, Feed.peek_eq ahead, Feed.advance_eq ahead, bind, Except.bind,
    colon, if_true]

theorem readBareItems_item {node : Node} {nodes : List Node} (ahead : f.tokens = t :: rest)
    (entry : t.kind = .blockEntry)
    (item : readMember fuel .block [.blockEntry, .key, .value, .blockEnd] t.stop
      { f with tokens := rest } = .ok (node, g))
    (items : readBareItems fuel g = .ok (nodes, h)) :
    readBareItems (fuel + 1) f = .ok (node :: nodes, h) := by
  simp only [readBareItems, Feed.peek_eq ahead, Feed.advance_eq ahead, bind, Except.bind, entry,
    if_true, item, items]

theorem readEntries_entry {name v : Node} {nodes : List (Node × Node)} {start : Mark}
    (ahead : f.tokens = t :: rest)
    (key : t.kind = .key)
    (first : readMember fuel .behindName [.key, .value, .blockEnd] t.stop
      { f with tokens := rest } = .ok (name, g))
    (second : readValue fuel .behindName [.key, .value, .blockEnd] g = .ok (v, h))
    (others : readEntries fuel start h = .ok (nodes, k)) :
    readEntries (fuel + 1) start f = .ok ((name, v) :: nodes, k) := by
  simp only [readEntries, Feed.peek_eq ahead, Feed.advance_eq ahead, bind, Except.bind, key,
    first, second, others]

theorem readEntries_end {start : Mark} (ahead : f.tokens = t :: rest)
    (ends : t.kind = .blockEnd) :
    readEntries (fuel + 1) start f = .ok ([], { f with tokens := rest }) := by
  simp only [readEntries, Feed.peek_eq ahead, Feed.advance_eq ahead, bind, Except.bind, ends]

end Steps

/-! ## Nodes that are read off the front -/

/-- A node of a value is read behind a name, whatever follows but a further item. -/
def ReadsValue (v : Value) : Prop :=
  ∀ {f : Feed} {placed rest : List Placed} {next : Placed} {fuel : Nat},
    placed.map Placed.token = valueTokens v → f.tokens = placed ++ next :: rest →
      next.kind ≠ .blockEntry →
    4 * placed.length ≤ fuel →
    ∃ n, readNode fuel .behindName f = .ok (n, { f with tokens := next :: rest }) ∧ n.Means v

/-- A node of an object is read in blocks, whatever follows. -/
def ReadsRecord (entries : Entries) : Prop :=
  ∀ {f : Feed} {placed rest : List Placed} {fuel : Nat} {place : Place},
    placed.map Placed.token = valueTokens (.object entries) → f.tokens = placed ++ rest →
      place ≠ .flow →
    4 * placed.length ≤ fuel →
    ∃ n, readNode fuel place f = .ok (n, { f with tokens := rest }) ∧ n.Means (.object entries)

/-- What the tokens of a value begin with is no sign that there is none. -/
theorem exists_valueTokens (v : Value) :
    ∃ t more, valueTokens v = t :: more ∧
      [TokenKind.key, .value, .blockEnd].contains t.kind = false := by
  unfold valueTokens
  split
  all_goals exact ⟨_, _, rfl, rfl⟩

section Values

theorem readsValue_scalar {v : Value} {codes : List Nat} {isPlain : Bool}
    (tokens : valueTokens v = [.scalar codes isPlain])
    (means : ∀ m, (Node.scalar (if isPlain then Tag.ofPlain (codes.map Char.ofNat)
    else .text) codes m).Means v) :
    ReadsValue v := by
  intro f placed rest next fuel same ahead _ enough
  rw [tokens, List.map_eq_singleton_iff] at same
  obtain ⟨⟨token, start, stop⟩, rfl, same⟩ := same
  obtain rfl : token = _ := same
  obtain ⟨fuel, rfl⟩ : ∃ k, fuel = k + 2 := ⟨fuel - 2, by simp at enough; omega⟩
  exact ⟨_, readNode_scalar ahead, means start⟩

theorem chars_codesOf (cs : List Char) : (codesOf cs).map Char.ofNat = cs := by
  simp [codesOf, Function.comp_def]

theorem readsValue_text (s : String) : ReadsValue (.text s) := by
  refine readsValue_scalar (by rw [valueTokens]) fun m => ?_
  have tag : (if fitsPlain s.toList then Tag.ofPlain ((codesOf s.toList).map Char.ofNat)
  else .text) = .text := by
    split
    · rename_i plain
      rw [chars_codesOf, (fitsPlain_of plain).tag]
    · rfl
  rw [tag]
  exact Node.means_of_scalarValue (Node.scalarValue_text s)

theorem valueTokens_null : valueTokens .null = [wordToken "null"] := by
  simp [valueTokens]

theorem readsValue_null : ReadsValue .null := by
  refine readsValue_scalar valueTokens_null fun m => ?_
  have tag : Tag.ofPlain "null".toList = .null := by decide
  rw [if_pos rfl, chars_codesOf, tag]
  exact Node.means_null _

theorem readsValue_bool (b : Bool) : ReadsValue (.bool b) := by
  cases b with
  | true =>
      refine readsValue_scalar (by rw [valueTokens]; rfl) fun m => ?_
      have tag : Tag.ofPlain "true".toList = .bool := by decide
      rw [if_pos rfl, chars_codesOf, tag]
      exact Node.means_bool (by decide)
  | false =>
      refine readsValue_scalar (by rw [valueTokens]; rfl) fun m => ?_
      have tag : Tag.ofPlain "false".toList = .bool := by decide
      rw [if_pos rfl, chars_codesOf, tag]
      exact Node.means_bool (by decide)

end Values

/-! ## Collections -/

/-- The items of a list behind a name; they end where no further item begins. -/
theorem exists_readBareItems {items : List Value}
    (each : ∀ v ∈ items, ∃ entries, v = .object entries ∧ ReadsRecord entries) {f : Feed}
    {placed rest : List Placed} {next : Placed} {fuel : Nat}
    (same : placed.map Placed.token = itemTokens items)
    (ahead : f.tokens = placed ++ next :: rest) (ends : next.kind ≠ .blockEntry) (some : 0 < fuel)
    (enough : 4 * placed.length ≤ fuel + 2) :
    ∃ nodes, readBareItems fuel f = .ok (nodes, { f with tokens := next :: rest }) ∧
      List.Forall₂ Node.Means nodes items := by
  induction items generalizing f placed fuel with
  | nil =>
      obtain rfl : placed = [] := by simpa [itemTokens] using same
      obtain ⟨fuel, rfl⟩ : ∃ k, fuel = k + 1 := ⟨fuel - 1, by omega⟩
      refine ⟨[], ?_, .nil⟩
      simp only [readBareItems, Feed.peek_eq ahead, bind, Except.bind, ends, if_false]
      rw [← show f.tokens = next :: rest from ahead]
  | cons v items ih =>
      rw [itemTokens] at same
      obtain ⟨dash, placed, rfl, isDash, same⟩ := List.map_eq_cons_iff.mp same
      obtain ⟨here, later, rfl, ofItem, ofRest⟩ := List.map_eq_append_iff.mp same
      rw [List.cons_append, List.append_assoc] at ahead
      rw [List.length_cons, List.length_append] at enough
      obtain ⟨fuel, rfl⟩ : ∃ k, fuel = k + 2 := ⟨fuel - 2, by omega⟩
      obtain ⟨entries, rfl, reads⟩ := each v List.mem_cons_self
      obtain ⟨t, more, begins, opens⟩ : ∃ t more, here = t :: more ∧
          t.token = .blockMappingStart := by
        rw [valueTokens] at ofItem
        obtain ⟨t, more, begins, token, -⟩ := List.map_eq_cons_iff.mp ofItem
        exact ⟨t, more, begins, token⟩
      obtain ⟨node, item, means⟩ :=
        @reads { f with tokens := here ++ (later ++ next :: rest) } here
          (later ++ next :: rest) fuel .block ofItem rfl (by decide) (by omega)
      obtain ⟨nodes, items, meant⟩ :=
        @ih (fun w member => each w (List.mem_cons_of_mem _ member))
          { f with tokens := later ++ next :: rest } later (fuel + 1) ofRest rfl
          (by omega) (by omega)
      have present : [TokenKind.blockEntry, .key, .value, .blockEnd].contains t.kind = false := by
        rw [Placed.kind, opens]
        rfl
      rw [← readMember_eq (congrArg (· ++ _) begins) present] at item
      exact ⟨node :: nodes, readBareItems_item ahead (congrArg Token.kind isDash) item items,
        .cons means meant⟩

/-- A name is read as a text. -/
theorem readMember_name {name : String} (isName : isPlainName name.toList = true) {f : Feed}
    {t : Placed} {rest : List Placed} (fuel : Nat) (m : Mark) (ahead : f.tokens = t :: rest)
    (token : t.token = .scalar (codesOf name.toList) true) :
    readMember (fuel + 3) .behindName [.key, .value, .blockEnd] m f =
      .ok (.scalar .text (codesOf name.toList) t.start, { f with tokens := rest }) := by
  obtain ⟨found, start, stop⟩ := t
  obtain rfl : found = _ := token
  rw [readMember_eq ahead rfl, readNode_scalar ahead, if_pos rfl, chars_codesOf,
    (fitsPlain_of (fitsPlain_of_isPlainName isName)).tag]

/-- The colon and the value behind a name, whatever follows but a further item. -/
theorem exists_readValue {v : Value} (reads : ReadsValue v) {f : Feed} {colon next : Placed}
    {here rest : List Placed} {fuel : Nat} (isColon : colon.token = .value)
    (same : here.map Placed.token = valueTokens v)
    (ahead : f.tokens = colon :: (here ++ next :: rest)) (other : next.kind ≠ .blockEntry)
    (enough : 4 * here.length ≤ fuel) :
    ∃ n, readValue (fuel + 2) .behindName [.key, .value, .blockEnd] f =
      .ok (n, { f with tokens := next :: rest }) ∧
      n.Means v := by
  obtain ⟨first, more, tokens, present⟩ := exists_valueTokens v
  rw [tokens] at same
  obtain ⟨t, others, rfl, isFirst, -⟩ := List.map_eq_cons_iff.mp same
  rw [← tokens] at same
  obtain ⟨n, read, means⟩ :=
    @reads { f with tokens := t :: others ++ next :: rest }
      (t :: others) rest next fuel same rfl other enough
  refine ⟨n, ?_, means⟩
  rw [readValue_eq ahead (congrArg Token.kind isColon),
    readMember_eq rfl (by rw [Placed.kind, isFirst]; exact present)]
  exact read

/-- The entries of an object up to their end. -/
theorem exists_readEntries {entries : Entries}
    (names : ∀ entry ∈ entries, isPlainName entry.1.toList = true)
    (each : ∀ entry ∈ entries, ReadsValue entry.2) {f : Feed} {placed rest : List Placed}
    {close : Placed} {fuel : Nat} {start : Mark}
    (same : placed.map Placed.token = entryTokens entries)
    (ahead : f.tokens = placed ++ close :: rest) (ends : close.kind = .blockEnd)
    (enough : 4 * placed.length < fuel) :
    ∃ nodes, readEntries fuel start f = .ok (nodes, { f with tokens := rest }) ∧
      List.Forall₂ Node.EntryMeans nodes entries := by
  induction entries generalizing f placed fuel with
  | nil =>
      obtain rfl : placed = [] := by simpa [entryTokens] using same
      obtain ⟨fuel, rfl⟩ : ∃ k, fuel = k + 1 := ⟨fuel - 1, by omega⟩
      exact ⟨[], readEntries_end ahead ends, .nil⟩
  | cons entry entries ih =>
      obtain ⟨name, v⟩ := entry
      rw [entryTokens] at same
      obtain ⟨key, placed, rfl, isKey, same⟩ := List.map_eq_cons_iff.mp same
      obtain ⟨word, placed, rfl, isWord, same⟩ := List.map_eq_cons_iff.mp same
      obtain ⟨colon, placed, rfl, isColon, same⟩ := List.map_eq_cons_iff.mp same
      obtain ⟨here, later, rfl, ofValue, ofRest⟩ := List.map_eq_append_iff.mp same
      simp only [List.cons_append, List.append_assoc] at ahead
      simp only [List.length_cons, List.length_append] at enough
      obtain ⟨fuel, rfl⟩ : ∃ k, fuel = k + 4 := ⟨fuel - 4, by omega⟩
      -- What follows the value is the next name, or the end of the object.
      obtain ⟨next, after, follows, other⟩ : ∃ next after,
          later ++ close :: rest = next :: after ∧ next.kind ≠ .blockEntry := by
        cases entries with
        | nil =>
            obtain rfl : later = [] := by simpa [entryTokens] using ofRest
            exact ⟨close, rest, rfl, by rw [ends]; decide⟩
        | cons following _ =>
            rw [entryTokens] at ofRest
            obtain ⟨next, more, rfl, isNext, -⟩ := List.map_eq_cons_iff.mp ofRest
            exact ⟨next, more ++ close :: rest, rfl, by rw [Placed.kind, isNext]; decide⟩
      have first :=
        @readMember_name name (names (name, v) List.mem_cons_self)
          { f with tokens := word :: colon :: (here ++ (later ++ close :: rest)) } word _ fuel
          key.stop rfl isWord
      obtain ⟨n, second, means⟩ :=
        @exists_readValue v (each (name, v) List.mem_cons_self)
          { f with tokens := colon :: (here ++ (later ++ close :: rest)) } colon next here after
          (fuel + 1) isColon ofValue (by rw [follows]) other (by omega)
      rw [← follows] at second
      obtain ⟨nodes, others, meant⟩ :=
        @ih (fun e member => names e (List.mem_cons_of_mem _ member))
          (fun e member => each e (List.mem_cons_of_mem _ member))
          { f with tokens := later ++ close :: rest } later (fuel + 3) ofRest rfl (by omega)
      exact ⟨_, readEntries_entry ahead (congrArg Token.kind isKey) first second others,
        .cons ⟨⟨_, rfl⟩, means⟩ meant⟩

theorem readsRecord_object {entries : Entries} (distinct : (entries.map Prod.fst).Nodup)
    (names : ∀ entry ∈ entries, isPlainName entry.1.toList = true)
    (each : ∀ entry ∈ entries, ReadsValue entry.2) :
    ReadsRecord entries := by
  intro f placed rest fuel place same ahead inBlock enough
  rw [valueTokens] at same
  obtain ⟨⟨token, start, stop⟩, placed, rfl, opens, inner⟩ := List.map_eq_cons_iff.mp same
  obtain rfl : token = _ := opens
  obtain ⟨within, ends, rfl, ofEntries, closes⟩ := List.map_eq_append_iff.mp inner
  obtain ⟨close, rfl, isEnd⟩ := List.map_eq_singleton_iff.mp closes
  simp only [List.cons_append, List.append_assoc, List.nil_append] at ahead
  simp only [List.length_cons, List.length_append, List.length_nil] at enough
  obtain ⟨fuel, rfl⟩ : ∃ k, fuel = k + 2 := ⟨fuel - 2, by omega⟩
  obtain ⟨nodes, read, meant⟩ :=
    @exists_readEntries entries names each
      { f with tokens := within ++ close :: rest } within rest close fuel start ofEntries rfl
      (congrArg Token.kind isEnd) (by omega)
  exact ⟨_, readNode_mapping ahead inBlock read, Node.means_object distinct meant⟩

theorem ReadsRecord.readsValue {entries : Entries} (reads : ReadsRecord entries) :
    ReadsValue (.object entries) := by
  intro f placed rest next fuel same ahead _ enough
  exact reads same ahead (by decide) enough

theorem readsValue_list {items : List Value}
    (each : ∀ v ∈ items, ∃ entries, v = .object entries ∧ ReadsRecord entries) :
    ReadsValue (.list items) := by
  intro f placed rest next fuel same ahead other enough
  rcases items with _ | ⟨v, items⟩
  · rw [valueTokens] at same
    obtain ⟨⟨token, start, stop⟩, placed, rfl, opens, inner⟩ := List.map_eq_cons_iff.mp same
    obtain rfl : token = _ := opens
    obtain ⟨close, rfl, closes⟩ := List.map_eq_singleton_iff.mp inner
    simp only [List.length_cons, List.length_nil] at enough
    obtain ⟨fuel, rfl⟩ : ∃ k, fuel = k + 3 := ⟨fuel - 3, by omega⟩
    exact ⟨_, readNode_brackets ahead (congrArg Token.kind closes), Node.means_list .nil⟩
  · rw [show valueTokens (.list (v :: items)) =
      itemTokens (v :: items) by rw [valueTokens, itemTokens]] at same
    obtain ⟨⟨token, start, stop⟩, more, begins, dash⟩ : ∃ t more, placed = t :: more ∧
        t.token = .blockEntry := by
      rw [itemTokens] at same
      obtain ⟨t, more, begins, token, -⟩ := List.map_eq_cons_iff.mp same
      exact ⟨t, more, begins, token⟩
    obtain rfl : token = _ := dash
    have long : 0 < placed.length := by
      rw [begins]
      exact Nat.succ_pos _
    obtain ⟨fuel, rfl⟩ : ∃ k, fuel = k + 2 := ⟨fuel - 2, by omega⟩
    obtain ⟨nodes, read, meant⟩ := exists_readBareItems each same ahead other (by omega) enough
    exact ⟨_, readNode_bareItems (ahead.trans (congrArg (· ++ _) begins)) read,
      Node.means_list meant⟩

/-! ## All values -/

/-- What is shown of each value: its node is read behind a name, and if it is an object also as an
item. -/
theorem Faithful.reads {indent : Nat} {v : Value} (faithful : Faithful indent v) :
    ReadsValue v ∧ ∀ entries, v = .object entries → ReadsRecord entries := by
  induction faithful with
  | null => exact ⟨readsValue_null, fun _ same => nomatch same⟩
  | bool b => exact ⟨readsValue_bool b, fun _ same => nomatch same⟩
  | text _ => exact ⟨readsValue_text _, fun _ same => nomatch same⟩
  | list records each ih =>
      refine ⟨readsValue_list fun v member => ?_, fun _ same => nomatch same⟩
      obtain ⟨entries, same⟩ := records v member
      exact ⟨entries, same, (ih v member).2 entries same⟩
  | @object _ entries _ distinct names _ ih =>
      have reads : ReadsRecord entries :=
        readsRecord_object distinct names fun entry member => (ih entry member).1
      exact ⟨reads.readsValue, fun _ same => Value.object.inj same ▸ reads⟩

/-- The one node of a document that is an object. -/
theorem exists_ofTokens {entries : Entries} (reads : ReadsRecord entries) {placed : List Placed}
    (same : placed.map Placed.token = valueTokens (.object entries) ++ [.streamEnd]) :
    ∃ root, Node.ofTokens placed none = .ok (some root) ∧ root.Means (.object entries) := by
  obtain ⟨here, last, rfl, ofObject, ends⟩ := List.map_eq_append_iff.mp same
  obtain ⟨last, rfl, isEnd⟩ := List.map_eq_singleton_iff.mp ends
  obtain ⟨first, more, rfl, isFirst⟩ : ∃ t more, here = t :: more ∧
      t.token = .blockMappingStart := by
    rw [valueTokens] at ofObject
    obtain ⟨t, more, begins, token, -⟩ := List.map_eq_cons_iff.mp ofObject
    exact ⟨t, more, begins, token⟩
  obtain ⟨root, read, means⟩ :=
    @reads ⟨first :: more ++ [last], none, commonHandles, []⟩ (first :: more) [last]
      (4 * (first :: more ++ [last]).length + 4) .block ofObject rfl (by decide) (by simp; omega)
  refine ⟨root, ?_, means⟩
  have opens : first.kind = .blockMappingStart := congrArg Token.kind isFirst
  have closes : last.kind = .streamEnd := congrArg Token.kind isEnd
  have document : readDocument (4 * (first :: more ++ [last]).length + 4)
      ⟨first :: more ++ [last], none, commonHandles, []⟩ =
      .ok (root, ⟨[last], none, commonHandles, []⟩) := by
    rw [readDocument, Feed.peek_eq (t := first) rfl]
    simp only [bind, Except.bind, opens]
    exact read
  rw [Node.ofTokens, Feed.peek_eq (t := first) rfl]
  have behind : Feed.peek ⟨[last], none, commonHandles, []⟩ = .ok last := rfl
  simp only [bind, Except.bind, opens, document, skipDocumentEnds, closes, reduceCtorEq, if_false,
    behind, if_true]

/-- The text of an object has the value that it was written for. -/
theorem valueOf_document {entries : Entries} (full : entries ≠ [])
    (distinct : (entries.map Prod.fst).Nodup)
    (names : ∀ entry ∈ entries, isPlainName entry.1.toList = true)
    (each : ∀ entry ∈ entries, Faithful 0 entry.2) :
    valueOf (documentChars (.object entries) ++ ['\n']) = .ok (.object entries) := by
  obtain ⟨placed, tokens, same⟩ := tokensOf_document full names each
  have reads : ReadsRecord entries :=
    readsRecord_object distinct names fun entry member => (each entry member).reads.1
  obtain ⟨root, read, means⟩ := exists_ofTokens reads (same.trans (by simp [valueTokens]))
  simp only [valueOf, tokens, read, bind, Except.bind]
  exact means.value

end SchemaBaseline.Yaml
