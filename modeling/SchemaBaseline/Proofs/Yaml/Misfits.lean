import SchemaBaseline.Proofs.Yaml.Stops
import SchemaBaseline.Yaml.Reader

/-!
# YAML texts that write what is no value

A YAML text is read or is malformed, unless it writes an escape with the code of no character, or
a node whose tag asks for a value that its text does not spell (`writesNoValue_of_read`). The
first is found when the text is cut into tokens, and the readers of nodes hand it on: what is
shown of them is `Hands`. The second is found when a node is given its value: each value is that
of a part of the document, and what is shown of it is `Blames`.
-/

namespace SchemaBaseline.Yaml

/-! ## Nodes -/

/-- What the readers of nodes may stop for, if `ending` is what stops the tokens. -/
def Announced (ending : Option Stop) : Stop → Prop
  | .misread _ => True
  | .unfit misfit => ending = some (.unfit misfit)

/-- A reader of nodes hands on why there are no further tokens. -/
abbrev Hands {α : Type} (ending : Option Stop) : Except Stop (α × Feed) → Prop :=
  Gives (Announced ending) fun found => found.2.stop = ending

section Nodes

variable {ending : Option Stop} {f : Feed}

theorem announced_of_peek (same : f.stop = ending) :
    Gives (Announced ending) (fun _ => True) f.peek := by
  unfold Feed.peek
  split
  · exact trivial
  · rename_i stop _ stops
    rw [stops] at same
    cases stop with
    | misread _ => exact trivial
    | unfit misfit => exact same.symm
  · exact trivial

theorem stop_setAnchor (f : Feed) (anchor : Option String) (a : Anchored) :
    (f.setAnchor anchor a).stop = f.stop := by
  cases anchor <;> rfl

theorem stop_finish (anchor : Option String) (n : Node) (f : Feed) :
    (finish anchor n f).2.stop = f.stop := by
  cases anchor <;> rfl

theorem announced_of_tagName (ending : Option Stop) (f : Feed) (start tagMark : Mark)
    (handle : Option String) (suffix : String) :
    Gives (Announced ending) (fun _ => True) (tagName f start tagMark handle suffix) := by
  unfold tagName
  split
  · exact trivial
  · split <;> exact trivial

theorem hands_readProperties (same : f.stop = ending) : Hands ending (readProperties f) := by
  unfold readProperties
  refine (announced_of_peek same).bind fun first _ => ?_
  split
  · have ahead : f.advance.stop = ending := same
    refine (announced_of_peek ahead).bind fun second _ => ?_
    split
    · exact (announced_of_tagName ending _ _ _ _ _).bind fun _ _ => same
    · exact same
  · have ahead : f.advance.stop = ending := same
    refine (announced_of_peek ahead).bind fun second _ => ?_
    split
    · exact (announced_of_tagName ending _ _ _ _ _).bind fun _ _ => same
    · exact (announced_of_tagName ending _ _ _ _ _).bind fun _ _ => same
  · exact same

theorem announced_of_checkAnchor (ending : Option Stop) (f : Feed) (anchor : Option String)
    (mark : Mark) :
    Gives (Announced ending) (fun _ => True) (checkAnchor f anchor mark) := by
  unfold checkAnchor
  split
  · exact trivial
  · split <;> exact trivial

theorem hands_readAlias (name : String) (mark : Mark) (same : f.stop = ending) :
    Hands ending (readAlias f name mark) := by
  unfold readAlias
  split
  · exact trivial
  · exact same
  · exact same

/-- All readers of nodes hand on why there are no further tokens, if none of them recurs more
often than `fuel` says. -/
structure AllHand (ending : Option Stop) (fuel : Nat) : Prop where
  node : ∀ place f, f.stop = ending → Hands ending (readNode fuel place f)
  content : ∀ place p mark t f, f.stop = ending → Hands ending (readContent fuel place p mark t f)
  member : ∀ place closing mark f, f.stop = ending →
    Hands ending (readMember fuel place closing mark f)
  value : ∀ place closing f, f.stop = ending → Hands ending (readValue fuel place closing f)
  items : ∀ start f, f.stop = ending → Hands ending (readItems fuel start f)
  bareItems : ∀ f, f.stop = ending → Hands ending (readBareItems fuel f)
  entries : ∀ start f, f.stop = ending → Hands ending (readEntries fuel start f)
  flowItems : ∀ start isFirst f, f.stop = ending →
    Hands ending (readFlowItems fuel start isFirst f)
  flowEntries : ∀ start isFirst f, f.stop = ending →
    Hands ending (readFlowEntries fuel start isFirst f)

namespace AllHand

variable {fuel : Nat}

theorem readNode (all : AllHand ending fuel) (place : Place) (same : f.stop = ending) :
    Hands ending (readNode (fuel + 1) place f) := by
  rw [Yaml.readNode]
  refine (announced_of_peek same).bind fun first _ => ?_
  split
  · exact hands_readAlias _ _ same
  · refine (hands_readProperties same).bind fun found same => ?_
    exact (announced_of_peek same).bind fun t _ => all.content _ _ _ _ _ same

theorem readContent (all : AllHand ending fuel) (place : Place) (p : Properties) (mark : Mark)
    (t : Placed) (same : f.stop = ending) :
    Hands ending (readContent (fuel + 1) place p mark t f) := by
  have checked := announced_of_checkAnchor ending f p.anchor mark
  have opens : ∀ kind, Gives (Announced ending) (fun g : Feed => g.stop = ending)
      ((checkAnchor f p.anchor mark).map fun _ => f.setAnchor p.anchor (.unfinished kind mark)) :=
    fun kind => checked.map fun _ _ => (stop_setAnchor _ _ _).trans same
  have finishes :
      ∀ (n : Node) (g : Feed), g.stop = ending → Hands ending (.ok (finish p.anchor n g)) :=
    fun n g same => (stop_finish _ _ _).trans same
  rw [Yaml.readContent.eq_def]
  dsimp only
  split
  · refine (opens .sequence).bind fun g same => ?_
    exact (all.bareItems _ same).bind fun found same => finishes _ _ same
  · exact checked.bind fun _ _ => finishes _ _ same
  · refine (opens .sequence).bind fun g same => ?_
    exact (all.flowItems _ _ g.advance same).bind fun found same => finishes _ _ same
  · refine (opens .mapping).bind fun g same => ?_
    exact (all.flowEntries _ _ g.advance same).bind fun found same => finishes _ _ same
  · split
    · refine (opens .sequence).bind fun g same => ?_
      exact (all.items _ g.advance same).bind fun found same => finishes _ _ same
    split
    · refine (opens .mapping).bind fun g same => ?_
      exact (all.entries _ g.advance same).bind fun found same => finishes _ _ same
    split
    · exact checked.bind fun _ _ => finishes _ _ same
    · exact trivial

theorem readMember (all : AllHand ending fuel) (place : Place) (closing : List TokenKind)
    (mark : Mark) (same : f.stop = ending) :
    Hands ending (readMember (fuel + 1) place closing mark f) := by
  rw [Yaml.readMember]
  refine (announced_of_peek same).bind fun t _ => ?_
  split
  · exact same
  · exact all.node _ _ same

theorem readValue (all : AllHand ending fuel) (place : Place) (closing : List TokenKind)
    (same : f.stop = ending) :
    Hands ending (readValue (fuel + 1) place closing f) := by
  rw [Yaml.readValue]
  refine (announced_of_peek same).bind fun t _ => ?_
  split
  · exact all.member _ _ _ _ same
  · exact same

theorem readItems (all : AllHand ending fuel) (start : Mark) (same : f.stop = ending) :
    Hands ending (readItems (fuel + 1) start f) := by
  rw [Yaml.readItems]
  refine (announced_of_peek same).bind fun t _ => ?_
  split
  · refine (all.member _ _ _ f.advance same).bind fun item same => ?_
    exact (all.items _ _ same).bind fun items same => same
  · exact same
  · exact trivial

theorem readBareItems (all : AllHand ending fuel) (same : f.stop = ending) :
    Hands ending (readBareItems (fuel + 1) f) := by
  rw [Yaml.readBareItems]
  refine (announced_of_peek same).bind fun t _ => ?_
  split
  · refine (all.member _ _ _ f.advance same).bind fun item same => ?_
    exact (all.bareItems _ same).bind fun items same => same
  · exact same

theorem readEntries (all : AllHand ending fuel) (start : Mark) (same : f.stop = ending) :
    Hands ending (readEntries (fuel + 1) start f) := by
  rw [Yaml.readEntries]
  refine (announced_of_peek same).bind fun t _ => ?_
  split
  · dsimp only
    refine (all.member _ _ _ f.advance same).bind fun name same => ?_
    refine (all.value _ _ _ same).bind fun v same => ?_
    exact (all.entries _ _ same).bind fun entries same => same
  · exact same
  · exact trivial

theorem stop_ite_advance {p : Prop} [Decidable p] (same : f.stop = ending) :
    (if p then f else f.advance).stop = ending := by
  split <;> exact same

theorem readFlowItems (all : AllHand ending fuel) (start : Mark) (isFirst : Bool)
    (same : f.stop = ending) :
    Hands ending (readFlowItems (fuel + 1) start isFirst f) := by
  rw [Yaml.readFlowItems]
  refine (announced_of_peek same).bind fun t _ => ?_
  split
  · exact same
  split
  · exact trivial
  have behind : (if isFirst = true then f else f.advance).stop = ending := stop_ite_advance same
  generalize (if isFirst = true then f else f.advance) = f at behind ⊢
  dsimp only
  refine (announced_of_peek behind).bind fun t _ => ?_
  split
  · exact behind
  · refine (all.member _ _ _ f.advance behind).bind fun name same => ?_
    refine (all.value _ _ _ same).bind fun v same => ?_
    exact (all.flowItems _ _ _ same).bind fun items same => same
  · refine (all.node _ _ behind).bind fun item same => ?_
    exact (all.flowItems _ _ _ same).bind fun items same => same

theorem readFlowEntries (all : AllHand ending fuel) (start : Mark) (isFirst : Bool)
    (same : f.stop = ending) :
    Hands ending (readFlowEntries (fuel + 1) start isFirst f) := by
  rw [Yaml.readFlowEntries]
  refine (announced_of_peek same).bind fun t _ => ?_
  split
  · exact same
  split
  · exact trivial
  have behind : (if isFirst = true then f else f.advance).stop = ending := stop_ite_advance same
  generalize (if isFirst = true then f else f.advance) = f at behind ⊢
  dsimp only
  refine (announced_of_peek behind).bind fun t _ => ?_
  split
  · exact behind
  · refine (all.member _ _ _ f.advance behind).bind fun name same => ?_
    refine (all.value _ _ _ same).bind fun v same => ?_
    exact (all.flowEntries _ _ _ same).bind fun entries same => same
  · refine (all.node _ _ behind).bind fun name same => ?_
    refine (announced_of_peek same).bind fun t _ => ?_
    exact (all.flowEntries _ _ _ same).bind fun entries same => same

end AllHand

theorem allHand (ending : Option Stop) (fuel : Nat) : AllHand ending fuel := by
  induction fuel with
  | zero =>
      exact ⟨fun _ _ _ => trivial, fun _ _ _ _ _ _ => trivial, fun _ _ _ _ _ => trivial,
        fun _ _ _ _ => trivial, fun _ _ _ => trivial, fun _ _ => trivial, fun _ _ _ =>
        trivial, fun _ _ _ _ => trivial, fun _ _ _ _ => trivial⟩
  | succ fuel all =>
      exact ⟨fun _ _ => all.readNode _, fun _ _ _ _ _ => all.readContent _ _ _ _,
        fun _ _ _ _ => all.readMember _ _ _, fun _ _ _ => all.readValue _ _, fun _ _ =>
        all.readItems _, fun _ => all.readBareItems, fun _ _ => all.readEntries _, fun _ _ _ =>
        all.readFlowItems _ _, fun _ _ _ => all.readFlowEntries _ _⟩

/-! ### Documents -/

theorem hands_readDirectives (tokens : List Placed) (same : f.stop = ending) (hasVersion : Bool)
    (handles : List (String × String)) :
    Hands ending (readDirectives tokens f hasVersion handles) := by
  fun_induction readDirectives tokens f hasVersion handles with
  | case1 => exact trivial
  | case2 => exact trivial
  | case3 _ _ _ _ _ _ _ _ _ ih => exact ih same
  | case4 => exact trivial
  | case5 _ _ _ _ _ _ _ _ _ ih => exact ih same
  | case6 _ _ _ _ _ _ ih => exact ih same
  | case7 => exact same

theorem announced_of_readDocumentStart (same : f.stop = ending) :
    Gives (Announced ending) (fun g => g.stop = ending) (readDocumentStart f) := by
  unfold readDocumentStart
  refine (hands_readDirectives _ same _ _).bind fun found same => ?_
  refine (announced_of_peek same).bind fun t _ => ?_
  split
  · exact same
  · exact trivial

theorem hands_readDocument (fuel : Nat) (same : f.stop = ending) :
    Hands ending (readDocument fuel f) := by
  unfold readDocument
  refine (announced_of_peek same).bind fun t _ => ?_
  split
  · refine (announced_of_readDocumentStart same).bind fun g same => ?_
    exact (announced_of_peek same).bind fun t _ => (allHand ending fuel).member _ _ _ _ same
  · exact (allHand ending fuel).node _ _ same

theorem stop_skipDocumentEnds (tokens : List Placed) (same : f.stop = ending) :
    (skipDocumentEnds tokens f).stop = ending := by
  induction tokens generalizing f with
  | nil => exact same
  | cons t tokens ih =>
      rw [skipDocumentEnds]
      split
      · exact ih same
      · exact same

theorem announced_of_ofTokens (tokens : List Placed) (ending : Option Stop) :
    Gives (Announced ending) (fun _ => True) (Node.ofTokens tokens ending) := by
  have same : (Feed.mk tokens ending commonHandles []).stop = ending := rfl
  unfold Node.ofTokens
  refine (announced_of_peek same).bind fun t _ => ?_
  split
  · exact trivial
  refine (hands_readDocument _ same).bind fun found same => ?_
  have behind := stop_skipDocumentEnds found.2.tokens same
  refine (announced_of_peek behind).bind fun t _ => ?_
  split
  · exact trivial
  · exact (announced_of_readDocumentStart behind).bind fun _ _ => trivial

end Nodes

/-! ## Values -/

namespace Node

/-- A node belongs to the one that begins a document. -/
inductive Part (root : Node) : Node → Prop
  | root : Part root root
  | item {tag : Tag} {items : List Node} {mark : Mark} {n : Node}
    (whole : Part root (.sequence tag items mark)) (member : n ∈ items) :
      Part root n
  | name {tag : Tag} {entries : List (Node × Node)} {mark : Mark} {name v : Node}
    (whole : Part root (.mapping tag entries mark)) (member : (name, v) ∈ entries) :
    Part root name
  | value {tag : Tag} {entries : List (Node × Node)} {mark : Mark} {name v : Node}
    (whole : Part root (.mapping tag entries mark)) (member : (name, v) ∈ entries) : Part root v

theorem Part.entries {root : Node} {tag : Tag} {entries : List (Node × Node)} {mark : Mark}
    (whole : Part root (.mapping tag entries mark)) :
    ∀ entry ∈ entries, Part root entry.1 ∧ Part root entry.2 :=
  fun _ member => ⟨.name whole member, .value whole member⟩

/-- The tag of a node asks for a value that its text does not spell. -/
inductive SpellsNoValue (n : Node) : Misfit → Prop
  | truth {codes : List Nat} {misfit : Misfit} (tag : n.tag = .bool)
    (text : n.scalarCodes = .ok codes)
    (none : truthValue (charsOf codes) = .error (.unfit misfit)) : SpellsNoValue n misfit
  | integer {codes : List Nat} {misfit : Misfit} (tag : n.tag = .int)
    (text : n.scalarCodes = .ok codes)
    (none : integerValue (charsOf codes) = .error (.unfit misfit)) : SpellsNoValue n misfit
  | number {codes : List Nat} {misfit : Misfit} (tag : n.tag = .float)
    (text : n.scalarCodes = .ok codes)
    (none : numberValue (charsOf codes) = .error (.unfit misfit)) : SpellsNoValue n misfit
  | stamp {codes : List Nat} {misfit : Misfit} (tag : n.tag = .timestamp)
    (text : n.scalarCodes = .ok codes)
    (none : stampValue (charsOf codes) = .error (.unfit misfit)) : SpellsNoValue n misfit
  | stampCollection {codes : List Nat} (tag : n.tag = .timestamp)
    (text : n.scalarCodes = .ok codes) (noScalar : n.kind ≠ .scalar) :
      SpellsNoValue n .stampCollection

/-- What may be wrong with the value of a document. -/
def Blamed (root : Node) : Stop → Prop
  | .misread _ => True
  | .unfit misfit => ∃ n, Part root n ∧ SpellsNoValue n misfit

/-- A document has a value, or one of its parts is to blame. -/
abbrev Blames {α : Type} (root : Node) : Except Stop α → Prop :=
  Gives (Blamed root) fun _ => True

/-! ### Scalars -/

def IsMisread : Stop → Prop
  | .misread _ => True
  | .unfit _ => False

mutual

theorem misread_of_scalarCodes : ∀ n : Node, Gives IsMisread (fun _ => True) n.scalarCodes
  | .scalar .. => trivial
  | .mapping _ entries m => misread_of_defaultCodes m entries
  | .sequence .. => trivial
  | .enclosing .. => trivial

theorem misread_of_defaultCodes (m : Mark) :
    ∀ entries : List (Node × Node), Gives IsMisread (fun _ => True) (defaultCodes m entries)
  | [] => trivial
  | (name, v) :: rest => by
      rw [defaultCodes]
      split
      · exact misread_of_scalarCodes v
      · exact misread_of_defaultCodes m rest

end

section Values

variable {root n : Node}

theorem blames_of_misread {α : Type} {good : α → Prop} {r : Except Stop α}
    (misread : Gives IsMisread good r) :
    Gives (Blamed root) good r := by
  refine misread.imp (fun e isMisread => ?_) fun _ holds => holds
  cases e with
  | misread _ => exact trivial
  | unfit _ => exact isMisread.elim

/-- The text of a node is there, or the document is misread. -/
theorem blames_of_codes {α : Type} {meaning : List Nat → Except Stop α}
    (each : ∀ codes, n.scalarCodes = .ok codes → Blames root (meaning codes)) :
    Blames root (do let codes ← n.scalarCodes; meaning codes) := by
  have misread := misread_of_scalarCodes n
  cases text : n.scalarCodes with
  | error e =>
      rw [text] at misread
      exact blames_of_misread misread
  | ok codes => exact each codes text

theorem blames_of_meaning {α β : Type} {r : Except Stop α} {f : α → β} (part : Part root n)
    (spells : ∀ misfit, r = .error (.unfit misfit) → SpellsNoValue n misfit) :
    Blames root (r.map f) := by
  cases result : r with
  | ok _ => exact trivial
  | error e =>
      cases e with
      | misread _ => exact trivial
      | unfit misfit => exact ⟨n, part, spells misfit result⟩

theorem misread_of_binaryValue (codes : List Nat) (mark : Mark) :
    Gives IsMisread (fun _ => True) (binaryValue codes mark) := by
  unfold binaryValue
  split
  · exact trivial
  · dsimp only
    split
    · exact trivial
    split <;> exact trivial

theorem blames_of_scalarValue (part : Part root n) {r : Except Stop Value}
    (value : n.scalarValue = some r) : Blames root r := by
  unfold scalarValue at value
  split at value
  case h_1 =>
    cases value
    exact blames_of_codes fun _ _ => trivial
  case h_2 tag =>
    cases value
    exact blames_of_codes fun codes text => blames_of_meaning part fun misfit none =>
      .truth tag text none
  case h_3 tag =>
    cases value
    exact blames_of_codes fun codes text => blames_of_meaning part fun misfit none =>
      .integer tag text none
  case h_4 tag =>
    cases value
    exact blames_of_codes fun codes text => blames_of_meaning part fun misfit none =>
      .number tag text none
  case h_5 =>
    cases value
    exact blames_of_misread ((misread_of_scalarCodes n).map fun _ _ => trivial)
  case h_6 =>
    cases value
    exact blames_of_codes fun codes _ =>
      blames_of_misread ((misread_of_binaryValue codes _).map fun _ _ => trivial)
  case h_7 tag =>
    cases value
    refine blames_of_codes fun codes text => ?_
    split
    · exact blames_of_meaning part fun misfit none => .stamp tag text none
    · rename_i noScalar
      refine ⟨n, part, .stampCollection tag text ?_⟩
      cases n with
      | scalar => exact (noScalar _ _ _ rfl).elim
      | sequence => exact nofun
      | mapping => exact nofun
      | enclosing => cases tag
  case h_8 => cases value; exact trivial
  case h_9 => cases value; exact trivial
  case h_10 => cases value; exact trivial
  case h_11 => cases value

/-! ### Collections -/

/-- The name and the value of an entry belong to a document; the name may be read as a name. -/
def EntryOf (root : Node) (entry : Node × Node) : Prop :=
  (∃ name, Part root name ∧ entry.1 = name.asName) ∧ Part root entry.2

/-- Entries that a mapping takes over belong to the document, or the document is misread. -/
abbrev Takes (root : Node) : Except Stop (List (Node × Node)) → Prop :=
  Gives IsMisread fun entries => ∀ entry ∈ entries, EntryOf root entry

theorem entryOf_append {first second : List (Node × Node)}
    (left : ∀ entry ∈ first, EntryOf root entry) (right : ∀ entry ∈ second, EntryOf root entry) :
    ∀ entry ∈ first ++ second, EntryOf root entry :=
  List.forall_mem_append.mpr ⟨left, right⟩

mutual

theorem takes_contribution (since : Mark) :
    ∀ n : Node, Part root n → Takes root (contribution since n)
  | .mapping _ entries m, part =>
    (misread_of_merge m entries part.entries).map fun _ both =>
      entryOf_append both.1 both.2
  | .sequence _ items _, part => takes_contributions since items fun _ member => .item part member
  | .enclosing .., _ => nofun
  | .scalar .., _ => trivial

theorem takes_contributions (since : Mark) : ∀ items : List Node, (∀ n ∈ items, Part root n) →
    Takes root (contributions since items)
  | [], _ => nofun
  | .mapping _ entries m :: rest, parts =>
    (misread_of_merge m entries (parts _ List.mem_cons_self).entries).bind fun _ both =>
        (takes_contributions since rest fun n member => parts n
          (List.mem_cons_of_mem _ member)).bind fun _ others =>
          entryOf_append others (entryOf_append both.1 both.2)
  | .enclosing _ .mapping _ :: rest, parts =>
    takes_contributions since rest fun n member => parts n (List.mem_cons_of_mem _ member)
  | .enclosing _ .scalar _ :: _, _ => trivial
  | .enclosing _ .sequence _ :: _, _ => trivial
  | .scalar .. :: _, _ => trivial
  | .sequence .. :: _, _ => trivial

theorem misread_of_merge (since : Mark) : ∀ entries : List (Node × Node),
    (∀ entry ∈ entries, Part root entry.1 ∧ Part root entry.2) →
      Gives IsMisread (fun merged => (∀ entry ∈ merged.taken, EntryOf root entry) ∧
        ∀ entry ∈ merged.own, EntryOf root entry)
        (merge since entries)
  | [], _ => ⟨nofun, nofun⟩
  | (name, v) :: rest, parts => by
      have own := parts _ List.mem_cons_self
      have others :=
        misread_of_merge since rest fun entry member =>
          parts entry (List.mem_cons_of_mem _ member)
      rw [merge]
      split
      · refine (takes_contribution since v own.2).bind fun first taken => ?_
        exact others.bind fun _ both => ⟨entryOf_append taken both.1, both.2⟩
      · exact others.bind fun _ both =>
          ⟨both.1, List.forall_mem_cons.mpr ⟨⟨⟨name, own.1, rfl⟩, own.2⟩, both.2⟩⟩

end

/-- A value at a distance is there, or a part of the document is to blame. -/
abbrev BlamesAt {α : Type} (root : Node) : Except Fault α → Prop :=
  Gives (fun fault => Blamed root fault.stop) fun _ => True

theorem blamesAt_faultAt {α : Type} {good : α → Prop} {r : Except Stop α} (distance : Nat)
    (blames : Gives (Blamed root) good r) :
    Gives (fun fault => Blamed root fault.stop) good (faultAt distance r) := by
  cases r with
  | ok _ => exact blames
  | error _ => exact blames

theorem blamesAt_allOrClosest {α : Type} {rs : List (Except Fault α)}
    (each : ∀ r ∈ rs, BlamesAt root r) :
    BlamesAt root (allOrClosest rs) := by
  induction rs with
  | nil => exact trivial
  | cons first rest ih =>
      have here := each first List.mem_cons_self
      have later := ih fun r member => each r (List.mem_cons_of_mem _ member)
      rw [allOrClosest.eq_def]
      dsimp only
      split
      · exact trivial
      · exact later.error ‹_›
      · exact here
      · have further := later.error ‹_›
        show Blamed root (ite _ _ _ : Fault).stop
        split
        · exact further
        · exact here

theorem asName_cases (n : Node) : n.asName = n ∨ n.asName.tag = .text := by
  unfold asName
  split
  · exact .inr rfl
  · exact .inr rfl
  · exact .inr rfl
  · exact .inl rfl

/-- A text has a value, so reading a node as a name blames nothing else. -/
theorem blames_of_asName (part : Part root n) {r : Except Stop Value}
    (value : n.asName.scalarValue = some r) : Blames root r := by
  rcases asName_cases n with same | tag
  · rw [same] at value
    exact blames_of_scalarValue part value
  · simp only [scalarValue, tag] at value
    cases value
    exact blames_of_misread ((misread_of_scalarCodes _).map fun _ _ => trivial)

theorem blamesAt_nameValue (distance : Nat) (since : Mark) (part : Part root n) :
    BlamesAt root (nameValue distance since n.asName) := by
  unfold nameValue
  split
  · exact blamesAt_faultAt _ (blames_of_asName part ‹_›)
  · exact trivial

section Members

variable {distance : Nat} {valueOf : Node → Except Fault Value}
    (each : ∀ n, Part root n → BlamesAt root (valueOf n))

include each

theorem blamesAt_entryValues {since : Mark} {entries : List (Node × Node)}
    (parts : ∀ entry ∈ entries, Part root entry.1 ∧ Part root entry.2) :
    BlamesAt root (entryValues distance valueOf since entries) := by
  refine (blamesAt_faultAt _ (blames_of_misread (misread_of_merge since entries parts))).bind
    fun merged both => ?_
  refine blamesAt_allOrClosest fun r result => ?_
  obtain ⟨entry, member, rfl⟩ := List.mem_map.mp result
  obtain ⟨⟨name, part, same⟩, value⟩ := entryOf_append both.1 both.2 entry member
  obtain ⟨_, v⟩ := entry
  subst same
  exact (blamesAt_nameValue _ _ part).bind fun _ _ => (each v value).bind fun _ _ => trivial

theorem blamesAt_pairValue (activity : Activity) (since : Mark) (part : Part root n) :
    BlamesAt root (pairValue activity distance valueOf since n) := by
  unfold pairValue
  split
  · refine (blamesAt_allOrClosest fun r result => ?_).map fun _ _ => trivial
    simp only [List.mem_cons, List.not_mem_nil, or_false] at result
    rcases result with rfl | rfl
    · exact each _ (.name part List.mem_cons_self)
    · exact each _ (.value part List.mem_cons_self)
  · exact trivial
  · exact trivial

theorem blamesAt_collectionValue (part : Part root n) :
    BlamesAt root (collectionValue distance valueOf n) := by
  have pairs : ∀ (activity : Activity) (since : Mark) (items : List Node),
      (∀ n ∈ items, Part root n) → BlamesAt root
      (allOrClosest (items.map (pairValue activity distance valueOf since))) := by
    intro activity since items parts
    refine blamesAt_allOrClosest fun r result => ?_
    obtain ⟨item, member, rfl⟩ := List.mem_map.mp result
    exact blamesAt_pairValue each activity since (parts item member)
  unfold collectionValue
  split
  · exact (blamesAt_entryValues each part.entries).map fun _ _ => trivial
  · exact trivial
  · exact (blamesAt_entryValues each part.entries).map fun _ _ => trivial
  · exact trivial
  · exact (pairs _ _ _ fun _ member => .item part member).map fun _ _ => trivial
  · exact trivial
  · exact (pairs _ _ _ fun _ member => .item part member).map fun _ _ => trivial
  · exact trivial
  · refine (blamesAt_allOrClosest fun r result => ?_).map fun _ _ => trivial
    obtain ⟨item, member, rfl⟩ := List.mem_map.mp result
    exact each item (.item part member)
  · exact trivial
  · exact trivial

end Members

theorem blamesAt_valueAt (fuel distance : Nat) (part : Part root n) :
    BlamesAt root (valueAt fuel distance n) := by
  induction fuel generalizing distance n with
  | zero =>
      cases value : n.scalarValue with
      | none => simp only [valueAt, value, Gives]
      | some r =>
          rw [valueAt.eq_def]
          dsimp only
          rw [value]
          exact blamesAt_faultAt _ (blames_of_scalarValue part value)
  | succ fuel ih =>
      cases value : n.scalarValue with
      | none =>
          simp only [valueAt, value]
          exact blamesAt_collectionValue (fun _ part => ih _ part) part
      | some r =>
          rw [valueAt.eq_def]
          dsimp only
          rw [value]
          exact blamesAt_faultAt _ (blames_of_scalarValue part value)

/-- A document has a value, or it is misread, or one of its parts spells no value. -/
theorem blames_of_value (root : Node) : Blames root root.value := by
  have part : Part root root := .root
  have blames := blamesAt_valueAt (root.depth + 1) 0 part
  unfold value
  split
  · exact trivial
  · exact blames.error ‹_›

end Values

end Node

/-! ## Texts -/

/-- A text writes something that is no value: an escape, or a part of its document. -/
inductive WritesNoValue (text : List Char) (misfit : Misfit) : Prop
  | escape (writes : WritesNoCharacter text misfit)
  | part {root n : Node}
    (document : Node.ofTokens (tokensOf text).1 (tokensOf text).2 = .ok (some root))
    (part : Node.Part root n)
      (spells : n.SpellsNoValue misfit)

-- It is no help to compute the tokens of a text.
attribute [local irreducible] tokensOf

/-- What may be wrong with a text. -/
def Faulty (text : List Char) : Stop → Prop
  | .misread _ => True
  | .unfit misfit => WritesNoValue text misfit

theorem faulty_of_ofTokens (text : List Char) :
    Gives (Faulty text) (fun document => Node.ofTokens (tokensOf text).1 (tokensOf text).2 =
      .ok document)
      (Node.ofTokens (tokensOf text).1 (tokensOf text).2) := by
  have announced := announced_of_ofTokens (tokensOf text).1 (tokensOf text).2
  cases result : Node.ofTokens (tokensOf text).1 (tokensOf text).2 with
  | ok document => exact rfl
  | error e =>
      rw [result] at announced
      cases e with
      | misread _ => exact trivial
      | unfit misfit => exact .escape (writesNoCharacter_of_tokensOf announced)

theorem faulty_of_valueOf (text : List Char) :
    Gives (Faulty text) (fun _ => True) (valueOf text) := by
  unfold valueOf
  refine (faulty_of_ofTokens text).bind fun document same => ?_
  cases document with
  | none => exact trivial
  | some root =>
      refine (Node.blames_of_value root).imp (fun e blamed => ?_) fun _ _ => trivial
      cases e with
      | misread _ => exact trivial
      | unfit misfit =>
          obtain ⟨n, part, spells⟩ := blamed
          exact .part same part spells

/-- A YAML text is read or is malformed, unless it writes something that is no value. -/
theorem writesNoValue_of_read {s : String} {misfit : Misfit}
    (fails : read s = .error (.unfit misfit)) :
    WritesNoValue s.toList misfit := by
  have faulty := faulty_of_valueOf s.toList
  simp only [read] at fails
  split at fails
  · cases fails
  · split at fails
    · cases fails
    · cases fails
    · cases fails
      exact faulty.error ‹_›

end SchemaBaseline.Yaml
