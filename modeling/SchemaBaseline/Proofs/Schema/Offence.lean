import SchemaBaseline.Proofs.Schema.Shown

/-!
# Where a reference breaks

A document writes a reference as a chain of objects, one inside the other (`Value.IsChain`). All
of them but the last have to be lists or non-null marks, and the last has to be of another kind
and to have a name. Several nodes can break this rule at once (`OffendsAt`), and still a broken
reference has one issue only: a node is looked at once what is inside it is good, so that the node
that breaks the rule deepest keeps all the others from being looked at. `TypeRef.load_of_isChain`
says where that one issue lies.
-/

namespace SchemaBaseline

/-! ## Chains of nodes -/

/-- A node of a reference as a document writes it: the text of its kind, and its name if it has
one. -/
structure RefNode where
  kind : String
  name : Option String
deriving Repr, DecidableEq

namespace RefNode

/-- A node of one of the two kinds that wrap another node. -/
def IsWrapper (node : RefNode) : Prop :=
  node.kind = "LIST" ∨ node.kind = "NON_NULL"

instance (node : RefNode) : Decidable node.IsWrapper :=
  inferInstanceAs (Decidable (_ ∨ _))

/-- A node of any other kind, with a name that is not empty. -/
def IsNamed (node : RefNode) : Prop :=
  ¬ node.IsWrapper ∧ node.name.getD "" ≠ ""

/-- What a node with certain nodes inside it does wrong, and the complaint about it. -/
inductive Offends (node : RefNode) : List RefNode → String → Prop
  | wraps {next : RefNode} {rest : List RefNode} : ¬ node.IsWrapper →
      Offends node (next :: rest) ("Named type reference '" ++ node.name.getD "None" ++
        "' must not wrap another type")
  | nameless :
    ¬ node.IsWrapper → node.name.getD "" = "" →
      Offends node [] "Named type reference requires a name"
  | hollow :
    node.IsWrapper → Offends node [] (node.kind ++ " type reference requires an inner type")

theorem offends_nil_iff {node : RefNode} {complaint : String} : node.Offends [] complaint ↔
    node.IsWrapper ∧ node.kind ++ " type reference requires an inner type" = complaint ∨
      ¬ node.IsWrapper ∧ node.name.getD "" = "" ∧ "Named type reference requires a name" =
        complaint := by
  constructor
  · rintro (_ | ⟨unwrapped, nameless⟩ | wrapper)
    · exact .inr ⟨unwrapped, nameless, rfl⟩
    · exact .inl ⟨wrapper, rfl⟩
  · rintro (⟨wrapper, rfl⟩ | ⟨unwrapped, nameless, rfl⟩)
    · exact .hollow wrapper
    · exact .nameless unwrapped nameless

theorem offends_cons_iff {node next : RefNode} {rest : List RefNode} {complaint : String} :
    node.Offends (next :: rest) complaint ↔
    ¬ node.IsWrapper ∧ "Named type reference '" ++ node.name.getD "None" ++
      "' must not wrap another type" = complaint := by
  constructor
  · rintro ⟨unwrapped⟩
    exact ⟨unwrapped, rfl⟩
  · rintro ⟨unwrapped, rfl⟩
    exact .wraps unwrapped

/-- The entries of an object write a node; what is inside the node is left open. -/
structure WrittenIn (node : RefNode) (entries : Entries) : Prop where
  kind : IsText node.kind (Entries.get? entries "kind")
  name : IsTextOrAbsent node.name (Entries.get? entries "name")

end RefNode

/-- A value is a chain of objects that write certain nodes, outermost first. In the last one
neither spelling of the entry for what is inside leads to anything. -/
inductive Value.IsChain : Value → List RefNode → Prop
  | last {entries : Entries} {node : RefNode} :
    node.WrittenIn entries → IsAbsent (Entries.either? entries "ofType" "of_type") →
      IsChain (.object entries) [node]
  | wrap {entries : Entries} {node : RefNode} {inner : Value} {rest : List RefNode} :
    node.WrittenIn entries →
      Entries.get? entries "ofType" = some inner → IsChain inner rest →
        IsChain (.object entries) (node :: rest)

/-- The node at a position of a chain offends. -/
def OffendsAt (nodes : List RefNode) (i : Nat) (complaint : String) : Prop :=
  ∃ node inner, nodes.drop i = node :: inner ∧ node.Offends inner complaint

/-- The node at a position offends, and no node inside it does. -/
def OffendsDeepest (nodes : List RefNode) (i : Nat) (complaint : String) : Prop :=
  OffendsAt nodes i complaint ∧ ∀ j other, i < j → ¬ OffendsAt nodes j other

variable {node : RefNode} {inner nodes : List RefNode} {complaint : String}

theorem offendsAt_zero :
    OffendsAt (node :: inner) 0 complaint ↔ node.Offends inner complaint := by
  simp [OffendsAt]

theorem offendsAt_succ {i : Nat} :
    OffendsAt (node :: inner) (i + 1) complaint ↔ OffendsAt inner i complaint := by
  simp [OffendsAt]

theorem OffendsAt.lt_length {i : Nat} (offends : OffendsAt nodes i complaint) :
    i < nodes.length := by
  obtain ⟨node, inner, split, -⟩ := offends
  rw [← Nat.not_le, ← List.drop_eq_nil_iff, split]
  exact List.cons_ne_nil node inner

/-- Around an offence that is the deepest one it stays the deepest, whatever is wrong further
out. -/
theorem OffendsDeepest.cons {i : Nat} (deepest : OffendsDeepest inner i complaint) :
    OffendsDeepest (node :: inner) (i + 1) complaint := by
  refine ⟨offendsAt_succ.mpr deepest.1, ?_⟩
  rintro (_ | j) other deeper
  · exact absurd deeper (Nat.not_lt_zero _)
  · exact offendsAt_succ.not.mpr (deepest.2 j other (Nat.lt_of_succ_lt_succ deeper))

/-- A chain in which no node offends consists of wrappers around a named node. -/
theorem forall_not_offendsAt_iff (nonempty : nodes ≠ []) :
    (∀ i complaint, ¬ OffendsAt nodes i complaint) ↔
      (∀ node ∈ nodes.dropLast, node.IsWrapper) ∧ ∃ last, nodes.getLast? = some last ∧
        last.IsNamed := by
  induction nodes with
  | nil => exact absurd rfl nonempty
  | cons node inner ih =>
    -- The outermost node and the nodes inside it are judged apart.
    have apart : (∀ i complaint, ¬ OffendsAt (node :: inner) i complaint) ↔
        (∀ complaint, ¬ node.Offends inner complaint) ∧
        ∀ i complaint, ¬ OffendsAt inner i complaint := by
      constructor
      · intro clean
        exact ⟨fun complaint offends => clean 0 complaint (offendsAt_zero.mpr offends),
          fun i complaint offends => clean (i + 1) complaint (offendsAt_succ.mpr offends)⟩
      · rintro ⟨outer, inside⟩ (_ | i) complaint
        · exact offendsAt_zero.not.mpr (outer complaint)
        · exact offendsAt_succ.not.mpr (inside i complaint)
    rw [apart]
    cases inner with
    | nil =>
      have nothing : ∀ i complaint, ¬ OffendsAt [] i complaint :=
        fun i complaint offends => by cases offends.lt_length
      have outer : (∀ complaint, ¬ node.Offends [] complaint) ↔ node.IsNamed := by
        constructor
        · intro clean
          have unwrapped : ¬ node.IsWrapper := fun wrapper => clean _ (.hollow wrapper)
          exact ⟨unwrapped, fun nameless => clean _ (.nameless unwrapped nameless)⟩
        · rintro ⟨unwrapped, named⟩ complaint (_ | ⟨-, nameless⟩ | wrapper)
          · exact named nameless
          · exact unwrapped wrapper
      simp [outer, nothing]
    | cons next rest =>
      have outer : (∀ complaint, ¬ node.Offends (next :: rest) complaint) ↔ node.IsWrapper := by
        simp [RefNode.offends_cons_iff]
      rw [outer, ih (List.cons_ne_nil next rest), List.dropLast_cons_cons,
        List.getLast?_cons_cons, List.forall_mem_cons, and_assoc]

/-! ## One node -/

namespace RefNode

/-- The kind that a node is taken to have. -/
def refKind (node : RefNode) : RefKind :=
  if node.kind = "LIST" then .list else if node.kind = "NON_NULL" then .nonNull else .named

theorem refKind_of_not_isWrapper (unwrapped : ¬ node.IsWrapper) : node.refKind = .named := by
  obtain ⟨list, nonNull⟩ := not_or.mp unwrapped
  rw [refKind, if_neg list, if_neg nonNull]

theorem loadKind_kind (node : RefNode) :
    TypeRef.loadKind (.text node.kind) = .ok node.refKind := by
  unfold TypeRef.loadKind refKind
  split <;> simp_all

end RefNode

namespace TypeRef

theorem loadInner_object (load : Value → Checked TypeRef) (entries : Entries) :
    loadInner load (.object entries) = (load (.object entries)).map some := by
  rw [loadInner]
  simp

/-- A node is looked at once what is inside it is known to be good. -/
theorem loadWithin_object {entries : Entries} (written : node.WrittenIn entries) (limit : Nat) :
    loadWithin (limit + 1) (.object entries) =
      (Entries.optional entries "ofType" "of_type" none (loadInner (loadWithin limit))).andThen
        fun inner =>
        checkShape (node.refKind, node.name, inner) := by
  have kindOk : Entries.required entries "kind" "kind" loadKind = .ok node.refKind :=
    Entries.required_of_get? written.kind node.loadKind_kind
  have nameOk :
      Entries.optional entries "name" "name" none Value.loadTextOrNull = .ok node.name :=
    Entries.optional_text written.name (.inl rfl)
  simp only [loadWithin, Value.entries?, kindOk, nameOk, Checked.map_ok, Checked.apply_ok_ok]
  cases Entries.optional entries "ofType" "of_type" none (loadInner (loadWithin limit)) <;> rfl

/-- With nothing inside, a wrapper is rejected, and a named type is rejected if it has no name. -/
theorem shapeProblem?_none (node : RefNode) : shapeProblem? node.refKind node.name none =
    if node.IsWrapper then some (node.kind ++ " type reference requires an inner type")
    else if node.name.getD "" = "" then some "Named type reference requires a name"
    else none := by
  by_cases wrapper : node.IsWrapper
  · rw [if_pos wrapper]
    obtain kind | kind := wrapper <;> simp [shapeProblem?, RefNode.refKind, kind, RefKind.label]
  · rw [if_neg wrapper, RefNode.refKind_of_not_isWrapper wrapper]
    simp [shapeProblem?]

/-- With a reference inside, only a named type is rejected. -/
theorem shapeProblem?_some (node : RefNode) (ref : TypeRef) :
    shapeProblem? node.refKind node.name (some ref) =
      if node.IsWrapper then none
      else some ("Named type reference '" ++ node.name.getD "None" ++
        "' must not wrap another type") := by
  by_cases wrapper : node.IsWrapper
  · rw [if_pos wrapper]
    obtain kind | kind := wrapper <;> simp [shapeProblem?, RefNode.refKind, kind]
  · rw [if_neg wrapper, RefNode.refKind_of_not_isWrapper wrapper]
    simp [shapeProblem?]

/-- The check of a node complains just if the node offends. -/
theorem shapeProblem?_eq_some_iff {ref? : Option TypeRef} (same : ref?.isSome = !inner.isEmpty) :
    shapeProblem? node.refKind node.name ref? = some complaint ↔
      node.Offends inner complaint := by
  cases ref? with
  | none =>
    obtain rfl : inner = [] := by simpa using same
    rw [shapeProblem?_none, RefNode.offends_nil_iff]
    by_cases wrapper : node.IsWrapper <;> simp [wrapper]
  | some ref =>
    obtain ⟨next, rest, rfl⟩ : ∃ next rest, inner = next :: rest := by cases inner <;> simp_all
    rw [shapeProblem?_some, RefNode.offends_cons_iff]
    by_cases wrapper : node.IsWrapper <;> simp [wrapper]

/-! ## Chains -/

/-- The verdict on a chain: a reference if no node offends, and otherwise the complaint about the
node that offends deepest, found under as many steps inward, as the only issue. -/
def Judges (nodes : List RefNode) (verdict : Checked TypeRef) : Prop :=
  (∀ i complaint, ¬ OffendsAt nodes i complaint) ∧ (∃ ref, verdict = .ok ref) ∨
    ∃ k complaint, OffendsDeepest nodes k complaint ∧
      verdict = .bad [⟨List.replicate k (.name "ofType"), .rejected complaint⟩]

/-- Where nothing inside a node offends, its own shape decides. -/
theorem judges_checkShape {ref? : Option TypeRef} (same : ref?.isSome = !inner.isEmpty)
    (clean : ∀ i complaint, ¬ OffendsAt inner i complaint) :
    Judges (node :: inner) (checkShape (node.refKind, node.name, ref?)) := by
  have inside : ∀ i complaint, ¬ OffendsAt (node :: inner) (i + 1) complaint :=
    fun i complaint => offendsAt_succ.not.mpr (clean i complaint)
  rw [checkShape]
  cases problem : shapeProblem? node.refKind node.name ref? with
  | none =>
    refine .inl ⟨?_, _, rfl⟩
    rintro (_ | i) complaint offends
    · have complains := (shapeProblem?_eq_some_iff same).mpr (offendsAt_zero.mp offends)
      rw [problem] at complains
      cases complains
    · exact inside i complaint offends
  | some complaint =>
    refine .inr ⟨0, complaint, ⟨offendsAt_zero.mpr ((shapeProblem?_eq_some_iff same).mp problem),
      ?_⟩, rfl⟩
    rintro (_ | j) other deeper
    · exact absurd deeper (Nat.lt_irrefl 0)
    · exact inside j other

/-- A chain of at most `limit` nodes gets its verdict. -/
theorem judges_loadWithin {v : Value} {limit : Nat} (chain : v.IsChain nodes)
    (short : nodes.length ≤ limit) :
    Judges nodes (loadWithin limit v) := by
  induction chain generalizing limit with
  | @last entries node written ended =>
    obtain ⟨limit, rfl⟩ : ∃ n, limit = n + 1 :=
      ⟨limit - 1, by simp only [List.length_cons] at short; omega⟩
    have innerOk : Entries.optional entries "ofType" "of_type" none
        (loadInner (loadWithin limit)) = .ok none := by
      rw [Entries.optional]
      obtain none | null := ended
      · rw [none]
      · rw [null]
        rfl
    rw [loadWithin_object written, innerOk, Checked.andThen_ok]
    exact judges_checkShape rfl fun i complaint offends => by cases offends.lt_length
  | @wrap entries node w rest written found chain ih =>
    obtain ⟨limit, rfl⟩ : ∃ n, limit = n + 1 :=
      ⟨limit - 1, by simp only [List.length_cons] at short; omega⟩
    have verdict : Judges rest (loadWithin limit w) := ih (by simpa using short)
    have innerEq : Entries.optional entries "ofType" "of_type" none
        (loadInner (loadWithin limit)) =
        ((loadWithin limit w).map some).under (.name "ofType") := by
      rw [Entries.optional, Entries.either?, found, Option.some_or]
      cases chain <;> simp only [loadInner_object]
    rw [loadWithin_object written, innerEq]
    obtain ⟨clean, ref, ok⟩ | ⟨k, complaint, deepest, bad⟩ := verdict
    · rw [ok, Checked.map_ok, Checked.under_ok, Checked.andThen_ok]
      exact judges_checkShape (by cases chain <;> rfl) clean
    · -- The node itself is not looked at.
      rw [bad]
      exact .inr ⟨k + 1, complaint, deepest.cons, rfl⟩

/-- A chain of at most 200 nodes is loaded just if all of its nodes but the last are lists or
non-null marks and the last is of another kind and has a name that is not empty. Otherwise there
is one issue, with a value that has been rejected; it lies as many steps inward as the node that
breaks the rule deepest, and it tells what that node does wrong. -/
theorem load_of_isChain {v : Value} (chain : v.IsChain nodes) (short : nodes.length ≤ 200) :
    ((∃ ref, load v = .ok ref) ↔
      (∀ node ∈ nodes.dropLast, node.IsWrapper) ∧ ∃ last, nodes.getLast? = some last ∧
        last.IsNamed) ∧
    ((¬ ∃ ref, load v = .ok ref) → ∃ k complaint issue, OffendsDeepest nodes k complaint ∧
      load v = .bad [issue] ∧
      issue.problem.code = "value_error" ∧ issue.problem = .rejected complaint ∧
        issue.place = List.replicate k (.name "ofType")) := by
  have nonempty : nodes ≠ [] := by cases chain <;> exact List.cons_ne_nil _ _
  have verdict : Judges nodes (load v) := judges_loadWithin chain (by rw [maxRefDepth]; omega)
  rw [← forall_not_offendsAt_iff nonempty]
  obtain ⟨clean, accepted⟩ | ⟨k, complaint, deepest, bad⟩ := verdict
  · exact ⟨iff_of_true accepted clean, fun refused => absurd accepted refused⟩
  · have refused : ¬ ∃ ref, load v = .ok ref := by
      rintro ⟨ref, ok⟩
      rw [bad] at ok
      cases ok
    exact ⟨iff_of_false refused fun clean => clean k complaint deepest.1,
      fun _ => ⟨k, complaint, _, deepest, bad, rfl, rfl, rfl⟩⟩

/-- An object type has a list inside it, and the list has nothing inside it, around both of which
there is a non-null mark. The object type breaks the rule as well, but only the list is reported,
two steps inward. -/
theorem load_of_isChain_hollow :
    let list : Value := .object [("kind", .text "LIST"), ("name", .null)]
    let book : Value :=
      .object [("ofType", list), ("name", .text "Book"), ("kind", .text "OBJECT")]
    let mark : Value := .object [("kind", .text "NON_NULL"), ("ofType", book)]
    let nodes : List RefNode := [⟨"NON_NULL", none⟩, ⟨"OBJECT", some "Book"⟩, ⟨"LIST", none⟩]
    mark.IsChain nodes ∧ nodes.length ≤ 200 ∧
      OffendsAt nodes 1 "Named type reference 'Book' must not wrap another type" ∧
        (¬ ∃ ref, load mark = .ok ref) ∧
      load mark = .bad [⟨[.name "ofType", .name "ofType"],
          .rejected "LIST type reference requires an inner type"⟩] := by
  intro list book mark nodes
  have chain : mark.IsChain nodes :=
    .wrap ⟨rfl, .inl rfl⟩ rfl (.wrap ⟨rfl, rfl⟩ rfl (.last ⟨rfl, .inr rfl⟩ (.inl rfl)))
  have short : nodes.length ≤ 200 := by decide
  have outer : OffendsAt nodes 1 "Named type reference 'Book' must not wrap another type" :=
    ⟨_, _, rfl, .wraps (by decide)⟩
  have hollow : OffendsAt nodes 2 "LIST type reference requires an inner type" :=
    ⟨_, _, rfl, .hollow (by decide)⟩
  obtain ⟨accepted, reported⟩ := load_of_isChain chain short
  have refused : ¬ ∃ ref, load mark = .ok ref := by
    rw [accepted]
    rintro ⟨wrappers, -⟩
    exact absurd (wrappers ⟨"OBJECT", some "Book"⟩ (by decide)) (by decide)
  obtain ⟨k, complaint, ⟨place, problem⟩, deepest, bad, -, problemEq, placeEq⟩ := reported refused
  obtain rfl : k = 2 := by
    have bound : k < 3 := deepest.1.lt_length
    have deep : ¬ k < 2 := fun further => deepest.2 2 _ further hollow
    omega
  obtain rfl : complaint = "LIST type reference requires an inner type" := by
    obtain ⟨node, inner, split, offends⟩ := deepest.1
    obtain ⟨rfl, rfl⟩ := List.cons.inj split
    cases offends with
    | nameless unwrapped => exact absurd (.inl rfl) unwrapped
    | hollow => rfl
  subst problemEq placeEq
  exact ⟨chain, short, outer, refused, bad⟩

end TypeRef

end SchemaBaseline
