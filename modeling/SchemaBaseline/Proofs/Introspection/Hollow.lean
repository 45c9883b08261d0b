import SchemaBaseline.Proofs.Introspection.Rounds
import SchemaBaseline.Proofs.Introspection.Snag

/-!
# Wrappers around nothing

That a list or a non-null mark needs something inside is required in two places. Loading requires
it of one node at a time, once all that is inside the node is good. The search for truncated
references goes inward through raw values of which nothing has been checked yet and looks for a
node that breaks the rule. Both are compared with `IsHollow`, which says what such a node is: the
search finds the references that have one (`isTruncated_eq_true_iff`), none of these is loaded
(`TypeRef.not_load_of_isTruncated`), and loading complains that something is missing inside only
where there is one (`TypeRef.isTruncated_of_missesInner`).
-/

namespace SchemaBaseline

variable {issue : Issue}

/-! ## Complaints -/

/-- A value has been rejected since something is missing inside it. -/
def Issue.MissesInner (issue : Issue) : Prop :=
  ∃ before, issue.problem = .rejected (before ++ "requires an inner type")

theorem Issue.missesInner_under {step : Step} :
    (issue.under step).MissesInner ↔ issue.MissesInner :=
  Iff.rfl

theorem Issue.not_missesInner_of_fail {α : Type} {problem : Problem}
    (other : problem.code ≠ "value_error")
    (member : issue ∈ (Checked.fail problem : Checked α).issues) : ¬ issue.MissesInner := by
  rintro ⟨before, rejected⟩
  rw [Checked.eq_of_mem_issues_fail member] at rejected
  exact other (congrArg Problem.code rejected)

/-! ## Nodes -/

namespace Value

/-- A text, or what a document has in the place of one. -/
def IsString (v : Value) : Prop :=
  (∃ s, v = .text s) ∨ ∃ codes, v = .brokenText codes

theorem IsString.not_isContainer {v : Value} (string : v.IsString) : ¬ v.IsContainer := by
  obtain ⟨s, rfl⟩ | ⟨codes, rfl⟩ := string <;> exact id

theorem exists_object_of_field_ne_null {v : Value} {name : String}
    (present : v.field name ≠ .null) :
    ∃ entries, v = .object entries := by
  cases v with
  | object entries => exact ⟨entries, rfl⟩
  | _ => exact absurd rfl present

theorem get?_of_field_ne_null {entries : Entries} {name : String}
    (present : (Value.object entries).field name ≠ .null) :
    Entries.get? entries name = some ((Value.object entries).field name) := by
  rw [field] at present ⊢
  cases found : Entries.get? entries name with
  | none =>
    rw [found] at present
    exact absurd rfl present
  | some v => rfl

end Value

namespace Introspection

/-- A wrapper around nothing. -/
structure IsHollow (node : Value) : Prop where
  wraps : node.field "kind" = .text "LIST" ∨ node.field "kind" = .text "NON_NULL"
  empty : node.field "ofType" = .null

/-- The kinds of a reference can be looked up: none of them is a list or an object. -/
def Readable (ref : Value) : Prop :=
  ∀ node, NodeOf ref node → ¬ (node.field "kind").IsContainer

/-- A reference in which every object has a text for its kind, and what is inside it goes by its
first spelling only. -/
def IsRef (ref : Value) : Prop :=
  ∀ entries, NodeOf ref (.object entries) →
    ((Value.object entries).field "kind").IsString ∧ Entries.get? entries "of_type" = none

theorem NodeOf.cases_outermost {ref node : Value} (inside : NodeOf ref node) :
    node = ref ∨ NodeOf (ref.field "ofType") node := by
  induction inside with
  | outermost => exact .inl rfl
  | inner _ ih =>
    obtain rfl | within := ih
    · exact .inr .outermost
    · exact .inr (.inner within)

theorem IsHollow.ne_null {node : Value} (hollow : IsHollow node) : node ≠ .null := by
  rintro rfl
  obtain kind | kind := hollow.wraps <;> cases kind

theorem isRef_null : IsRef .null := by
  intro entries inside
  have stays : ∀ node, NodeOf .null node → node = .null := by
    intro node inside
    induction inside with
    | outermost => rfl
    | inner _ ih => rw [ih]; rfl
  cases stays _ inside

theorem isRef_object {entries : Entries} (kind : ((Value.object entries).field "kind").IsString)
    (unused : Entries.get? entries "of_type" = none)
    (inner : IsRef ((Value.object entries).field "ofType")) :
    IsRef (.object entries) := by
  intro others inside
  obtain same | within := inside.cases_outermost
  · cases same
    exact ⟨kind, unused⟩
  · exact inner others within

theorem IsRef.inner {ref : Value} (isRef : IsRef ref) : IsRef (ref.field "ofType") :=
  fun entries inside => isRef entries (.of_inner inside)

theorem IsRef.readable {ref : Value} (isRef : IsRef ref) : Readable ref := by
  intro node inside
  cases node with
  | object entries => exact (isRef entries inside).1.not_isContainer
  | _ => exact id

theorem Readable.exists_isTruncated {ref : Value} (readable : Readable ref) :
    ∃ truncated, isTruncated ref = .ok truncated := by
  cases searched : isTruncated ref with
  | ok truncated => exact ⟨truncated, rfl⟩
  | error fault =>
    obtain ⟨node, inside, container, -⟩ := tripsOn_of_isTruncated searched
    exact absurd container (readable node inside)

/-! ## What the search finds -/

theorem isNull_iff {v : Value} : isNull v = true ↔ v = .null := by
  cases v <;> simp [isNull]

theorem isWrapperLabel_eq_ok_true_iff {v : Value} :
    isWrapperLabel v = .ok true ↔ v = .text "LIST" ∨ v = .text "NON_NULL" := by
  cases v <;> simp [isWrapperLabel]

theorem isTruncated_of_isHollow {node : Value} (hollow : IsHollow node) :
    isTruncated node = .ok true := by
  have present : node.field "kind" ≠ .null := by
    obtain kind | kind := hollow.wraps <;> simp [kind]
  obtain ⟨entries, rfl⟩ := Value.exists_object_of_field_ne_null present
  rw [isTruncated, isWrapperLabel_eq_ok_true_iff.mpr hollow.wraps, hollow.empty]
  rfl

/-- A node around a truncated reference is truncated. -/
theorem isTruncated_of_inner {v : Value} (readable : ¬ (v.field "kind").IsContainer)
    (truncated : isTruncated (v.field "ofType") = .ok true) : isTruncated v = .ok true := by
  have present : v.field "ofType" ≠ .null := by
    intro null
    rw [null] at truncated
    cases truncated
  obtain ⟨entries, rfl⟩ := Value.exists_object_of_field_ne_null present
  rw [isTruncated, isTruncatedInside_eq, truncated]
  cases labelled : isWrapperLabel ((Value.object entries).field "kind") with
  | error fault => exact absurd (isWrapperLabel_eq_error labelled).1 readable
  | ok wraps => exact ite_self _

theorem isTruncated_of_nodeOf {ref node : Value} (readable : Readable ref)
    (inside : NodeOf ref node) (truncated : isTruncated node = .ok true) :
    isTruncated ref = .ok true := by
  induction inside with
  | outermost => exact truncated
  | @inner node outer ih => exact ih (isTruncated_of_inner (readable node outer) truncated)

/-- A reference that is found to be truncated has a wrapper around nothing. -/
theorem exists_isHollow_of_isTruncated {ref : Value} (truncated : isTruncated ref = .ok true) :
    ∃ node, NodeOf ref node ∧ IsHollow node := by
  induction ref using inward_induction with
  | node ref ih =>
    cases ref with
    | object entries =>
      rw [isTruncated, isTruncatedInside_eq] at truncated
      cases labelled : isWrapperLabel ((Value.object entries).field "kind") with
      | error fault =>
        rw [labelled] at truncated
        cases truncated
      | ok wraps =>
        simp only [labelled] at truncated
        split at truncated
        · rename_i hollow
          obtain ⟨rfl, null⟩ := Bool.and_eq_true_iff.mp hollow
          exact ⟨_, .outermost, isWrapperLabel_eq_ok_true_iff.mp labelled, isNull_iff.mp null⟩
        · obtain ⟨node, inside, hollow⟩ := ih entries rfl truncated
          exact ⟨node, .of_inner inside, hollow⟩
    | _ => cases truncated

/-- Where the kinds can be looked up, the search finds the references that have a wrapper around
nothing, at whatever depth. -/
theorem isTruncated_eq_true_iff {ref : Value} (readable : Readable ref) :
    isTruncated ref = .ok true ↔ ∃ node, NodeOf ref node ∧ IsHollow node := by
  constructor
  · exact exists_isHollow_of_isTruncated
  · rintro ⟨node, inside, hollow⟩
    exact isTruncated_of_nodeOf readable inside (isTruncated_of_isHollow hollow)

end Introspection

/-! ## What loading rejects -/

namespace TypeRef

open Introspection

variable {limit : Nat} {entries : Entries}

/-- Loading and the search take the same kinds for wrappers. -/
theorem isWrapper_iff_of_loadKind {v : Value} {kind : RefKind} (ok : loadKind v = .ok kind) :
    kind.isWrapper = true ↔ v = .text "LIST" ∨ v = .text "NON_NULL" := by
  unfold loadKind at ok
  split at ok <;> cases ok <;> simp_all [RefKind.isWrapper]

theorem optional_inner_of_null (unused : Entries.get? entries "of_type" = none)
    (empty : (Value.object entries).field "ofType" = .null) :
    Entries.optional entries "ofType" "of_type" none (loadInner (loadWithin limit)) = .ok none :=
  Entries.optional_of_absent (Value.field_eq_null_iff.mp empty) (.inr unused) rfl

/-- What is inside a node is loaded with one level less. -/
theorem optional_inner_of_ne_null (present : (Value.object entries).field "ofType" ≠ .null) :
    Entries.optional entries "ofType" "of_type" none (loadInner (loadWithin limit)) =
      ((loadWithin limit ((Value.object entries).field "ofType")).map some).under
        (.name "ofType") := by
  rw [Entries.optional, Entries.either?, Value.get?_of_field_ne_null present, Option.some_or]
  obtain ⟨inner, found⟩ : ∃ inner, (Value.object entries).field "ofType" = inner := ⟨_, rfl⟩
  rw [found] at present ⊢
  cases inner with
  | null => exact absurd rfl present
  | _ => rfl

/-- Nothing is found inside a node only where nothing is there. -/
theorem field_eq_null_of_optional_inner
    (ok : Entries.optional entries "ofType" "of_type" none (loadInner (loadWithin limit)) =
      .ok none) :
    (Value.object entries).field "ofType" = .null := by
  by_contra present
  rw [optional_inner_of_ne_null present, Checked.under_eq_ok_iff, Checked.map_eq_ok_iff] at ok
  obtain ⟨_, -, same⟩ := ok
  cases same

/-- A wrapper around nothing is not loaded. -/
theorem not_loadWithin_of_isHollow {node : Value} (isRef : IsRef node) (hollow : IsHollow node)
    (limit : Nat) (loaded : TypeRef) :
    loadWithin limit node ≠ .ok loaded := by
  intro ok
  cases limit with
  | zero => cases ok
  | succ limit =>
    obtain ⟨entries, kind, name, inner, rfl, kindOk, innerOk, shaped⟩ :=
      parts_of_loadWithin_succ ok
    rw [optional_inner_of_null (isRef entries .outermost).2 hollow.empty] at innerOk
    obtain rfl : none = inner := Checked.ok.inj innerOk
    have wraps : kind.isWrapper = true := (isWrapper_iff_of_loadKind kindOk).mpr hollow.wraps
    cases kind <;> simp [RefKind.isWrapper] at wraps <;> cases shaped

/-- A node is not loaded if what is inside it is not. -/
theorem not_loadWithin_of_inner {v : Value} (present : v.field "ofType" ≠ .null)
    (refused : ∀ limit loaded, loadWithin limit (v.field "ofType") ≠ .ok loaded) (limit : Nat)
    (loaded : TypeRef) :
    loadWithin limit v ≠ .ok loaded := by
  intro ok
  cases limit with
  | zero => cases ok
  | succ limit =>
    obtain ⟨entries, kind, name, inner, rfl, -, innerOk, -⟩ := parts_of_loadWithin_succ ok
    rw [optional_inner_of_ne_null present, Checked.under_eq_ok_iff, Checked.map_eq_ok_iff]
      at innerOk
    obtain ⟨inside, insideOk, -⟩ := innerOk
    exact refused limit inside insideOk

/-- What is not loaded keeps everything around it from being loaded. -/
theorem not_loadWithin_of_nodeOf {ref node : Value} (inside : NodeOf ref node)
    (present : node ≠ .null) (refused : ∀ limit loaded, loadWithin limit node ≠ .ok loaded)
    (limit : Nat) (loaded : TypeRef) :
    loadWithin limit ref ≠ .ok loaded := by
  induction inside generalizing limit loaded with
  | outermost => exact refused limit loaded
  | @inner node outer ih =>
    have outerPresent : node ≠ .null := by
      rintro rfl
      exact present rfl
    exact ih outerPresent (not_loadWithin_of_inner present refused) limit loaded

/-- Texts that are equal end in the same way. -/
theorem tail_eq_of_append_eq {before before' tail tail' : String}
    (same : before ++ tail = before' ++ tail') (length : tail.length = tail'.length) :
    tail = tail' := by
  have chars := congrArg String.toList same
  rw [String.toList_append, String.toList_append] at chars
  exact String.toList_inj.mp (List.append_inj' chars
    (by rwa [String.length_toList, String.length_toList])).2

/-- Of the complaints about the shape of a node only the one about a wrapper around nothing ends
like this. -/
theorem eq_none_of_shapeProblem? {kind : RefKind} {name : Option String} {inner : Option TypeRef}
    {before : String}
    (problem : shapeProblem? kind name inner = some (before ++ "requires an inner type")) :
    kind ≠ .named ∧ inner = none := by
  have ending : "requires an inner type" = "requires an i" ++ "nner type" := rfl
  rw [ending, ← String.append_assoc] at problem
  unfold shapeProblem? at problem
  split at problem
  · have wraps : "' must not wrap another type" = "' must not wrap ano" ++ "ther type" := rfl
    rw [wraps, ← String.append_assoc] at problem
    have tails : "ther type" = "nner type" :=
      tail_eq_of_append_eq (Option.some.inj problem) (by decide)
    exact absurd tails (by decide)
  · split at problem
    · have nameless : "Named type reference requires a name" = "Named type reference requir" ++
          "es a name" := rfl
      rw [nameless] at problem
      have tails : "es a name" = "nner type" :=
        tail_eq_of_append_eq (Option.some.inj problem) (by decide)
      exact absurd tails (by decide)
    · cases problem
  · rename_i unnamed
    exact ⟨unnamed, rfl⟩
  · cases problem

theorem not_missesInner_of_kind
    (member : issue ∈ (Entries.required entries "kind" "kind" loadKind).issues) :
    ¬ issue.MissesInner := by
  obtain missing | ⟨v, inside, here, rfl⟩ := Entries.mem_issues_required member
  · rintro ⟨before, rejected⟩
    cases missing.symm.trans rejected
  · rw [Issue.missesInner_under]
    unfold loadKind at here
    split at here
    case h_5 => exact Issue.not_missesInner_of_fail (by decide) here
    all_goals cases here

theorem not_missesInner_of_name
    (member : issue ∈ (Entries.optional entries "name" "name" none Value.loadTextOrNull).issues) :
    ¬ issue.MissesInner := by
  obtain ⟨v, inside, here, rfl⟩ := Entries.mem_issues_optional member
  rw [Issue.missesInner_under]
  unfold Value.loadTextOrNull at here
  split at here
  · cases here
  · have here := Checked.mem_issues_map.mp here
    unfold Value.loadText at here
    split at here
    · cases here
    · exact Issue.not_missesInner_of_fail (by decide) here
    · split at here
      · cases here
      · exact Issue.not_missesInner_of_fail (by decide) here
    · exact Issue.not_missesInner_of_fail (by decide) here

/-- A node whose parts are good is rejected for want of something inside only if it is a wrapper
around nothing. -/
theorem isHollow_of_missesInner {kind : RefKind} {name : Option String} {inner : Option TypeRef}
    (kindOk : loadKind ((Value.object entries).field "kind") = .ok kind)
    (innerOk : Entries.optional entries "ofType" "of_type" none (loadInner (loadWithin limit)) =
      .ok inner)
    (reported : issue ∈ (checkShape (kind, name, inner)).issues) (misses : issue.MissesInner) :
    IsHollow (.object entries) := by
  unfold checkShape at reported
  split at reported
  · rename_i problem
    obtain ⟨before, rejected⟩ := misses
    rw [Checked.eq_of_mem_issues_fail reported] at rejected
    cases rejected
    obtain ⟨unnamed, rfl⟩ := eq_none_of_shapeProblem? problem
    have wraps : kind.isWrapper = true := (loadKind_cases kindOk).resolve_left unnamed
    exact ⟨(isWrapper_iff_of_loadKind kindOk).mp wraps, field_eq_null_of_optional_inner innerOk⟩
  · cases reported

/-- Where loading complains that something is missing inside, there is a wrapper around
nothing. -/
theorem exists_isHollow_of_missesInner {ref : Value} (isRef : IsRef ref)
    (reported : issue ∈ (loadWithin limit ref).issues) (misses : issue.MissesInner) :
    ∃ node, NodeOf ref node ∧ IsHollow node := by
  induction limit generalizing ref issue with
  | zero => exact absurd misses (Issue.not_missesInner_of_fail (by decide) reported)
  | succ limit ih =>
    cases ref with
    | object entries =>
      simp only [loadWithin, Value.entries?, Checked.mem_issues_andThen, Checked.mem_issues_apply,
        Checked.mem_issues_map] at reported
      obtain ((kind | name) | inner) | ⟨⟨kind, name, inner⟩, partsOk, shape⟩ := reported
      · exact absurd misses (not_missesInner_of_kind kind)
      · exact absurd misses (not_missesInner_of_name name)
      · by_cases empty : (Value.object entries).field "ofType" = .null
        · rw [optional_inner_of_null (isRef entries .outermost).2 empty] at inner
          cases inner
        · rw [optional_inner_of_ne_null empty] at inner
          obtain ⟨inside, here, rfl⟩ := Checked.mem_issues_under.mp inner
          obtain ⟨node, within, hollow⟩ := ih isRef.inner (Checked.mem_issues_map.mp here) misses
          exact ⟨node, .of_inner within, hollow⟩
      · obtain ⟨kindOk, innerOk⟩ := parts_of_apply partsOk
        exact ⟨_, .outermost, isHollow_of_missesInner
          (loadKind_of_required kindOk) innerOk shape misses⟩
    | _ => exact absurd misses (Issue.not_missesInner_of_fail (by decide) reported)

/-- No reference that is found to be truncated is loaded, however deep the wrapper around nothing
lies. -/
theorem not_load_of_isTruncated {ref : Value} (isRef : IsRef ref)
    (truncated : isTruncated ref = .ok true) :
    ¬ ∃ loaded, load ref = .ok loaded := by
  rintro ⟨loaded, ok⟩
  obtain ⟨node, inside, hollow⟩ := exists_isHollow_of_isTruncated truncated
  have isRefInside : IsRef node := fun entries within => isRef entries (inside.trans within)
  exact not_loadWithin_of_nodeOf inside hollow.ne_null
    (not_loadWithin_of_isHollow isRefInside hollow) maxRefDepth loaded ok

/-- If loading complains that something is missing inside a wrapper, the reference is found to be
truncated. -/
theorem isTruncated_of_missesInner {ref : Value} (isRef : IsRef ref)
    (reported : issue ∈ (load ref).issues) (misses : issue.MissesInner) :
    isTruncated ref = .ok true :=
  (isTruncated_eq_true_iff isRef.readable).mpr
    (exists_isHollow_of_missesInner isRef reported misses)

end TypeRef

end SchemaBaseline
