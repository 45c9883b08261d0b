import Mathlib.Data.List.Nodup
import SchemaBaseline.Introspection.Acquire
import SchemaBaseline.Proofs.Introspection.Cut

/-!
# Going deeper finds the whole schema

A server that describes a schema (`Server.Describes`) shows it, or the one type that is asked for,
cut after as many levels as the query asks for. `refetch_deepNames_of_describes` says that
fetching the truncated types again leaves every type shown at a greater depth: those that are not
fetched are not cut, so the greater depth makes no difference to them. With this as the invariant
of a round, `deepen_of_describes` follows the rounds down to the depth at which a client stops,
`lastDepth`: either nothing is truncated any more and every type is shown whole, or exactly the
types that exceed that depth are reported.
-/

namespace SchemaBaseline.Introspection

/-! ## Servers that describe a schema -/

/-- A successful reply whose data hold, under a name, a value as described. -/
def Reply.Bears (reply : Reply) (name : String) (described : Value → Prop) : Prop :=
  ∃ status body v, reply = .answer status body ∧ status.isSuccess = true ∧
    Json.readBody body = .ok v ∧
    (v.field "errors").isTruthy = false ∧
    ∃ entries, v.field "data" = .object entries ∧ Shows described (Entries.get? entries name)

/-- A reply to a request for the version that tells one, or that tells none in a way that a client
expects. -/
def Reply.TellsVersion (reply : Reply) : Prop :=
  match reply with
  | .failure (.transport _) => True
  | .failure (.breakdown b) => ∃ message, b = .badValue message
  | .answer status body =>
    ∀ v, status.isSuccess = true → Json.readBody body = .ok v →
      ∃ s, Client.versionValue v = .text s

/-- A server that answers every query with the schema, or with the type that is asked for, cut
after the levels that the query asks for, whatever has been asked before. -/
structure Server.Describes (server : Server) (schema : Schema) : Prop where
  answersSchema : ∀ before depth,
    (server.answer before (.schema depth)).Bears "__schema" (schema.cut (levels depth)).Shown
  answersType : ∀ before depth, ∀ type ∈ schema.types,
    (server.answer before (.type depth (Value.codesOf type.name))).Bears "__type"
      (type.cut (levels depth)).Shown
  answersAbout : ∀ before, (server.answer before .about).TellsVersion

/-- The data of a reply that bears something are found. -/
theorem ask_of_bears {server : Server} {request : Request} {x : Exchange} {name : String}
    {described : Value → Prop} (bears : (server.answer x.sent request).Bears name described) :
    ∃ data v x', ask server request x = (.ok data, x') ∧ data.field name = v ∧ described v := by
  obtain ⟨status, body, v, replied, success, read, noErrors, entries, data, w, found, shown⟩ :=
    bears
  have isObject : ∃ entries, v = .object entries := by
    cases v with
    | object entries => exact ⟨entries, rfl⟩
    | _ => cases data
  obtain ⟨_, rfl⟩ := isObject
  refine ⟨.object entries, w, (x.send server request).2, ?_,
    by rw [Value.field, found, Option.getD_some], shown⟩
  simp only [ask, Exchange.send, replied, dataOfReply, success, if_true, read, dataOfBody,
    noErrors, Bool.false_eq_true, if_false, data]

/-! ## Lists side by side -/

theorem forall₂_of_getElem? {α β : Type} {related : α → β → Prop} {as : List α} {bs : List β}
    (length : bs.length = as.length)
    (each : ∀ (i : Nat) a b, as[i]? = some a → bs[i]? = some b → related a b) :
    List.Forall₂ related as bs := by
  induction as generalizing bs with
  | nil =>
      rw [List.length_nil, List.length_eq_zero_iff] at length
      subst length
      exact .nil
  | cons a as ih =>
      cases bs with
      | nil => cases length
      | cons b bs =>
          exact .cons (each 0 a b rfl rfl)
            (ih (Nat.succ.inj length) fun i a b former latter => each (i + 1) a b former latter)

theorem getElem?_of_forall₂ {α β : Type} {related : α → β → Prop} {as : List α} {bs : List β}
    (all : List.Forall₂ related as bs) {i : Nat} {a : α} {b : β} (former : as[i]? = some a)
    (latter : bs[i]? = some b) :
    related a b := by
  induction all generalizing i with
  | nil => cases former
  | cons first _ ih =>
      cases i with
      | zero =>
          obtain rfl := Option.some.inj former
          obtain rfl := Option.some.inj latter
          exact first
      | succ i => exact ih former latter

/-- Where names are unique, a type is at one position only. -/
theorem position_unique {types : List NamedType} (unique : (types.map NamedType.name).Nodup)
    {i j : Nat} {type other : NamedType} (here : types[i]? = some type)
    (there : types[j]? = some other) (same : type.name = other.name) : i = j := by
  have named : (types.map NamedType.name)[i]? = some type.name := by
    rw [List.getElem?_map, here]; rfl
  have otherNamed : (types.map NamedType.name)[j]? = some type.name := by
    rw [List.getElem?_map, there, same]; rfl
  have differ := List.nodup_iff_getElem?_ne_getElem?.mp unique
  obtain ⟨iShort, -⟩ := List.getElem?_eq_some_iff.mp named
  obtain ⟨jShort, -⟩ := List.getElem?_eq_some_iff.mp otherNamed
  rcases Nat.lt_trichotomy i j with below | same | above
  · exact absurd (named.trans otherNamed.symm) (differ i j below jShort)
  · exact same
  · exact absurd (otherNamed.trans named.symm) (differ j i above iShort)

/-- Among values that show types with unique names, the last entry of a name is the only one. -/
theorem lastPosition_of_shown {types : List NamedType} {levels : Nat} {values : List Value}
    (unique : (types.map NamedType.name).Nodup)
    (shown : List.Forall₂ (fun type v => (type.cut levels).Shown v) types values) {i : Nat}
    {type : NamedType}
    (here : types[i]? = some type) :
    lastPosition (Value.codesOf type.name) values = some i := by
  have length := shown.length_eq
  obtain ⟨short, -⟩ := List.getElem?_eq_some_iff.mp here
  -- Only the value at `i` goes by the name of the type.
  have named : ∀ (j : Nat) (within : j < values.length),
      (entryName? values[j] == some (Value.codesOf type.name)) = decide (j = i) := by
    intro j within
    have there : types[j]? = some types[j] := List.getElem?_eq_getElem (by omega)
    have name :=
      entryName?_of_shown (getElem?_of_forall₂ shown there (List.getElem?_eq_getElem within))
    rw [name]
    by_cases same : j = i
    · subst same
      obtain rfl := Option.some.inj (here.symm.trans there)
      rw [decide_eq_true rfl]
      exact beq_self_eq_true _
    · rw [decide_eq_false same]
      exact beq_false_of_ne fun sameName =>
        same (position_unique unique there here
          (Value.codesOf_injective (Option.some.inj sameName)))
  have found :
      values.reverse.findIdx? (fun entry => entryName? entry == some (Value.codesOf type.name)) =
        some (values.length - 1 - i) := by
    rw [List.findIdx?_eq_some_iff_getElem]
    refine ⟨by rw [List.length_reverse]; omega, ?_, fun j before => ?_⟩
    · rw [List.getElem_reverse, named, decide_eq_true_eq]
      omega
    · rw [List.getElem_reverse, named, decide_eq_true_eq]
      omega
  rw [lastPosition, found]
  show some (values.length - 1 - (values.length - 1 - i)) = some i
  congr 1
  omega

/-! ## One round -/

theorem typeOfData_of_shown {type : NamedType} {name : TypeName} {data v : Value}
    (found : data.field "__type" = v) (shown : type.Shown v) : typeOfData name data = .ok v := by
  obtain ⟨entries, rfl, -⟩ := shown
  rw [typeOfData, found]

/-- Fetching types again, each to its own place, leaves every type shown at the new depth that was
so before or is fetched. -/
theorem refetch_of_describes {server : Server} {schema : Schema}
    (describes : server.Describes schema)
    (unique : (schema.types.map NamedType.name).Nodup) {depth : Int}
    {place : TypeName → Option Nat} {names : List TypeName}
    {values : List Value} (x : Exchange)
    (placed : ∀ name ∈ names, ∃ i type, schema.types[i]? = some type ∧
      Value.codesOf type.name = name ∧ place name = some i)
    (length : values.length = schema.types.length)
    (shown : ∀ (i : Nat) type v, schema.types[i]? = some type → values[i]? = some v →
      Value.codesOf type.name ∉ names → (type.cut (levels depth)).Shown v) :
    ∃ values' x', refetch server depth place names values x = (.ok values', x') ∧
      List.Forall₂ (fun type v => (type.cut (levels depth)).Shown v) schema.types values' := by
  induction names generalizing values x with
  | nil =>
      exact ⟨values, x, rfl, forall₂_of_getElem? length fun i type v here found =>
        shown i type v here found List.not_mem_nil⟩
  | cons name names ih =>
      obtain ⟨i, type, here, rfl, place⟩ := placed name List.mem_cons_self
      have bears := describes.answersType x.sent depth type (List.mem_of_getElem? here)
      obtain ⟨data, entry, x', asked, found, entryShown⟩ := ask_of_bears bears
      have set : ∀ (j : Nat) other v, schema.types[j]? = some other →
          (values.set i entry)[j]? = some v → Value.codesOf other.name ∉ names →
          (other.cut (levels depth)).Shown v := by
        intro j other v there setFound fresh
        by_cases same : i = j
        · subst same
          obtain rfl := Option.some.inj (here.symm.trans there)
          obtain ⟨short, -⟩ := List.getElem?_eq_some_iff.mp here
          rw [List.getElem?_set_self (by omega)] at setFound
          obtain rfl := Option.some.inj setFound
          exact entryShown
        · rw [List.getElem?_set_ne same] at setFound
          refine shown j other v there setFound fun member => ?_
          rcases List.mem_cons.mp member with sameName | member
          · exact same (position_unique unique here there (Value.codesOf_injective sameName.symm))
          · exact fresh member
      obtain ⟨values', x'', fetched, allShown⟩ :=
        ih x' (fun name member => placed name (List.mem_cons_of_mem _ member))
          (by rw [List.length_set]; exact length) set
      refine ⟨values', x'', ?_, allShown⟩
      simp only [refetch, asked, typeOfData_of_shown found entryShown, place]
      exact fetched

/-! ## All rounds -/

/-- The depth at which a client stops that doubles its depth for so many rounds at most. -/
def lastDepth (limit : Int) : Nat → Int → Int
  | 0, depth => depth
  | rounds + 1, depth => if limit < 2 * depth then depth else lastDepth limit rounds (2 * depth)

theorem le_lastDepth (limit : Int) (rounds : Nat) {depth : Int} (positive : 1 ≤ depth) :
    depth ≤ lastDepth limit rounds depth := by
  induction rounds generalizing depth with
  | zero => exact Int.le_refl depth
  | succ rounds ih =>
      rw [lastDepth]
      split
      · exact Int.le_refl depth
      · have further := ih (show 1 ≤ 2 * depth by omega)
        omega

theorem levels_mono {depth deeper : Int} (le : depth ≤ deeper) :
    levels depth ≤ levels deeper := by
  unfold levels
  omega

theorem levels_pos (depth : Int) : 0 < levels depth :=
  Nat.succ_pos _

theorem not_exceeds_of_deepNames_eq_nil {types : List NamedType} {levels : Nat}
    (none : deepNames levels types = []) :
    ∀ type ∈ types, ¬ type.Exceeds levels := by
  intro type member exceeds
  have listed := mem_deepNames_iff.mpr ⟨type, member, rfl, exceeds⟩
  rw [none] at listed
  exact absurd listed List.not_mem_nil

theorem exists_exceeds_of_deepNames_eq_cons {types : List NamedType} {levels : Nat}
    {first : TypeName}
    {others : List TypeName} (some : deepNames levels types = first :: others) :
    ∃ type ∈ types, type.Exceeds levels := by
  have listed : first ∈ deepNames levels types := by
    rw [some]
    exact List.mem_cons_self
  obtain ⟨type, member, -, exceeds⟩ := mem_deepNames_iff.mp listed
  exact ⟨type, member, exceeds⟩

theorem shown_of_not_exceeds {types : List NamedType} {levels : Nat} {values : List Value}
    (whole : ∀ type ∈ types, ¬ type.Exceeds levels)
    (shown : List.Forall₂ (fun type v => (type.cut levels).Shown v) types values) :
    List.Forall₂ NamedType.Shown types values := by
  refine forall₂_of_getElem? shown.length_eq.symm fun i type v here found => ?_
  have cut := getElem?_of_forall₂ shown here found
  rwa [NamedType.cut_of_not_exceeds (whole type (List.mem_of_getElem? here))] at cut

/-- A round: once the types with longer references are fetched again at a greater depth, every
type is shown at that depth. -/
theorem refetch_deepNames_of_describes {server : Server} {schema : Schema}
    (describes : server.Describes schema)
    (sound : schema.Sound) {depth deeper : Int} (le : depth ≤ deeper) {values : List Value}
    (x : Exchange)
    (shown : List.Forall₂ (fun type v => (type.cut (levels depth)).Shown v) schema.types values) :
    ∃ values' x',
      refetch server deeper (lastPosition · values) (deepNames (levels depth) schema.types)
        values x = (.ok values', x') ∧
      List.Forall₂ (fun type v => (type.cut (levels deeper)).Shown v) schema.types values' := by
  have placed : ∀ name ∈ deepNames (levels depth) schema.types, ∃ i type,
      schema.types[i]? = some type ∧ Value.codesOf type.name = name ∧
        lastPosition name values = some i := by
    intro name member
    obtain ⟨type, typeMember, rfl, -⟩ := mem_deepNames_iff.mp member
    obtain ⟨i, here⟩ := List.getElem?_of_mem typeMember
    exact ⟨i, type, here, rfl, lastPosition_of_shown sound.names_unique shown here⟩
  -- A type that is not fetched again is not cut, so it is shown at every greater depth.
  have others : ∀ (i : Nat) type v, schema.types[i]? = some type → values[i]? = some v →
      Value.codesOf type.name ∉ deepNames (levels depth) schema.types →
      (type.cut (levels deeper)).Shown v := by
    intro i type v here found absent
    have short : ¬ type.Exceeds (levels depth) := fun exceeds =>
      absent (mem_deepNames_iff.mpr ⟨type, List.mem_of_getElem? here, rfl, exceeds⟩)
    have shorter : ¬ type.Exceeds (levels deeper) :=
      fun exceeds => short (exceeds.mono (levels_mono le))
    have same := getElem?_of_forall₂ shown here found
    rw [NamedType.cut_of_not_exceeds short] at same
    rw [NamedType.cut_of_not_exceeds shorter]
    exact same
  exact refetch_of_describes describes sound.names_unique x placed shown.length_eq.symm others

section Deepen

variable (client : Client) (server : Server) {types : List Value}

theorem deepen_of_error {fault : SearchFault} (search : truncatedNames types = .error fault)
    (rounds : Nat) (depth : Int) (x : Exchange) :
    client.deepen server rounds depth types x = (.error (.ofSearch fault), x) := by
  cases rounds <;> (unfold Client.deepen; rw [search])

theorem deepen_of_whole (search : truncatedNames types = .ok []) (rounds : Nat) (depth : Int)
    (x : Exchange) :
    client.deepen server rounds depth types x = (.ok types, x) := by
  cases rounds <;> (unfold Client.deepen; rw [search])

variable {name : TypeName} {names : List TypeName}

theorem deepen_zero (search : truncatedNames types = .ok (name :: names)) (depth : Int)
    (x : Exchange) :
    client.deepen server 0 depth types x =
      (.error (.refused (.tooDeep client.maxDepth (name :: names))), x) := by
  unfold Client.deepen
  rw [search]

theorem deepen_of_exceeds (search : truncatedNames types = .ok (name :: names)) {depth : Int}
    (exceeds : client.maxDepth < 2 * depth) (rounds : Nat) (x : Exchange) :
    client.deepen server rounds depth types x =
      (.error (.refused (.tooDeep client.maxDepth (name :: names))), x) := by
  cases rounds with
  | zero => exact deepen_zero client server search depth x
  | succ rounds =>
    unfold Client.deepen
    rw [search]
    exact if_pos exceeds

/-- A round within the limit, and then as many rounds as are left. -/
theorem deepen_succ (search : truncatedNames types = .ok (name :: names)) {depth : Int}
    (within : 2 * depth ≤ client.maxDepth) (rounds : Nat) (x : Exchange) :
    client.deepen server (rounds + 1) depth types x =
      match refetch server (2 * depth) (lastPosition · types) (name :: names) types
        (x.note .debug
          s!"Re-fetching {(name :: names).length} types with type reference depth {2 * depth}")
      with
      | (.error e, x) => (.error e, x)
      | (.ok types, x) => client.deepen server rounds (2 * depth) types x := by
  rw [Client.deepen, search]
  exact if_neg (Int.not_lt.mpr within)

end Deepen

/-- A client that sees every type cut at its depth either comes to see all of them whole, or
reports those that exceed the depth at which it stops. -/
theorem deepen_of_describes (client : Client) {server : Server} {schema : Schema}
    (describes : server.Describes schema) (sound : schema.Sound) (rounds : Nat) {depth : Int}
    (positive : 1 ≤ depth) {values : List Value} (x : Exchange)
    (shown : List.Forall₂ (fun type v => (type.cut (levels depth)).Shown v) schema.types values) :
    ((∀ type ∈ schema.types, ¬ type.Exceeds (levels (lastDepth client.maxDepth rounds depth))) ∧
      ∃ values' x', client.deepen server rounds depth values x = (.ok values', x') ∧
        List.Forall₂ NamedType.Shown schema.types values') ∨
    ((∃ type ∈ schema.types, type.Exceeds (levels (lastDepth client.maxDepth rounds depth))) ∧
      ∃ x', client.deepen server rounds depth values x =
        (.error (.refused (.tooDeep client.maxDepth
          (deepNames (levels (lastDepth client.maxDepth rounds depth)) schema.types))), x')) := by
  have wf : ∀ type ∈ schema.types, ∀ ref ∈ type.refs, ref.WellFormed :=
    fun type member ref refMember =>
      sound.refs_wellFormed ref (List.mem_flatMap.mpr ⟨type, member, refMember⟩)
  induction rounds generalizing depth values x with
  | zero =>
      have search := truncatedNames_of_shown (levels_pos depth) wf shown
      cases names : deepNames (levels depth) schema.types with
      | nil =>
          have whole := not_exceeds_of_deepNames_eq_nil names
          exact .inl ⟨whole, values, x, deepen_of_whole client server (names ▸ search) 0 depth x,
            shown_of_not_exceeds whole shown⟩
      | cons first others =>
          refine .inr ⟨exists_exceeds_of_deepNames_eq_cons names, x, ?_⟩
          rw [deepen_zero client server (names ▸ search), lastDepth, names]
  | succ rounds ih =>
      have search := truncatedNames_of_shown (levels_pos depth) wf shown
      have further := le_lastDepth client.maxDepth (rounds + 1) positive
      cases names : deepNames (levels depth) schema.types with
      | nil =>
          have whole := not_exceeds_of_deepNames_eq_nil names
          exact .inl ⟨fun type member exceeds => whole type member
            (exceeds.mono (levels_mono further)), values, x,
            deepen_of_whole client server (names ▸ search) _ depth x,
            shown_of_not_exceeds whole shown⟩
      | cons first following =>
          have truncated : truncatedNames values = .ok (first :: following) := names ▸ search
          by_cases stops : client.maxDepth < 2 * depth
          · rw [lastDepth, if_pos stops]
            refine .inr ⟨exists_exceeds_of_deepNames_eq_cons names, x, ?_⟩
            rw [deepen_of_exceeds client server truncated stops, names]
          · rw [lastDepth, if_neg stops,
              deepen_succ client server truncated (Int.not_lt.mp stops)]
            generalize x.note _ _ = noted
            obtain ⟨values', x', fetched, allShown⟩ :=
              refetch_deepNames_of_describes describes sound (show depth ≤ 2 * depth by omega)
                noted shown
            rw [names] at fetched
            rw [fetched]
            exact ih (by omega) x' allShown

end SchemaBaseline.Introspection
