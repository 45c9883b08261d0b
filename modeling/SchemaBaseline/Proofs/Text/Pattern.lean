import SchemaBaseline.Text.Pattern

/-!
# What patterns cover

`Pattern.Covers` says by how a text may be split that a pattern covers it. Deciding by derivatives
agrees with that (`Pattern.accepts_iff`): what remains of a pattern after a character covers what
may stand behind that character (`Pattern.covers_after_iff`), so both recur along the text.
-/

namespace SchemaBaseline.Text.Pattern

/-! ## The meaning of a pattern -/

/-- A pattern covers a whole text. -/
inductive Covers : Pattern → List Char → Prop
  | done : Covers done []
  | one {allowed : Char → Bool} {c : Char} (ok : allowed c = true) : Covers (one allowed) [c]
  | next {p q : Pattern} {xs ys : List Char} (first : Covers p xs) (second : Covers q ys) :
    Covers (next p q) (xs ++ ys)
  | left {p q : Pattern} {xs : List Char} (covered : Covers p xs) : Covers (either p q) xs
  | right {p q : Pattern} {xs : List Char} (covered : Covers q xs) : Covers (either p q) xs
  | stop {p : Pattern} : Covers (many p) []
  | again {p : Pattern} {xs ys : List Char} (first : Covers p xs) (others : Covers (many p) ys) :
    Covers (many p) (xs ++ ys)

variable {p q : Pattern} {c : Char} {cs : List Char}

theorem not_covers_never : ¬ Covers never cs := by
  intro covered
  cases covered

theorem covers_either_iff : Covers (either p q) cs ↔ Covers p cs ∨ Covers q cs := by
  constructor
  · intro covered
    cases covered with
    | left covered => exact .inl covered
    | right covered => exact .inr covered
  · rintro (covered | covered)
    · exact .left covered
    · exact .right covered

theorem covers_next_iff :
    Covers (next p q) cs ↔ ∃ xs ys, cs = xs ++ ys ∧ Covers p xs ∧ Covers q ys := by
  constructor
  · intro covered
    cases covered with
    | next first second => exact ⟨_, _, rfl, first, second⟩
  · rintro ⟨xs, ys, rfl, first, second⟩
    exact .next first second

theorem covers_next_nil_iff : Covers (next p q) [] ↔ Covers p [] ∧ Covers q [] := by
  rw [covers_next_iff]
  constructor
  · rintro ⟨xs, ys, empty, first, second⟩
    obtain ⟨rfl, rfl⟩ := List.append_eq_nil_iff.mp empty.symm
    exact ⟨first, second⟩
  · rintro ⟨first, second⟩
    exact ⟨[], [], rfl, first, second⟩

/-- The first character behind which two patterns go on belongs to the one or to the other. -/
theorem covers_next_cons_iff : Covers (next p q) (c :: cs) ↔
    (∃ xs ys, cs = xs ++ ys ∧ Covers p (c :: xs) ∧ Covers q ys) ∨
      Covers p [] ∧ Covers q (c :: cs) := by
  rw [covers_next_iff]
  constructor
  · rintro ⟨xs, ys, same, first, second⟩
    cases xs with
    | nil => exact .inr ⟨first, same ▸ second⟩
    | cons x xs =>
      obtain ⟨rfl, rfl⟩ := List.cons.inj same
      exact .inl ⟨xs, ys, rfl, first, second⟩
  · rintro (⟨xs, ys, rfl, first, second⟩ | ⟨first, second⟩)
    · exact ⟨c :: xs, ys, rfl, first, second⟩
    · exact ⟨[], c :: cs, rfl, first, second⟩

/-- A repetition that covers a text covers its first character with a first round that is not
empty. -/
theorem covers_many_cons_iff : Covers (many p) (c :: cs) ↔
    ∃ xs ys, cs = xs ++ ys ∧ Covers p (c :: xs) ∧ Covers (many p) ys := by
  constructor
  · intro covered
    generalize whole : many p = m at covered
    generalize text : c :: cs = t at covered
    induction covered generalizing c cs with
    | done | one | next | left | right => cases whole
    | stop => cases text
    | @again p' xs ys first others _ ih =>
      cases whole
      cases xs with
      | nil => exact ih rfl text
      | cons x xs =>
        obtain ⟨rfl, rfl⟩ := List.cons.inj text
        exact ⟨xs, ys, rfl, first, others⟩
  · rintro ⟨xs, ys, rfl, first, others⟩
    exact .again first others

/-! ## Deciding agrees with the meaning -/

theorem coversEmpty_iff : p.coversEmpty = true ↔ Covers p [] := by
  induction p with
  | never => exact iff_of_false Bool.false_ne_true not_covers_never
  | done => exact iff_of_true rfl .done
  | one allowed => exact iff_of_false Bool.false_ne_true fun covered => by cases covered
  | next p q ihp ihq => rw [coversEmpty, Bool.and_eq_true, ihp, ihq, covers_next_nil_iff]
  | either p q ihp ihq => rw [coversEmpty, Bool.or_eq_true, ihp, ihq, covers_either_iff]
  | many p => exact iff_of_true rfl .stop

theorem covers_andThen_iff : Covers (andThen p q) cs ↔ Covers (next p q) cs := by
  unfold andThen
  split
  · rw [covers_next_iff]
    refine iff_of_false not_covers_never ?_
    rintro ⟨xs, ys, -, first, -⟩
    exact not_covers_never first
  · rw [covers_next_iff]
    constructor
    · intro covered
      exact ⟨[], cs, rfl, .done, covered⟩
    · rintro ⟨xs, ys, rfl, first, second⟩
      cases first
      exact second
  · exact Iff.rfl

theorem covers_orElse_iff : Covers (orElse p q) cs ↔ Covers p cs ∨ Covers q cs := by
  unfold orElse
  split
  · exact ⟨.inr, fun covered => covered.resolve_left not_covers_never⟩
  · exact ⟨.inl, fun covered => covered.resolve_right not_covers_never⟩
  · exact covers_either_iff

theorem covers_ite_done_iff {ok : Bool} :
    Covers (if ok = true then done else never) cs ↔ ok = true ∧ cs = [] := by
  cases ok with
  | false => exact iff_of_false not_covers_never fun both => Bool.false_ne_true both.1
  | true =>
    constructor
    · intro covered
      cases covered
      exact ⟨rfl, rfl⟩
    · rintro ⟨-, rfl⟩
      exact .done

theorem covers_one_iff {allowed : Char → Bool} :
    Covers (one allowed) (c :: cs) ↔ allowed c = true ∧ cs = [] := by
  constructor
  · intro covered
    cases covered with
    | one ok => exact ⟨ok, rfl⟩
  · rintro ⟨ok, rfl⟩
    exact .one ok

/-- What remains of a pattern after a character covers what may stand behind that character. -/
theorem covers_after_iff : Covers (p.after c) cs ↔ Covers p (c :: cs) := by
  induction p generalizing cs with
  | never => exact iff_of_false not_covers_never not_covers_never
  | done => exact iff_of_false not_covers_never fun covered => by cases covered
  | one allowed => rw [after, covers_ite_done_iff, covers_one_iff]
  | either p q ihp ihq => rw [after, covers_orElse_iff, ihp, ihq, covers_either_iff]
  | many p ih =>
    rw [after, covers_andThen_iff, covers_next_iff, covers_many_cons_iff]
    simp only [ih]
  | next p q ihp ihq =>
    -- The character belongs to the second pattern only if the first one covers nothing.
    rw [covers_next_cons_iff, ← coversEmpty_iff, after]
    by_cases empty : p.coversEmpty = true
    · rw [if_pos empty, covers_orElse_iff, covers_andThen_iff, covers_next_iff, ihq]
      simp only [ihp, empty, true_and]
    · rw [if_neg empty, covers_andThen_iff, covers_next_iff]
      simp only [ihp, empty, Bool.false_eq_true, false_and, or_false]

/-- Deciding by derivatives agrees with the meaning of a pattern. -/
theorem accepts_iff : p.accepts cs = true ↔ Covers p cs := by
  induction cs generalizing p with
  | nil => exact coversEmpty_iff
  | cons c cs ih => exact (ih (p := p.after c)).trans covers_after_iff

end SchemaBaseline.Text.Pattern
