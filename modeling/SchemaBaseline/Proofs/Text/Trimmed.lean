import SchemaBaseline.Proofs.Text.Legible
import SchemaBaseline.Text.Blank

/-!
# Trimmed texts

Trimming cuts a text into blanks, a text with no blank at its ends, and blanks again
(`exists_blanks_stripChars`, `trimmed_stripChars`), and there is only one such cut
(`stripChars_of_blanks`). So `stripChars` need not be unfolded where the ends of a text are known.
-/

namespace SchemaBaseline.Text

/-- A run of blanks, which may be empty. -/
def Blanks (cs : List Char) : Prop :=
  ∀ c ∈ cs, isBlank c = true

/-- A text without a blank at its ends. -/
structure Trimmed (cs : List Char) : Prop where
  first : StartsOutside isBlank cs
  last : StartsOutside isBlank cs.reverse

variable {cs before after : List Char}

/-! ## Runs of blanks -/

theorem Blanks.nil : Blanks [] :=
  List.forall_mem_nil _

theorem Blanks.singleton {c : Char} (blank : isBlank c = true) : Blanks [c] :=
  List.forall_mem_singleton.mpr blank

theorem Blanks.append (first : Blanks before) (second : Blanks after) :
    Blanks (before ++ after) :=
  List.forall_mem_append.mpr ⟨first, second⟩

theorem Blanks.reverse (blanks : Blanks cs) : Blanks cs.reverse :=
  fun c member => blanks c (List.mem_reverse.mp member)

theorem Blanks.filter_not (blanks : Blanks cs) : cs.filter (fun c => !isBlank c) = [] :=
  List.filter_eq_nil_iff.mpr fun c member => by simp [blanks c member]

theorem blanks_takeWhile (cs : List Char) : Blanks (cs.takeWhile isBlank) :=
  List.all_eq_true.mp List.all_takeWhile

theorem startsOutside_dropWhile (inside : Char → Bool) (cs : List Char) :
    StartsOutside inside (cs.dropWhile inside) := by
  intro c first
  have stops := List.head?_dropWhile_not inside cs
  rw [first] at stops
  simpa using stops

theorem Blanks.dropWhile_append (blanks : Blanks before) (outside : StartsOutside isBlank cs) :
    (before ++ cs).dropWhile isBlank = cs := by
  rw [List.dropWhile_append_of_pos blanks]
  cases cs with
  | nil => rfl
  | cons c cs =>
    rw [List.dropWhile_cons, startsOutside_cons.mp outside, if_neg Bool.false_ne_true]

theorem Blanks.dropEndWhile_append (blanks : Blanks after)
    (outside : StartsOutside isBlank cs.reverse) :
    dropEndWhile isBlank (cs ++ after) = cs := by
  rw [dropEndWhile, List.reverse_append, blanks.reverse.dropWhile_append outside,
    List.reverse_reverse]

/-! ## Trimming -/

/-- Whatever stands between blanks and has none at its ends is what trimming leaves. -/
theorem stripChars_of_blanks (blanks : Blanks before) (trimmed : Trimmed cs)
    (blanks' : Blanks after) :
    stripChars (before ++ cs ++ after) = cs := by
  rw [stripChars]
  cases cs with
  | nil =>
      have none : (before ++ [] ++ after).dropWhile isBlank = [] := by
        rw [List.append_nil, ← List.append_nil (before ++ after)]
        exact (blanks.append blanks').dropWhile_append trimmed.first
      rw [none]
      rfl
  | cons c cs =>
      have outside : StartsOutside isBlank (c :: cs ++ after) :=
        startsOutside_cons.mpr (startsOutside_cons.mp trimmed.first)
      rw [List.append_assoc, blanks.dropWhile_append outside]
      exact blanks'.dropEndWhile_append trimmed.last

/-- What is dropped at the end of a text is a run of blanks. -/
theorem exists_blanks_dropEndWhile (cs : List Char) :
    ∃ after, Blanks after ∧ cs = dropEndWhile isBlank cs ++ after := by
  refine ⟨(cs.reverse.takeWhile isBlank).reverse, (blanks_takeWhile _).reverse, ?_⟩
  rw [dropEndWhile, ← List.reverse_append, List.takeWhile_append_dropWhile, List.reverse_reverse]

theorem exists_blanks_stripChars (cs : List Char) :
    ∃ before after, Blanks before ∧ Blanks after ∧ cs = before ++ stripChars cs ++ after := by
  obtain ⟨after, blanks, split⟩ := exists_blanks_dropEndWhile (cs.dropWhile isBlank)
  refine ⟨cs.takeWhile isBlank, after, blanks_takeWhile cs, blanks, ?_⟩
  rw [stripChars, List.append_assoc, ← split, List.takeWhile_append_dropWhile]

theorem trimmed_stripChars (cs : List Char) : Trimmed (stripChars cs) where
  first := by
    obtain ⟨after, -, split⟩ := exists_blanks_dropEndWhile (cs.dropWhile isBlank)
    intro c first
    refine startsOutside_dropWhile isBlank cs c ?_
    rw [split, List.head?_append]
    exact Option.or_eq_some_iff.mpr (.inl first)
  last := by
    rw [stripChars, dropEndWhile, List.reverse_reverse]
    exact startsOutside_dropWhile isBlank _

/-- Trimming leaves just those texts alone that have no blank at their ends. -/
theorem stripChars_eq_self_iff : stripChars cs = cs ↔ Trimmed cs := by
  constructor
  · intro same
    rw [← same]
    exact trimmed_stripChars cs
  · intro trimmed
    simpa using stripChars_of_blanks .nil trimmed .nil

instance (cs : List Char) : Decidable (Trimmed cs) :=
  decidable_of_iff _ stripChars_eq_self_iff

/-- It does not matter whether the blanks in front have been dropped before. -/
theorem stripChars_dropWhile (cs : List Char) :
    stripChars (cs.dropWhile isBlank) = stripChars cs := by
  have again : (cs.dropWhile isBlank).dropWhile isBlank = cs.dropWhile isBlank :=
    Blanks.nil.dropWhile_append (startsOutside_dropWhile isBlank cs)
  rw [stripChars, stripChars, again]

/-- A visible character ends what trimming leaves. The blanks in front may be part of the text
that comes before it. -/
theorem stripChars_concat {c : Char} (visible : isBlank c = false) (blanks : Blanks before)
    (cs : List Char) (blanks' : Blanks after) :
    stripChars (before ++ cs ++ c :: after) = cs.dropWhile isBlank ++ [c] := by
  have trimmed : Trimmed (cs.dropWhile isBlank ++ [c]) := by
    refine ⟨?_, by simpa using visible⟩
    cases dropped : cs.dropWhile isBlank with
    | nil => simpa using visible
    | cons d rest => simpa [dropped] using startsOutside_dropWhile isBlank cs
  have cut : before ++ cs ++ c :: after = before ++ cs.takeWhile isBlank ++
      (cs.dropWhile isBlank ++ [c]) ++ after :=
    calc before ++ cs ++ c :: after
        = before ++ (cs.takeWhile isBlank ++ cs.dropWhile isBlank) ++ c :: after := by
          rw [List.takeWhile_append_dropWhile]
      _ = before ++ cs.takeWhile isBlank ++ (cs.dropWhile isBlank ++ [c]) ++ after := by
          simp only [List.append_assoc, List.cons_append, List.nil_append]
  rw [cut]
  exact stripChars_of_blanks (blanks.append (blanks_takeWhile cs)) trimmed blanks'

end SchemaBaseline.Text
