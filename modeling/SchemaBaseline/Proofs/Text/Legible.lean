/-!
# Writing that can be told apart

Two things that are written alike, each with something after it, need not be the same: where one
ends and the other goes on cannot be told from the characters. `Legible` says of a way of writing
that it always can, as long as what comes after is of a certain sort. A run of characters of a
class is legible before anything outside the class (`legible_run`), and lists of legible parts are
legible if their end cannot be taken for a further part (`Legible.items`, `Legible.joined`).
-/

namespace SchemaBaseline.Text

variable {α β : Type}

/-- What is written, followed by anything of the sort `after`, tells what has been written, as far
as `shown` shows it, and what follows. Only what `fits` is ever written. -/
def Legible (write : α → List Char) (shown : α → β) (fits : α → Prop) (after : List Char → Prop) :
    Prop :=
  ∀ ⦃a b : α⦄ ⦃x y : List Char⦄, fits a → fits b → after x → after y →
    write a ++ x = write b ++ y → shown a = shown b ∧ x = y

/-- A text that does not go on in a class of characters. -/
def StartsOutside (inside : Char → Bool) (x : List Char) : Prop :=
  ∀ c, x.head? = some c → inside c = false

@[simp]
theorem startsOutside_cons {inside : Char → Bool} {c : Char} {x : List Char} :
    StartsOutside inside (c :: x) ↔ inside c = false := by
  simp [StartsOutside]

theorem StartsOutside.takeWhile_eq_nil {inside : Char → Bool} {x : List Char}
    (outside : StartsOutside inside x) :
    x.takeWhile inside = [] := by
  cases x with
  | nil => rfl
  | cons c x => rw [List.takeWhile_cons, startsOutside_cons.mp outside, if_neg Bool.false_ne_true]

theorem StartsOutside.mono {inside wider : Char → Bool}
    (narrower : ∀ c, inside c = true → wider c = true) {x : List Char}
    (outside : StartsOutside wider x) : StartsOutside inside x := by
  intro c first
  rw [Bool.eq_false_iff]
  exact fun within => Bool.eq_false_iff.mp (outside c first) (narrower c within)

/-- A run of characters ends where the next one is outside their class. -/
theorem legible_run (inside : Char → Bool) :
    Legible id id (fun cs => ∀ c ∈ cs, inside c = true) (StartsOutside inside) := by
  intro u v x y within within' outside outside' same
  have runs := congrArg (List.takeWhile inside) same
  rw [id, id, List.takeWhile_append_of_pos within, List.takeWhile_append_of_pos within',
    outside.takeWhile_eq_nil, outside'.takeWhile_eq_nil, List.append_nil, List.append_nil] at runs
  subst runs
  exact ⟨rfl, List.append_cancel_left same⟩

/-! ## Lists -/

variable {write : α → List Char} {shown : α → β} {fits : α → Prop} {after : List Char → Prop}

/-- Parts one after the other, up to something that no part begins like. -/
theorem Legible.items (stop : List Char) (each : Legible write shown fits after)
    (next : ∀ a x, fits a → after (write a ++ x)) (last : ∀ x, after (stop ++ x))
    (apart : ∀ a x y, fits a → write a ++ x ≠ stop ++ y) :
    Legible (fun parts => parts.flatMap write ++ stop) (List.map shown)
      (fun parts => ∀ part ∈ parts, fits part) fun _ => True := by
  intro parts others x y fit fit' _ _ same
  -- Whatever comes after a part is a further part or the end.
  have follows (rest : List α) (restFit : ∀ part ∈ rest, fits part) (z : List Char) :
      after (rest.flatMap write ++ (stop ++ z)) := by
    cases rest with
    | nil => exact last z
    | cons a rest =>
      rw [List.flatMap_cons, List.append_assoc]
      exact next a _ (restFit a List.mem_cons_self)
  simp only [List.append_assoc] at same
  induction parts generalizing others with
  | nil =>
    cases others with
    | nil => exact ⟨rfl, List.append_cancel_left same⟩
    | cons b others =>
      rw [List.flatMap_cons, List.append_assoc] at same
      exact absurd same.symm (apart b _ _ (fit' b List.mem_cons_self))
  | cons a parts ih =>
    rw [List.flatMap_cons, List.append_assoc] at same
    have restFit := fun part member => fit part (List.mem_cons_of_mem a member)
    cases others with
    | nil => exact absurd same (apart a _ _ (fit a List.mem_cons_self))
    | cons b others =>
      rw [List.flatMap_cons, List.append_assoc] at same
      have restFit' := fun part member => fit' part (List.mem_cons_of_mem b member)
      obtain ⟨first, rest⟩ :=
        each (fit a List.mem_cons_self) (fit' b List.mem_cons_self) (follows parts restFit x)
          (follows others restFit' y) same
      obtain ⟨later, ended⟩ := ih restFit restFit' rest
      exact ⟨by rw [List.map_cons, List.map_cons, first, later], ended⟩

theorem intercalate_cons_eq_flatMap (separator first : List Char) (rest : List (List Char)) :
    separator.intercalate (first :: rest) = first ++ rest.flatMap (separator ++ ·) := by
  induction rest generalizing first with
  | nil => simp
  | cons second rest ih =>
    rw [List.intercalate_cons_cons, ih, List.flatMap_cons, List.append_assoc, List.append_assoc]

/-- Parts with a separator between them, up to something that neither a part nor the separator
begins like. -/
theorem Legible.joined (separator stop : List Char) (each : Legible write shown fits after)
    (next : ∀ x, after (separator ++ x)) (last : ∀ x, after (stop ++ x))
    (apart : ∀ x y, separator ++ x ≠ stop ++ y)
    (begun : ∀ a x y, fits a → write a ++ x ≠ stop ++ y) :
    Legible (fun parts => separator.intercalate (parts.map write) ++ stop) (List.map shown)
      (fun parts => ∀ part ∈ parts, fits part)
      fun _ => True := by
  -- All parts but the first come with a separator in front.
  have later : Legible (fun parts :
      List α => parts.flatMap (fun part => separator ++ write part) ++ stop) (List.map shown)
      (fun parts => ∀ part ∈ parts, fits part) fun _ => True := by
    have part : Legible (fun part => separator ++ write part) shown fits after := by
      intro a b x y fit fit' follows follows' same
      rw [List.append_assoc, List.append_assoc] at same
      exact each fit fit' follows follows' (List.append_cancel_left same)
    refine part.items stop ?_ last ?_
    · intro a x _
      rw [List.append_assoc]
      exact next _
    · intro a x y _
      rw [List.append_assoc]
      exact apart _ _
  have split (a : α) (rest : List α) (z : List Char) :
      separator.intercalate ((a :: rest).map write) ++ stop ++ z =
      write a ++ ((rest.flatMap fun part => separator ++ write part) ++ stop ++ z) := by
    rw [List.map_cons, intercalate_cons_eq_flatMap, List.flatMap_map, List.append_assoc,
      List.append_assoc, List.append_assoc]
  have follows (rest : List α) (z : List Char) :
      after ((rest.flatMap fun part => separator ++ write part) ++ stop ++ z) := by
    cases rest with
    | nil => exact last z
    | cons b rest =>
      rw [List.flatMap_cons, List.append_assoc, List.append_assoc, List.append_assoc]
      exact next _
  intro parts others x y fit fit' _ _ same
  cases parts with
  | nil =>
    cases others with
    | nil => exact ⟨rfl, List.append_cancel_left same⟩
    | cons b others =>
      rw [split] at same
      exact absurd same.symm (begun b _ _ (fit' b List.mem_cons_self))
  | cons a parts =>
    rw [split] at same
    cases others with
    | nil => exact absurd same (begun a _ _ (fit a List.mem_cons_self))
    | cons b others =>
      rw [split] at same
      obtain ⟨first, rest⟩ :=
        each (fit a List.mem_cons_self) (fit' b List.mem_cons_self) (follows parts x)
          (follows others y) same
      obtain ⟨others, ended⟩ :=
        later (fun part member => fit part (List.mem_cons_of_mem a member))
          (fun part member => fit' part (List.mem_cons_of_mem b member)) trivial trivial rest
      exact ⟨by rw [List.map_cons, List.map_cons, first, others], ended⟩

end SchemaBaseline.Text
