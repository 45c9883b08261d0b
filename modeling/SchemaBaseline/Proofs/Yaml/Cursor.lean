import SchemaBaseline.Yaml.Style

/-!
# Moving a cursor

The readers give no cursor but `c.forward n`, so that what they have read is told by its length.
The rest of a text behind it is `Cursor.rest_forward_append`; where that lies in its line is known
behind characters of width one (`Cursor.mark_forward_wide`) and behind an indented line break
(`Cursor.column_forward_newLine`).
-/

namespace SchemaBaseline.Yaml

/-- Whether characters begin with neither a blank, a tab nor the end of a line. There may be
none. -/
def Visible (cs : List Char) : Prop :=
  ∀ c ∈ cs.head?, isBlankOrEnd c = false

theorem visible_nil : Visible [] :=
  fun _ member => nomatch member

@[simp] theorem visible_cons {c : Char} {cs : List Char} :
    Visible (c :: cs) ↔ isBlankOrEnd c = false := by
  simp [Visible]

theorem isBreak_of_not_blankOrEnd {c : Char} (visible : isBlankOrEnd c = false) :
    isBreak c = false := by
  simp only [isBlankOrEnd, isSpaceOrEnd, isLineEnd, Bool.or_eq_false_iff] at visible
  exact visible.2.2.2

theorem ne_space_of_not_blankOrEnd {c : Char} (visible : isBlankOrEnd c = false) : c ≠ ' ' := by
  rintro rfl
  exact absurd visible (by decide)

theorem ne_tab_of_not_blankOrEnd {c : Char} (visible : isBlankOrEnd c = false) : c ≠ '\t' := by
  rintro rfl
  exact absurd visible (by decide)

theorem newLine_append (indent : Nat) (cs : List Char) :
    newLine indent ++ cs = '\n' :: (List.replicate indent ' ' ++ cs) := rfl

@[simp] theorem length_newLine (indent : Nat) : (newLine indent).length = indent + 1 := by
  simp [newLine]

/-- A character that takes one column and ends no line. -/
def IsWide (c : Char) : Prop :=
  isBreak c = false ∧ c ≠ '\ufeff'

theorem isWide_space : IsWide ' ' := by
  exact ⟨by decide, by decide⟩

namespace Cursor

variable {c : Cursor} {cs tail : List Char}

/-! ## What is behind -/

theorem rest_next (c : Cursor) : c.next.rest = c.rest.tail := by
  unfold next
  split <;> rename_i same <;> simp [same]

theorem rest_forward (c : Cursor) (n : Nat) : (c.forward n).rest = c.rest.drop n := by
  induction n generalizing c with
  | zero => rfl
  | succ n ih => rw [forward, ih, rest_next, List.drop_tail]

@[simp] theorem size_forward (c : Cursor) (n : Nat) : (c.forward n).size = c.size := by
  induction n generalizing c with
  | zero => rfl
  | succ n ih => rw [forward, ih, size_next]

theorem forward_forward (c : Cursor) (m n : Nat) :
    (c.forward m).forward n = c.forward (m + n) := by
  induction m generalizing c with
  | zero => rw [Nat.zero_add]; rfl
  | succ m ih => rw [Nat.succ_add, forward, ih]; rfl

theorem next_eq_forward (c : Cursor) : c.next = c.forward 1 := rfl

theorem rest_forward_append (same : c.rest = cs ++ tail) : (c.forward cs.length).rest = tail := by
  rw [rest_forward, same, List.drop_left]

/-- A cursor stays within its text. -/
theorem length_rest_forward_le (n : Nat) (long : c.rest.length ≤ c.size) :
    (c.forward n).rest.length ≤ (c.forward n).size := by
  rw [rest_forward, List.length_drop, size_forward]
  omega

theorem rest_next_cons {d : Char} (same : c.rest = d :: tail) : c.next.rest = tail := by
  rw [rest_next, same, List.tail_cons]

theorem head_eq {d : Char} (same : c.rest = d :: tail) : c.head = d := by
  simp [head, peek, same]

theorem head_eq_nul (same : c.rest = []) : c.head = '\x00' := by
  simp [head, peek, same]

theorem head_ne {d : Char} (same : c.rest = cs) (other : cs.head? ≠ some d)
    (notEnd : d ≠ '\x00') : c.head ≠ d := by
  cases cs with
  | nil =>
      rw [head_eq_nul same]
      exact notEnd.symm
  | cons e cs =>
      rw [head_eq same]
      exact fun equal => other (congrArg some equal)

theorem peek_one_eq {d e : Char} (same : c.rest = d :: e :: tail) : c.peek 1 = e := by
  simp [peek, same]

/-! ## Runs of characters -/

theorem run_eq {p : Char → Bool} (same : c.rest = cs ++ tail) (all : ∀ d ∈ cs, p d = true)
    (ends : ∀ d ∈ tail.head?, p d = false) : c.run p = cs := by
  rw [run, same, List.takeWhile_append_of_pos all]
  cases tail with
  | nil => simp
  | cons d tail => simp [ends d rfl]

theorem skip_eq {p : Char → Bool} (same : c.rest = cs ++ tail) (all : ∀ d ∈ cs, p d = true)
    (ends : ∀ d ∈ tail.head?, p d = false) : c.skip p = c.forward cs.length := by
  rw [skip, run_eq same all ends]

theorem skip_none {p : Char → Bool} {d : Char} (same : c.rest = d :: tail) (ends : p d = false) :
    c.skip p = c := by
  rw [skip, run, same, List.takeWhile_cons_of_neg (by simp [ends])]
  rfl

theorem skipSpaces_eq {k : Nat} (same : c.rest = List.replicate k ' ' ++ tail)
    (visible : Visible tail) :
    c.skipSpaces = c.forward k := by
  have skipped :=
    skip_eq (p := (· == ' ')) same (fun d member => by simp [List.eq_of_mem_replicate member])
      (fun d member => by simpa using ne_space_of_not_blankOrEnd (visible d member))
  rwa [List.length_replicate] at skipped

/-- Blanks and tabs before something visible are the blanks there. -/
theorem skip_blanks_eq {p : Char → Bool} {k : Nat} (space : p ' ' = true)
    (ends : ∀ d, isBlankOrEnd d = false → p d = false)
    (same : c.rest = List.replicate k ' ' ++ tail) (visible : Visible tail) :
    c.skip p = c.forward k := by
  have skipped := skip_eq same (fun d member => by rwa [List.eq_of_mem_replicate member])
    (fun d member => ends d (visible d member))
  rwa [List.length_replicate] at skipped

/-! ## Line breaks -/

theorem takeBreak_lineFeed (same : c.rest = '\n' :: tail) :
    c.takeBreak = some ('\n', c.next) := by
  simp [takeBreak, head_eq same, isBreak]

theorem takeBreak_none (inLine : isBreak c.head = false) : c.takeBreak = none := by
  have notReturn : c.head ≠ '\r' := fun same => by simp [same, isBreak] at inLine
  have noSeparator : ¬ (c.head = '\u2028' ∨ c.head = '\u2029') := by
    rintro (same | same) <;> simp [same, isBreak] at inLine
  simp [takeBreak, notReturn, noSeparator, inLine]

theorem isBreak_head_of_visible (same : c.rest = tail) (visible : Visible tail) :
    isBreak c.head = false := by
  cases tail with
  | nil => rw [head_eq_nul same]; decide
  | cons d tail => rw [head_eq same]; exact isBreak_of_not_blankOrEnd (visible_cons.mp visible)

theorem takeBreak_visible (same : c.rest = tail) (visible : Visible tail) : c.takeBreak = none :=
  takeBreak_none (isBreak_head_of_visible same visible)

/-! ## Columns -/

theorem mark_step_wide {m : Mark} {d : Char} {rest : List Char} (wide : IsWide d) :
    m.step d rest = ⟨m.index + 1, m.line, m.column + 1⟩ := by
  simp [Mark.step, wide.1, wide.2]

theorem mark_next_cons {d : Char} (same : c.rest = d :: tail) :
    c.next.mark = c.mark.step d tail := by
  unfold next
  rw [same]

/-- Characters of width one are passed within the line. -/
theorem mark_forward_wide (same : c.rest = cs ++ tail) (wide : ∀ d ∈ cs, IsWide d) :
    (c.forward cs.length).mark = ⟨c.mark.index + cs.length, c.mark.line,
      c.mark.column + cs.length⟩ := by
  induction cs generalizing c with
  | nil => rfl
  | cons d cs ih =>
      have step : c.next.mark = _ :=
        (mark_next_cons same).trans (mark_step_wide (wide d List.mem_cons_self))
      have later :=
        ih (rest_next_cons same) fun e member => wide e (List.mem_cons_of_mem _ member)
      rw [List.length_cons, forward, later, step]
      simp only [Mark.mk.injEq, true_and]
      omega

theorem column_forward_wide (same : c.rest = cs ++ tail) (wide : ∀ d ∈ cs, IsWide d) :
    (c.forward cs.length).column = c.column + cs.length := by
  rw [column, mark_forward_wide same wide, column]

theorem column_forward_spaces {k : Nat} (same : c.rest = List.replicate k ' ' ++ tail) :
    (c.forward k).column = c.column + k := by
  have moved := column_forward_wide same fun d member => by
    rw [List.eq_of_mem_replicate member]
    exact isWide_space
  rwa [List.length_replicate] at moved

/-- Behind an indented line break the column is the indentation. -/
theorem column_forward_newLine {k : Nat} (same : c.rest = newLine k ++ tail) :
    (c.forward (k + 1)).column = k := by
  have first : c.next.column = 0 := by
    rw [column, mark_next_cons same]
    rfl
  have spaces := column_forward_spaces (c := c.next) (rest_next_cons same)
  rw [Nat.add_comm k, ← forward_forward, ← next_eq_forward, spaces, first, Nat.zero_add]

/-! ## Marks of documents -/

/-- No document begins or ends where a line is indented, empty or begins with a blank. -/
theorem atDocumentMark_of_blank (blank : isBlankOrEnd c.head = true) :
    c.atDocumentMark = false := by
  unfold atDocumentMark startsWith
  rcases same : c.rest with _ | ⟨d, rest⟩
  · rfl
  · rw [head_eq same] at blank
    have notDash : d ≠ '-' := by rintro rfl; exact absurd blank (by decide)
    have notPoint : d ≠ '.' := by rintro rfl; exact absurd blank (by decide)
    have dashes : "---".toList.isPrefixOf (d :: rest) = false := by
      simp [List.isPrefixOf, Ne.symm notDash]
    have points : "...".toList.isPrefixOf (d :: rest) = false := by
      simp [List.isPrefixOf, Ne.symm notPoint]
    rw [dashes, points]
    rfl

end Cursor

end SchemaBaseline.Yaml
