import SchemaBaseline.Proofs.Yaml.Cursor
import SchemaBaseline.Yaml.Token.Scalar

/-!
# Reading between quotes

`Spells quote written text` says how the characters between two quotes write a text, piece by
piece: characters that stand for themselves, doubled quotes, escapes, blanks within a line, line
breaks with what they count for, and breaks that an escape cuts off. `readQuoted_spells` is the
one fact about the reader: it reads the text and stops behind the closing quote. The fuel of the
reader is never short, since each piece takes a character at least.
-/

namespace SchemaBaseline.Yaml

/-- A character that a line break inside a scalar counts for. -/
def IsKeptBreak (c : Char) : Prop :=
  c = '\n' ∨ c = '\u2028' ∨ c = '\u2029'

/-- What follows a backslash that writes a character: a letter, or a letter that announces
hexadecimal digits. -/
inductive EscapeOf (c : Char) : List Char → Prop
  | short {letter : Char} (means : shortEscape? letter = some c.toNat) : EscapeOf c [letter]
  | long {letter : Char} {digits : List Char} (notShort : shortEscape? letter = none)
    (announces : longEscape? letter = some digits.length)
    (hex : ∀ d ∈ digits, (hexDigit? d).isSome) (means : hexNumber digits = c.toNat) :
    EscapeOf c (letter :: digits)

/-- Whether a blank before some characters stays within its line: behind more blanks comes
something visible. -/
def StaysInLine (cs : List Char) : Prop :=
  Visible (cs.dropWhile (· == ' '))

/-- How the characters between two quotes write a text. -/
inductive Spells (quote : Char) : List Char → List Char → Prop
  | nil : Spells quote [] []
  | char {c : Char} {written text : List Char} (notQuote : c ≠ quote)
    (notEscape : quote = '"' → c ≠ '\\') (visible : isBlankOrEnd c = false)
    (later : Spells quote written text) : Spells quote (c :: written) (c :: text)
  | doubled {written text : List Char} (single : quote = '\'')
    (later : Spells quote written text) :
      Spells quote ('\'' :: '\'' :: written) ('\'' :: text)
  | blank {written text : List Char} (inLine : StaysInLine written)
    (later : Spells quote written text) :
      Spells quote (' ' :: written) (' ' :: text)
  | breaks {b : Char} {bs written text : List Char} {indent : Nat} (first : IsKeptBreak b)
      (others : ∀ d ∈ bs, IsKeptBreak d) (indented : 0 < indent) (visible : Visible written)
      (later : Spells quote written text) :
      Spells quote (b :: (bs ++ (List.replicate indent ' ' ++ written)))
        (foldedBreak b bs ++ text)
  | escape {c : Char} {e written text : List Char} (double : quote = '"') (writes : EscapeOf c e)
      (later : Spells quote written text) : Spells quote ('\\' :: (e ++ written)) (c :: text)
  | cut {written text : List Char} {indent : Nat} (double : quote = '"') (indented : 0 < indent)
      (visible : Visible written) (later : Spells quote written text) :
      Spells quote ('\\' :: (newLine indent ++ written)) text

/-! ## Pieces of the relation -/

theorem IsKeptBreak.isBlankOrEnd {c : Char} (kept : IsKeptBreak c) : isBlankOrEnd c = true := by
  rcases kept with rfl | rfl | rfl <;> decide

theorem IsKeptBreak.ne_space {c : Char} (kept : IsKeptBreak c) : c ≠ ' ' := by
  rcases kept with rfl | rfl | rfl <;> decide

theorem IsKeptBreak.not_blankOrTab {c : Char} (kept : IsKeptBreak c) :
    isBlankOrTab c = false := by
  rcases kept with rfl | rfl | rfl <;> decide

theorem StaysInLine.cons_space {cs : List Char} (inLine : StaysInLine cs) :
    StaysInLine (' ' :: cs) := by
  unfold StaysInLine at inLine ⊢
  rwa [List.dropWhile_cons_of_pos (by decide)]

theorem StaysInLine.of_visible {cs : List Char} (visible : Visible cs) : StaysInLine cs := by
  cases cs with
  | nil => exact visible_nil
  | cons c cs =>
      have notSpace := ne_space_of_not_blankOrEnd (visible_cons.mp visible)
      rw [StaysInLine, List.dropWhile_cons_of_neg (by simpa using notSpace)]
      exact visible

/-- Blanks that stay in their line come before something visible. -/
theorem StaysInLine.exists_blanks {cs : List Char} (inLine : StaysInLine cs) :
    ∃ k more, cs = List.replicate k ' ' ++ more ∧ Visible more := by
  induction cs with
  | nil => exact ⟨0, [], rfl, visible_nil⟩
  | cons c cs ih =>
      by_cases space : c = ' '
      · subst space
        rw [StaysInLine, List.dropWhile_cons_of_pos (by decide)] at inLine
        obtain ⟨k, more, rfl, visible⟩ := ih inLine
        exact ⟨k + 1, more, rfl, visible⟩
      · rw [StaysInLine, List.dropWhile_cons_of_neg (by simpa using space)] at inLine
        exact ⟨0, c :: cs, rfl, inLine⟩

theorem Spells.of_blank {quote : Char} {written text : List Char}
    (spells : Spells quote (' ' :: written) (' ' :: text)) : Spells quote written text := by
  generalize before : ' ' :: written = whole at spells
  generalize after : ' ' :: text = wholeText at spells
  cases spells with
  | nil => cases before
  | char _ _ visible _ =>
      obtain ⟨rfl, rfl⟩ := List.cons.inj before
      exact absurd visible (by decide)
  | doubled _ _ => exact absurd (List.cons.inj before).1 (by decide)
  | blank _ later =>
      obtain ⟨-, rfl⟩ := List.cons.inj before
      obtain ⟨-, rfl⟩ := List.cons.inj after
      exact later
  | breaks first _ _ _ _ => exact absurd (List.cons.inj before).1.symm first.ne_space
  | escape _ _ _ => exact absurd (List.cons.inj before).1 (by decide)
  | cut _ _ _ _ => exact absurd (List.cons.inj before).1 (by decide)

/-! ## The parts of the reader -/

section Reader

variable {c : Cursor} {fuel : Nat} {tail : List Char} (start : Mark)

theorem Cursor.takeBreak_kept {b : Char} (kept : IsKeptBreak b) (same : c.rest = b :: tail) :
    c.takeBreak = some (b, c.next) := by
  rcases kept with rfl | rfl | rfl <;> simp [Cursor.takeBreak, Cursor.head_eq same, isBreak]

theorem Cursor.skip_blankOrTab {k : Nat} (same : c.rest = List.replicate k ' ' ++ tail)
    (visible : Visible tail) :
    c.skip isBlankOrTab = c.forward k :=
  Cursor.skip_blanks_eq (by decide)
    (fun d visible => by
      simp [isBlankOrTab, ne_space_of_not_blankOrEnd visible, ne_tab_of_not_blankOrEnd visible])
        same visible

/-- Further breaks are taken, and so is the indentation behind them. -/
theorem quotedBreaks_eq {bs : List Char} {indent : Nat} (kept : ∀ d ∈ bs, IsKeptBreak d)
    (indented : 0 < indent) (visible : Visible tail)
    (same : c.rest = bs ++ (List.replicate indent ' ' ++ tail)) (enough : bs.length < fuel)
    (acc : List Char) :
    quotedBreaks start fuel c acc = .ok (acc.reverse ++ bs, c.forward (bs.length + indent)) := by
  induction bs generalizing c fuel acc with
  | nil =>
      obtain ⟨fuel, rfl⟩ : ∃ n, fuel = n + 1 :=
        ⟨fuel - 1, by rw [List.length_nil] at enough; omega⟩
      obtain ⟨k, rfl⟩ : ∃ n, indent = n + 1 := ⟨indent - 1, by omega⟩
      rw [List.nil_append] at same
      have noMark : c.atDocumentMark = false := Cursor.atDocumentMark_of_blank (by
        rw [List.replicate_succ, List.cons_append] at same
        rw [Cursor.head_eq same]
        decide)
      have behind : (c.forward (k + 1)).rest = tail := by
        simpa using Cursor.rest_forward_append same
      simp only [quotedBreaks, noMark, Cursor.skip_blankOrTab same visible,
        Cursor.takeBreak_visible behind visible, List.length_nil, Nat.zero_add, List.append_nil]
      rfl
  | cons b bs ih =>
      obtain ⟨fuel, rfl⟩ : ∃ n, fuel = n + 1 := ⟨fuel - 1, by omega⟩
      have first : IsKeptBreak b := kept b List.mem_cons_self
      have noMark : c.atDocumentMark = false := Cursor.atDocumentMark_of_blank (by
        rw [Cursor.head_eq same]
        exact first.isBlankOrEnd)
      have noBlanks : c.skip isBlankOrTab = c := Cursor.skip_none same first.not_blankOrTab
      have others := @ih c.next fuel (fun d member => kept d (List.mem_cons_of_mem _ member))
        (Cursor.rest_next_cons same) (by rw [List.length_cons] at enough; omega) (b :: acc)
      simp only [quotedBreaks, noMark, noBlanks, Cursor.takeBreak_kept first same]
      rw [if_neg Bool.false_ne_true, others, List.reverse_cons, List.append_assoc,
        Cursor.next_eq_forward, Cursor.forward_forward, List.length_cons]
      exact congrArg (fun n => Except.ok (_, c.forward n)) (by omega)

/-- The gap at a line break counts for what the folded breaks are. -/
theorem quotedGap_breaks {b : Char} {bs : List Char} {indent : Nat} (first : IsKeptBreak b)
    (others : ∀ d ∈ bs, IsKeptBreak d) (indented : 0 < indent) (visible : Visible tail)
    (same : c.rest = b :: (bs ++ (List.replicate indent ' ' ++ tail)))
    (long : c.rest.length ≤ c.size) :
    quotedGap start c = .ok (codesOf (foldedBreak b bs), c.forward (bs.length + indent + 1)) := by
  have noBlanks : c.skip isBlankOrTab = c := Cursor.skip_none same first.not_blankOrTab
  have going : c.atEnd = false := by simp [Cursor.atEnd, same]
  have enough : bs.length < c.next.size := by
    rw [same] at long
    simp only [List.length_cons, List.length_append, Cursor.size_next] at long ⊢
    omega
  have further := @quotedBreaks_eq c.next c.next.size _ start _ _ others indented visible
    (Cursor.rest_next_cons same) enough []
  simp only [quotedGap, noBlanks, going, Cursor.takeBreak_kept first same]
  rw [if_neg Bool.false_ne_true, further, Cursor.next_eq_forward, Cursor.forward_forward]
  exact congrArg (fun n => Except.ok (_, c.forward n)) (by omega)

/-- A gap within a line is the blanks there. -/
theorem quotedGap_blanks {k : Nat} {d : Char} (same : c.rest = List.replicate k ' ' ++ d :: tail)
    (visible : isBlankOrEnd d = false) :
    quotedGap start c = .ok (codesOf (List.replicate k ' '), c.forward k) := by
  have run : c.run isBlankOrTab = List.replicate k ' ' := by
    refine Cursor.run_eq same (fun e member => ?_) fun e member => ?_
    · rw [List.eq_of_mem_replicate member]
      decide
    · obtain rfl : d = e := by simpa using member
      simp [isBlankOrTab, ne_space_of_not_blankOrEnd visible, ne_tab_of_not_blankOrEnd visible]
  have skipped : c.skip isBlankOrTab = c.forward k :=
    Cursor.skip_blankOrTab same (visible_cons.mpr visible)
  have behind : (c.forward k).rest = d :: tail := by
    simpa using Cursor.rest_forward_append same
  have going : (c.forward k).atEnd = false := by simp [Cursor.atEnd, behind]
  simp only [quotedGap, run, skipped, going,
    Cursor.takeBreak_visible behind (visible_cons.mpr visible)]
  rfl

/-- No digit is missing where all of those announced are there. -/
theorem firstNonHex?_eq_none {digits : List Char} (hex : ∀ d ∈ digits, (hexDigit? d).isSome)
    (same : c.rest = digits ++ tail) : firstNonHex? c digits.length = none := by
  rw [firstNonHex?, List.find?_eq_none]
  intro d member
  obtain ⟨i, among, rfl⟩ := List.mem_map.mp member
  have small : i < digits.length := List.mem_range.mp among
  have there : c.peek i = digits[i] := by
    rw [Cursor.peek, same, List.getD_eq_getElem?_getD, List.getElem?_append_left small,
      List.getElem?_eq_getElem small, Option.getD_some]
  have isHex := hex _ (List.getElem_mem small)
  rw [there]
  simpa [← Option.isSome_iff_ne_none] using isHex

theorem readEscape_escapeOf {d : Char} {e : List Char} (writes : EscapeOf d e)
    (same : c.rest = e ++ tail) :
    readEscape start c = .ok ([d.toNat], c.forward e.length) := by
  cases writes with
  | @short letter means =>
      have head : c.head = letter := Cursor.head_eq same
      simp only [readEscape, head, means]
      rfl
  | @long letter digits notShort announces hex means =>
      have head : c.head = letter := Cursor.head_eq same
      have behind : c.next.rest = digits ++ tail := Cursor.rest_next_cons same
      have code : hexNumber (c.next.rest.take digits.length) = d.toNat := by
        rw [behind, List.take_left, means]
      have isCode : ¬ 0x110000 ≤ d.toNat := by
        have valid := d.valid
        have equal : d.toNat = d.val.toNat := rfl
        rw [UInt32.isValidChar, Nat.isValidChar] at valid
        omega
      simp only [readEscape, head, notShort, announces, firstNonHex?_eq_none hex behind, code,
        if_neg isCode, List.length_cons]
      rfl

/-- A cut counts for nothing. -/
theorem readEscape_cut {indent : Nat} (indented : 0 < indent) (visible : Visible tail)
    (same : c.rest = newLine indent ++ tail) (long : c.rest.length ≤ c.size) :
    readEscape start c = .ok ([], c.forward (indent + 1)) := by
  have head : c.head = '\n' := Cursor.head_eq same
  have further := @quotedBreaks_eq c.next c.next.size _ start [] _
    (List.forall_mem_nil _) indented visible (Cursor.rest_next_cons same)
    (by
      rw [same, List.length_append, length_newLine] at long
      rw [List.length_nil, Cursor.size_next]
      omega) []
  have cut : readEscape start c = (quotedBreaks start c.next.size c.next []).bind fun found =>
      .ok (codesOf found.1, found.2) := by
    simp only [readEscape, head, Cursor.takeBreak_lineFeed same]
    rfl
  rw [cut, further, Except.bind, Cursor.next_eq_forward, Cursor.forward_forward]
  exact congrArg (fun n => Except.ok (_, c.forward n)) (by rw [List.length_nil]; omega)

end Reader

/-! ## Whole scalars -/

/-- The two quotes. -/
def IsQuote (quote : Char) : Prop :=
  quote = '\'' ∨ quote = '"'

theorem IsQuote.visible {quote : Char} (isQuote : IsQuote quote) :
    isBlankOrEnd quote = false := by
  rcases isQuote with rfl | rfl <;> decide

section Whole

variable {quote : Char} {c : Cursor} {fuel : Nat} {tail written : List Char} (start : Mark)
    (acc : List Nat)

theorem Visible.append_quote (isQuote : IsQuote quote) (visible : Visible written) :
    Visible (written ++ quote :: tail) := by
  cases written with
  | nil => exact visible_cons.mpr isQuote.visible
  | cons d written => exact visible_cons.mpr (visible_cons.mp visible)

theorem quotedCodes_char {d : Char} (notQuote : d ≠ quote) (notEscape : quote = '"' → d ≠ '\\')
    (visible : isBlankOrEnd d = false) (same : c.rest = d :: tail) :
    quotedCodes quote start (fuel + 1) c acc =
      quotedCodes quote start fuel c.next (d.toNat :: acc) := by
  have noEscape : ¬ (quote = '"' && d = '\\') = true := by
    rw [Bool.and_eq_true, decide_eq_true_eq, decide_eq_true_eq]
    exact fun both => notEscape both.1 both.2
  simp only [quotedCodes, Cursor.head_eq same, if_neg notQuote, if_neg noEscape, visible,
    Bool.false_eq_true, if_false]

theorem quotedCodes_doubled (same : c.rest = '\'' :: '\'' :: tail) :
    quotedCodes '\'' start (fuel + 1) c acc = quotedCodes '\'' start fuel (c.forward 2)
      ('\''.toNat :: acc) := by
  simp [quotedCodes, Cursor.head_eq same, Cursor.peek_one_eq same]

theorem quotedCodes_close (closed : tail.head? ≠ some '\'') (same : c.rest = quote :: tail) :
    quotedCodes quote start (fuel + 1) c acc = .ok (acc.reverse, c.next) := by
  have single : c.peek 1 ≠ '\'' := by
    cases tail with
    | nil => simp [Cursor.peek, same]
    | cons d tail => simpa [Cursor.peek_one_eq same] using closed
  simp [quotedCodes, Cursor.head_eq same, single]

theorem quotedCodes_gap {d : Char} (isQuote : IsQuote quote) (blank : isBlankOrEnd d = true)
    (same : c.rest = d :: tail) :
    quotedCodes quote start (fuel + 1) c acc = (do
      let (more, c) ← quotedGap start c
      quotedCodes quote start fuel c (more.reverse ++ acc)) := by
  have notQuote : d ≠ quote := by
    rintro rfl
    exact absurd (isQuote.visible.symm.trans blank) (by decide)
  have noEscape : ¬ (quote = '"' && d = '\\') = true := by
    rw [Bool.and_eq_true, decide_eq_true_eq, decide_eq_true_eq]
    rintro ⟨-, rfl⟩
    exact absurd blank (by decide)
  simp only [quotedCodes, Cursor.head_eq same, if_neg notQuote, if_neg noEscape, blank, if_true]

theorem quotedCodes_escape (same : c.rest = '\\' :: tail) :
    quotedCodes '"' start (fuel + 1) c acc = (do
      let (more, c) ← readEscape start c.next
      quotedCodes '"' start fuel c (more.reverse ++ acc)) := by
  have head := Cursor.head_eq same
  simp only [quotedCodes, head]
  rfl

theorem read_congr (c : Cursor) {codes codes' : List Nat} {m n : Nat} (same : codes = codes')
    (place : m = n) :
    (Except.ok (codes, c.forward m) : Except Stop (List Nat × Cursor)) =
      .ok (codes', c.forward n) := by
  rw [same, place]

/-- A blank is read by itself: the gap that begins with it goes on where the next step begins. -/
theorem quotedCodes_blank (isQuote : IsQuote quote) (inLine : StaysInLine written)
    (same : c.rest = ' ' :: (written ++ quote :: tail)) :
    ∃ rounds, fuel ≤ rounds ∧
      quotedCodes quote start (fuel + 1) c acc =
        quotedCodes quote start rounds c.next (' '.toNat :: acc) := by
  obtain ⟨k, more, rfl, visible⟩ := inLine.exists_blanks
  have behind : ∃ d more', more ++ quote :: tail = d :: more' ∧ isBlankOrEnd d = false := by
    cases more with
    | nil => exact ⟨quote, tail, rfl, isQuote.visible⟩
    | cons d more => exact ⟨d, more ++ quote :: tail, rfl, visible_cons.mp visible⟩
  obtain ⟨d, more', begins, visible⟩ := behind
  rw [List.append_assoc, begins] at same
  have whole := @quotedGap_blanks c _ start (k + 1) d same visible
  have next : c.next.rest = List.replicate k ' ' ++ d :: more' := Cursor.rest_next_cons same
  cases k with
  | zero =>
      refine ⟨fuel, Nat.le_refl _, ?_⟩
      rw [quotedCodes_gap start acc isQuote (by decide) same, whole]
      rfl
  | succ k =>
      refine ⟨fuel + 1, Nat.le_succ _, ?_⟩
      rw [quotedCodes_gap start acc isQuote (by decide) same, whole,
        quotedCodes_gap start _ isQuote (by decide) next, quotedGap_blanks start next visible]
      show quotedCodes _ _ _ (c.forward (k + 2)) _ = quotedCodes _ _ _ (c.next.forward (k + 1)) _
      rw [Cursor.next_eq_forward, Cursor.forward_forward, Nat.add_comm 1]
      congr 1
      simp only [codesOf, List.map_replicate, List.reverse_replicate]
      rw [List.replicate_succ', List.append_assoc]
      rfl

/-- What characters between quotes spell is read from them, up to the closing quote. -/
theorem quotedCodes_spells (isQuote : IsQuote quote) {text : List Char}
    (spells : Spells quote written text) (closed : tail.head? ≠ some '\'')
    (same : c.rest = written ++ quote :: tail) (long : c.rest.length ≤ c.size)
    (enough : written.length < fuel) :
    quotedCodes quote start fuel c acc =
      .ok (acc.reverse ++ codesOf text, c.forward (written.length + 1)) := by
  induction spells generalizing c fuel acc with
  | nil =>
      obtain ⟨fuel, rfl⟩ : ∃ n, fuel = n + 1 := ⟨fuel - 1, by omega⟩
      rw [quotedCodes_close start acc closed same, Cursor.next_eq_forward]
      exact read_congr c (List.append_nil acc.reverse).symm rfl
  | char notQuote notEscape visible _ ih =>
      obtain ⟨fuel, rfl⟩ : ∃ n, fuel = n + 1 := ⟨fuel - 1, by omega⟩
      rw [List.length_cons] at enough
      rw [quotedCodes_char start acc notQuote notEscape visible same,
        ih _ (Cursor.rest_next_cons same) (Cursor.length_rest_forward_le 1 long) (by omega),
        Cursor.next_eq_forward, Cursor.forward_forward]
      exact read_congr c (by simp [codesOf]) (by rw [List.length_cons]; omega)
  | doubled single _ ih =>
      obtain ⟨fuel, rfl⟩ : ∃ n, fuel = n + 1 := ⟨fuel - 1, by omega⟩
      subst single
      rw [List.length_cons, List.length_cons] at enough
      have behind : (c.forward 2).rest = _ :=
        Cursor.rest_forward_append (show c.rest = ['\'', '\''] ++ _ from same)
      rw [quotedCodes_doubled start acc same, ih _ behind (Cursor.length_rest_forward_le 2 long)
        (by omega), Cursor.forward_forward]
      exact read_congr c (by simp [codesOf]) (by rw [List.length_cons, List.length_cons]; omega)
  | blank inLine _ ih =>
      obtain ⟨fuel, rfl⟩ : ∃ n, fuel = n + 1 := ⟨fuel - 1, by omega⟩
      rw [List.length_cons] at enough
      obtain ⟨rounds, more, step⟩ := @quotedCodes_blank _ _ fuel _ _ start acc isQuote inLine same
      rw [step, ih _ (Cursor.rest_next_cons same) (Cursor.length_rest_forward_le 1 long)
        (by omega), Cursor.next_eq_forward, Cursor.forward_forward]
      exact read_congr c (by simp [codesOf]) (by rw [List.length_cons]; omega)
  | @breaks b bs written _ indent first others indented visible _ ih =>
      obtain ⟨fuel, rfl⟩ : ∃ n, fuel = n + 1 := ⟨fuel - 1, by omega⟩
      simp only [List.cons_append, List.append_assoc] at same
      have gap :=
        quotedGap_breaks start first others indented (visible.append_quote isQuote) same long
      have behind : (c.forward (bs.length + indent + 1)).rest = written ++ quote :: tail := by
        have pieces : c.rest = b :: (bs ++ List.replicate indent ' ') ++
            (written ++ quote :: tail) := by simpa using same
        have dropped := Cursor.rest_forward_append pieces
        rwa [List.length_cons, List.length_append, List.length_replicate] at dropped
      simp only [List.length_cons, List.length_append, List.length_replicate] at enough ⊢
      rw [quotedCodes_gap start acc isQuote first.isBlankOrEnd same, gap]
      show quotedCodes _ _ _ _ _ = _
      rw [ih _ behind (Cursor.length_rest_forward_le _ long) (by omega), Cursor.forward_forward]
      exact read_congr c (by simp [codesOf]) (by omega)
  | @escape d e written _ double writes _ ih =>
      obtain ⟨fuel, rfl⟩ : ∃ n, fuel = n + 1 := ⟨fuel - 1, by omega⟩
      subst double
      simp only [List.cons_append, List.append_assoc] at same
      have escaped := readEscape_escapeOf start writes (Cursor.rest_next_cons same)
      have behind : (c.next.forward e.length).rest = written ++ '"' :: tail :=
        Cursor.rest_forward_append (Cursor.rest_next_cons same)
      rw [quotedCodes_escape start acc same, escaped]
      show quotedCodes _ _ _ _ _ = _
      rw [Cursor.next_eq_forward, Cursor.forward_forward] at behind ⊢
      simp only [List.length_cons, List.length_append] at enough ⊢
      rw [ih _ behind (Cursor.length_rest_forward_le _ long) (by omega), Cursor.forward_forward]
      exact read_congr c (by simp [codesOf]) (by omega)
  | @cut written _ indent double indented visible _ ih =>
      obtain ⟨fuel, rfl⟩ : ∃ n, fuel = n + 1 := ⟨fuel - 1, by omega⟩
      subst double
      simp only [List.cons_append, List.append_assoc] at same
      have next : c.next.rest = newLine indent ++ (written ++ '"' :: tail) :=
        Cursor.rest_next_cons same
      have nothing := readEscape_cut start indented (visible.append_quote isQuote) next
        (Cursor.length_rest_forward_le 1 long)
      have behind : (c.next.forward (indent + 1)).rest = written ++ '"' :: tail := by
        simpa using Cursor.rest_forward_append next
      rw [quotedCodes_escape start acc same, nothing]
      show quotedCodes _ _ _ _ _ = _
      rw [Cursor.next_eq_forward, Cursor.forward_forward] at behind ⊢
      simp only [List.length_cons, List.length_append, length_newLine] at enough ⊢
      rw [ih _ behind (Cursor.length_rest_forward_le _ long) (by omega), Cursor.forward_forward]
      exact read_congr c (by simp [codesOf]) (by omega)

/-- A quoted scalar is read as what the characters between its quotes spell. -/
theorem readQuoted_spells (isQuote : IsQuote quote) {text : List Char}
    (spells : Spells quote written text) (closed : tail.head? ≠ some '\'')
    (same : c.rest = quote :: (written ++ quote :: tail)) (long : c.rest.length ≤ c.size) :
    readQuoted c = .ok (codesOf text, c.forward (written.length + 2)) := by
  have next := Cursor.rest_next_cons same
  have enough : written.length < c.size + 1 := by
    rw [same] at long
    simp only [List.length_cons, List.length_append] at long
    omega
  rw [readQuoted, Cursor.head_eq same, quotedCodes_spells _ [] isQuote spells closed next
    (Cursor.length_rest_forward_le 1 long) enough, Cursor.next_eq_forward, Cursor.forward_forward]
  exact read_congr c (List.nil_append _) (by omega)

end Whole

end SchemaBaseline.Yaml
