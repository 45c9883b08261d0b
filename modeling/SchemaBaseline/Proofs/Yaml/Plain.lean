import SchemaBaseline.Proofs.Text.Pattern
import SchemaBaseline.Proofs.Yaml.Style

/-!
# Reading plain scalars

A plain scalar gets the tag of the first form that covers it, and is a text if none does
(`Tag.ofPlain_cases`). So a text is written plain only if no form covers it
(`FitsPlain.not_covers`).

A text that may stand plain is `Words` with blanks between them, and the writer breaks lines only
at single blanks between two words. So the reader, which takes a word and a gap in turn, gets the
text back and stops before the next line (`readPlain_words`): the lines of the scalar are indented
further than the block, and the next line is not.
-/

namespace SchemaBaseline.Yaml

open Text.Pattern (accepts_iff)

/-! ## Words -/

/-- What a plain scalar holds between two gaps. -/
structure IsWord (word : List Char) : Prop where
  nonempty : word ≠ []
  visible : ∀ c ∈ word, isBlankOrEnd c = false
  wide : ∀ c ∈ word, IsWide c
  noColon : word.getLast? ≠ some ':'

/-- Words with blanks between them. A number sign may begin the first one only. -/
inductive Words : List Char → Prop
  | last {word : List Char} (isWord : IsWord word) : Words word
  | more {word rest : List Char} (isWord : IsWord word) (gap : Nat) (later : Words rest)
      (noComment : rest.head? ≠ some '#') : Words (word ++ (List.replicate (gap + 1) ' ' ++ rest))

theorem IsWord.cons {c : Char} {word : List Char} (isWord : IsWord word)
    (visible : isBlankOrEnd c = false) (wide : IsWide c) : IsWord (c :: word) where
  nonempty := List.cons_ne_nil _ _
  visible := List.forall_mem_cons.mpr ⟨visible, isWord.visible⟩
  wide := List.forall_mem_cons.mpr ⟨wide, isWord.wide⟩
  noColon := by
    obtain ⟨d, more, rfl⟩ := List.exists_cons_of_ne_nil isWord.nonempty
    rw [List.getLast?_cons_cons]
    exact isWord.noColon

theorem IsWord.singleton {c : Char} (visible : isBlankOrEnd c = false) (wide : IsWide c)
    (noColon : c ≠ ':') :
    IsWord [c] where
  nonempty := List.cons_ne_nil _ _
  visible := List.forall_mem_singleton.mpr visible
  wide := List.forall_mem_singleton.mpr wide
  noColon := fun same => noColon (Option.some.inj same)

theorem Words.cons {c : Char} {cs : List Char} (words : Words cs)
    (visible : isBlankOrEnd c = false) (wide : IsWide c) :
    Words (c :: cs) := by
  cases words with
  | last isWord => exact .last (isWord.cons visible wide)
  | more isWord gap later noComment => exact .more (isWord.cons visible wide) gap later noComment

theorem IsWord.visible_append {word : List Char} (isWord : IsWord word) (rest : List Char) :
    Visible (word ++ rest) := by
  obtain ⟨c, more, rfl⟩ := List.exists_cons_of_ne_nil isWord.nonempty
  exact visible_cons.mpr (isWord.visible c List.mem_cons_self)

theorem Words.visible {cs : List Char} (words : Words cs) : Visible cs := by
  cases words with
  | last isWord => exact List.append_nil cs ▸ isWord.visible_append []
  | more isWord gap later noComment => exact isWord.visible_append _

theorem Words.ne_nil {cs : List Char} (words : Words cs) : cs ≠ [] := by
  cases words with
  | last isWord => exact isWord.nonempty
  | more isWord gap later noComment => exact List.append_ne_nil_of_left_ne_nil isWord.nonempty _

theorem IsWord.isWide_of_head {word rest : List Char} {c : Char} (isWord : IsWord word)
    (first : (word ++ rest).head? = some c) : IsWide c := by
  obtain ⟨d, more, rfl⟩ := List.exists_cons_of_ne_nil isWord.nonempty
  obtain rfl : d = c := Option.some.inj first
  exact isWord.wide d List.mem_cons_self

theorem Words.isWide_of_head {cs : List Char} {c : Char} (words : Words cs)
    (first : cs.head? = some c) : IsWide c := by
  cases words with
  | last isWord => exact @IsWord.isWide_of_head cs [] c isWord (by rwa [List.append_nil])
  | more isWord gap later noComment => exact isWord.isWide_of_head first

/-- Characters without signs between them are words behind some blanks. -/
theorem exists_words {cs : List Char} (full : cs ≠ [])
    (each : ∀ c ∈ cs, IsWide c ∧ (c ≠ ' ' → isBlankOrEnd c = false))
    (noLastSpace : cs.getLast? ≠ some ' ') (noLastColon : cs.getLast? ≠ some ':')
    (noName : hasNeighbours (· == ':') isBlankOrEnd cs = false)
    (noComment : hasNeighbours isBlankOrEnd (· == '#') cs = false) :
    ∃ k rest, cs = List.replicate k ' ' ++ rest ∧ Words rest ∧
      (0 < k → rest.head? ≠ some '#') := by
  induction cs with
  | nil => exact absurd rfl full
  | cons c cs ih =>
      obtain ⟨wide, visible⟩ := each c List.mem_cons_self
      rcases cs with _ | ⟨d, cs⟩
      · have notSpace : c ≠ ' ' := fun same => noLastSpace (congrArg some same)
        have notColon : c ≠ ':' := fun same => noLastColon (congrArg some same)
        exact ⟨0, [c], rfl, .last (.singleton (visible notSpace) wide notColon),
          fun none => absurd none (by decide)⟩
      rw [List.getLast?_cons_cons] at noLastSpace noLastColon
      obtain ⟨k, rest, same, words, behind⟩ :=
        ih (List.cons_ne_nil _ _) (fun e member => each e (List.mem_cons_of_mem _ member))
          noLastSpace noLastColon (hasNeighbours_tail noName) (hasNeighbours_tail noComment)
      have nameApart := not_and_of_hasNeighbours noName
      have commentApart := not_and_of_hasNeighbours noComment
      by_cases space : c = ' '
      · subst space
        refine ⟨k + 1, rest, by rw [same]; rfl, words, fun _ => ?_⟩
        cases k with
        | zero =>
            rw [List.replicate_zero, List.nil_append] at same
            rw [← same]
            rintro number
            obtain rfl := Option.some.inj number
            exact absurd commentApart (by decide)
        | succ k => exact behind (Nat.succ_pos k)
      · refine ⟨0, c :: d :: cs, rfl, ?_, fun none => absurd none (by decide)⟩
        rw [same]
        cases k with
        | zero => exact words.cons (visible space) wide
        | succ k =>
            obtain ⟨rfl, -⟩ := List.cons.inj same
            have notColon : c ≠ ':' := by
              rintro rfl
              exact absurd nameApart (by decide)
            exact .more (.singleton (visible space) wide notColon) k words
              (behind (Nat.succ_pos k))

/-! ## What stands plain -/

/-- A plain scalar is null if there is nothing, it has the tag of the first form that covers it,
or it is a text and no form covers it. -/
theorem Tag.ofPlain_cases (cs : List Char) :
    cs = [] ∧ Tag.ofPlain cs = .null ∨
      (∃ earlier form later, forms = earlier ++ form :: later ∧
        form.1.Covers (withoutLastFeed cs) ∧
        (∀ other ∈ earlier, ¬ other.1.Covers (withoutLastFeed cs)) ∧ Tag.ofPlain cs = form.2) ∨
      (∀ form ∈ forms, ¬ form.1.Covers (withoutLastFeed cs)) ∧ Tag.ofPlain cs = .text := by
  by_cases empty : cs = []
  · subst empty
    exact .inl ⟨rfl, rfl⟩
  have nonempty : ¬ cs.isEmpty = true := mt List.isEmpty_iff.mp empty
  rw [Tag.ofPlain, if_neg nonempty]
  cases found : forms.find? fun form => form.1.accepts (withoutLastFeed cs) with
  | some form =>
    obtain ⟨accepted, earlier, later, split, refused⟩ := List.find?_eq_some_iff_append.mp found
    refine .inr (.inl ⟨earlier, form, later, split, accepts_iff.mp accepted, ?_, rfl⟩)
    intro other member covered
    have refused := refused other member
    rw [accepts_iff.mpr covered] at refused
    exact Bool.false_ne_true refused
  | none =>
    refine .inr (.inr ⟨fun form member covered => ?_, rfl⟩)
    exact absurd (accepts_iff.mpr covered) (List.find?_eq_none.mp found form member)

theorem withoutLastFeed_of_noBreak {cs : List Char} (noBreak : ∀ c ∈ cs, isInnerBreak c = false) :
    withoutLastFeed cs = cs := by
  refine if_neg fun last => ?_
  exact absurd (noBreak '\n' (List.mem_of_getLast? last)) (by decide)

/-- What makes a text fit to stand plain. -/
structure FitsPlain (cs : List Char) : Prop where
  tag : Tag.ofPlain cs = .text
  single : fitsSingle cs = true
  noBreak : ∀ c ∈ cs, isInnerBreak c = false
  noFirstSpace : cs.head? ≠ some ' '
  noLastSpace : cs.getLast? ≠ some ' '
  noLastColon : cs.getLast? ≠ some ':'
  noName : hasNeighbours (· == ':') isBlankOrEnd cs = false
  noComment : hasNeighbours isBlankOrEnd (· == '#') cs = false
  noSign : ∀ c rest, cs = c :: rest → isLeadingSign c = false ∧
    ((c == '?' || c == '-') && blankFollows rest) = false

theorem fitsPlain_of {cs : List Char} (plain : fitsPlain cs = true) : FitsPlain cs := by
  simp only [fitsPlain, Bool.and_eq_true, Bool.not_eq_true', beq_iff_eq, hasOuterBlank, hasSign,
    Bool.or_eq_false_iff, List.any_eq_false] at plain
  obtain ⟨⟨⟨⟨tag, single⟩, noBreak⟩, noFirst, noLast⟩,
      ⟨⟨⟨⟨_, noSign⟩, noName⟩, noLastColon⟩, noComment⟩⟩ :=
    plain
  refine ⟨tag, single, fun c member =>
    by simpa using noBreak c member, ?_, ?_, ?_, noName, noComment, ?_⟩
  · intro space
    simp [space] at noFirst
  · intro space
    simp [space] at noLast
  · intro colon
    simp [colon] at noLastColon
  · rintro c rest rfl
    simpa using noSign

theorem FitsPlain.ne_nil {cs : List Char} (plain : FitsPlain cs) : cs ≠ [] := by
  rintro rfl
  exact absurd plain.tag (by decide)

/-- A text is written plain only if no form covers it. -/
theorem FitsPlain.not_covers {cs : List Char} (plain : FitsPlain cs) :
    ∀ form ∈ forms, ¬ form.1.Covers cs := by
  have noText : ∀ form ∈ forms, form.2 ≠ .text := by decide
  rcases Tag.ofPlain_cases cs with
    ⟨empty, -⟩ | ⟨earlier, form, later, split, -, -, tag⟩ | ⟨none, -⟩
  · exact absurd empty plain.ne_nil
  · have member : form ∈ forms := split ▸ List.mem_append_right _ List.mem_cons_self
    exact absurd (tag.symm.trans plain.tag) (noText form member)
  · rwa [withoutLastFeed_of_noBreak plain.noBreak] at none

/-- A text that may stand plain is words. -/
theorem FitsPlain.words {cs : List Char} (plain : FitsPlain cs) : Words cs := by
  have each : ∀ c ∈ cs, IsWide c ∧ (c ≠ ' ' → isBlankOrEnd c = false) := by
    intro c member
    have unescaped : isUnescaped c = true := by
      have single := plain.single
      simp only [fitsSingle, Bool.and_eq_true, List.all_eq_true] at single
      exact single.1.1 c member
    have visible : c ≠ ' ' → isBlankOrEnd c = false := fun noSpace =>
      not_blankOrEnd_of_isUnescaped unescaped noSpace (plain.noBreak c member)
    have noOrderMark : c ≠ '\ufeff' := by rintro rfl; exact absurd unescaped (by decide)
    refine ⟨⟨?_, noOrderMark⟩, visible⟩
    by_cases space : c = ' '
    · subst space; decide
    · exact isBreak_of_not_blankOrEnd (visible space)
  obtain ⟨k, rest, same, words, -⟩ :=
    exists_words plain.ne_nil each plain.noLastSpace plain.noLastColon plain.noName
      plain.noComment
  cases k with
  | zero => exact same ▸ words
  | succ k =>
      have first := plain.noFirstSpace
      rw [same] at first
      exact absurd rfl first

/-! ## One word and one gap -/

/-- What may begin a token: nothing that is skipped. -/
structure OpensToken (cs : List Char) : Prop where
  visible : Visible cs
  noComment : cs.head? ≠ some '#'
  noOrderMark : cs.head? ≠ some '\ufeff'

theorem opensToken_cons {c : Char} {cs : List Char} (visible : isBlankOrEnd c = false)
    (noComment : c ≠ '#') (noOrderMark : c ≠ '\ufeff') : OpensToken (c :: cs) :=
  ⟨visible_cons.mpr visible, fun same => noComment (Option.some.inj same),
    fun same => noOrderMark (Option.some.inj same)⟩

/-- What may begin a line of a block. -/
structure OpensLine (cs : List Char) : Prop extends OpensToken cs where
  noDocument : "---".toList.isPrefixOf cs = false ∧ "...".toList.isPrefixOf cs = false

theorem opensLine_nil : OpensLine [] :=
  ⟨⟨visible_nil, by decide, by decide⟩, by decide⟩

theorem plainWord_eq {word rest : List Char} (visible : ∀ c ∈ word, isBlankOrEnd c = false)
    (noColon : word.getLast? ≠ some ':') (blank : ∀ c ∈ rest.head?, isBlankOrEnd c = true) :
    plainWord false (word ++ rest) = word := by
  induction word with
  | nil =>
      cases rest with
      | nil => rfl
      | cons c rest => simp [plainWord, blank c rfl]
  | cons c word ih =>
      have visibleFirst := visible c List.mem_cons_self
      cases word with
      | nil =>
          have notColon : c ≠ ':' := fun same => noColon (congrArg some same)
          have none : plainWord false rest = [] := ih (List.forall_mem_nil _) (by simp)
          simp [plainWord, visibleFirst, notColon, none]
      | cons d word =>
          have visibleNext := visible d (List.mem_cons_of_mem _ List.mem_cons_self)
          have later := ih (fun e member => visible e (List.mem_cons_of_mem _ member))
            (by rwa [List.getLast?_cons_cons] at noColon)
          rw [List.cons_append] at later
          rw [List.cons_append, List.cons_append, plainWord]
          simp [visibleFirst, visibleNext, later]

section Gaps

variable {c : Cursor} {tail : List Char}

theorem plainBreaks_spaces {k fuel : Nat} (same : c.rest = List.replicate k ' ' ++ tail)
    (visible : Visible tail) (enough : k < fuel) (breaks : List Char) :
    plainBreaks fuel c breaks = (some breaks.reverse, c.forward k) := by
  induction k generalizing c fuel with
  | zero =>
      obtain ⟨fuel, rfl⟩ : ∃ n, fuel = n + 1 := ⟨fuel - 1, by omega⟩
      rw [List.replicate_zero, List.nil_append] at same
      have notSpace : c.head ≠ ' ' := by
        rcases tail with _ | ⟨d, tail⟩
        · rw [Cursor.head_eq_nul same]
          decide
        · rw [Cursor.head_eq same]
          exact ne_space_of_not_blankOrEnd (visible_cons.mp visible)
      rw [plainBreaks, if_neg notSpace, Cursor.takeBreak_visible same visible]
      rfl
  | succ k ih =>
      obtain ⟨fuel, rfl⟩ : ∃ n, fuel = n + 1 := ⟨fuel - 1, by omega⟩
      rw [List.replicate_succ, List.cons_append] at same
      rw [plainBreaks, if_pos (Cursor.head_eq same), ih (Cursor.rest_next_cons same) (by omega)]
      rfl

/-- A line break and the indentation behind it count for a blank. -/
theorem plainGap_newLine {indent : Nat} (same : c.rest = newLine indent ++ tail)
    (visible : Visible tail) (noMark : c.next.atDocumentMark = false)
    (long : c.rest.length ≤ c.size) :
    plainGap c = ⟨[' '], true, c.forward (indent + 1)⟩ := by
  have noBlanks : c.skipSpaces = c := Cursor.skip_none same (by decide)
  have enough : indent < c.next.size := by
    rw [same, List.length_append, length_newLine] at long
    rw [Cursor.size_next]
    omega
  have behind := plainBreaks_spaces (Cursor.rest_next_cons same) visible enough []
  simp only [plainGap, noBlanks, Cursor.takeBreak_lineFeed same, noMark, behind]
  rw [Cursor.next_eq_forward, Cursor.forward_forward, Nat.add_comm 1]
  rfl

theorem plainGap_blanks {k : Nat} (same : c.rest = List.replicate k ' ' ++ tail)
    (visible : Visible tail) :
    plainGap c = ⟨List.replicate k ' ', false, c.forward k⟩ := by
  have run : c.run (· == ' ') = List.replicate k ' ' := by
    refine Cursor.run_eq same (fun d member => by simp [List.eq_of_mem_replicate member])
      fun d member => ?_
    simpa using ne_space_of_not_blankOrEnd (visible d member)
  have behind : (c.forward k).rest = tail := by
    simpa using Cursor.rest_forward_append same
  simp only [plainGap, run, Cursor.skipSpaces_eq same visible,
    Cursor.takeBreak_visible behind visible]

theorem atDocumentMark_next_newLine {indent : Nat} (same : c.rest = newLine indent ++ tail)
    (opens : 0 < indent ∨ OpensLine tail) : c.next.atDocumentMark = false := by
  have next : c.next.rest = List.replicate indent ' ' ++ tail := Cursor.rest_next_cons same
  rcases Nat.eq_zero_or_pos indent with rfl | indented
  · obtain opens := opens.resolve_left (Nat.lt_irrefl 0)
    rw [List.replicate_zero, List.nil_append] at next
    simp only [Cursor.atDocumentMark, Cursor.startsWith, next, opens.noDocument]
    rfl
  · obtain ⟨k, rfl⟩ : ∃ n, indent = n + 1 := ⟨indent - 1, by omega⟩
    refine Cursor.atDocumentMark_of_blank ?_
    rw [Cursor.head_eq next]
    decide

end Gaps

/-! ## Whole scalars -/

section Whole

variable {indent : Nat} {cs : List Char}

theorem foldedChars_word {word : List Char} (visible : ∀ c ∈ word, isBlankOrEnd c = false)
    (rest : List Char) (before : Option Char) (column : Nat) :
    ∃ before' column', foldedChars false indent before column (word ++ rest) =
      word ++ foldedChars false indent before' column' rest := by
  induction word generalizing before column with
  | nil => exact ⟨before, column, rfl⟩
  | cons c word ih =>
      obtain ⟨before', column', written⟩ :=
        ih (fun d member => visible d (List.mem_cons_of_mem _ member)) (some c)
          (column + (foldedChar false c).length)
      refine ⟨before', column', ?_⟩
      rw [List.cons_append, foldedChars_visible false (visible c List.mem_cons_self), written]
      rfl

/-- A gap is written as it is, or it is a single blank and the line is broken there. -/
theorem foldedChars_gap (gap : Nat) (before : Option Char) (column : Nat) :
    ∃ before' column', foldedChars false indent before column
      (List.replicate (gap + 1) ' ' ++ cs) =
        List.replicate (gap + 1) ' ' ++ foldedChars false indent before' column' cs ∨
      gap = 0 ∧ foldedChars false indent before column (List.replicate (gap + 1) ' ' ++ cs) =
        newLine indent ++ foldedChars false indent before' column' cs := by
  induction gap generalizing before column with
  | zero =>
      rcases @foldedChars_space cs indent false before column with
        kept | ⟨_, _, _, -, -, -, -, broken⟩
      · exact ⟨_, _, .inl kept⟩
      · exact ⟨_, _, .inr ⟨rfl, broken⟩⟩
  | succ gap ih =>
      rcases @foldedChars_space (List.replicate (gap + 1) ' ' ++ cs) indent false
        before column with
        kept | ⟨b, d, rest, -, -, same, notSpace, -⟩
      · obtain ⟨before', column', later | ⟨rfl, later⟩⟩ := ih (some ' ') (column + 1)
        · exact ⟨before', column', .inl
            (by rw [List.replicate_succ, List.cons_append, kept, later]; rfl)⟩
        · -- Behind a blank no line is broken.
          rcases @foldedChars_space cs indent false (some ' ') (column + 1) with
            kept' | ⟨b, _, _, same, notSpace, -⟩
          · exact ⟨_, _, .inl (by
              rw [List.replicate_succ, List.cons_append, kept]
              exact congrArg (' ' :: ·) kept')⟩
          · exact absurd (Option.some.inj same).symm notSpace
      · exact absurd (List.cons.inj same).1.symm notSpace

theorem foldedChars_head (words : Words cs) (before : Option Char) (column : Nat) :
    ∃ d more, foldedChars false indent before column cs = d :: more ∧ cs.head? = some d ∧
      isBlankOrEnd d = false := by
  obtain ⟨d, more, rfl⟩ := List.exists_cons_of_ne_nil words.ne_nil
  have visible := visible_cons.mp words.visible
  exact ⟨d, _, foldedChars_visible false visible before column, rfl, visible⟩

theorem plainWord_head {c : Cursor} {word rest : List Char} (isWord : IsWord word)
    (noComment : word.head? ≠ some '#') (blank : ∀ d ∈ rest.head?, isBlankOrEnd d = true)
    (same : c.rest = word ++ rest) :
    (if c.head = '#' then [] else plainWord false c.rest) = word := by
  obtain ⟨d, more, rfl⟩ := List.exists_cons_of_ne_nil isWord.nonempty
  have notComment : c.head ≠ '#' := by
    rw [Cursor.head_eq same]
    exact fun number => noComment (congrArg some number)
  rw [if_neg notComment, same, plainWord_eq isWord.visible isWord.noColon blank]

variable {c : Cursor} {tail : List Char} {n k fuel : Nat} {gap : List Char} {broken : Bool}

/-- A word before a gap that the scalar goes on behind is put before what comes there. -/
theorem plainWords_more {word rest : List Char} {g : PlainGap} (isWord : IsWord word)
    (noComment : word.head? ≠ some '#') (blank : ∀ d ∈ rest.head?, isBlankOrEnd d = true)
    (same : c.rest = word ++ rest) (behind : plainGap (c.forward word.length) = g)
    (full : g.text ≠ []) (noNumber : g.cursor.head ≠ '#') (inside : n < g.cursor.column) :
    plainWords false (n + 1) (fuel + 1) gap broken c =
      match plainWords false (n + 1) fuel g.text g.breaks g.cursor with
      | (more, broken, c) => (gap ++ word ++ more, broken, c) := by
  have word' := plainWord_head isWord noComment blank same
  have notEmpty : word.isEmpty = false := List.isEmpty_eq_false_iff.mpr isWord.nonempty
  have goesOn : ¬ (g.text.isEmpty || decide (g.cursor.head = '#') ||
      !false && decide ((g.cursor.column : Int) < (n : Int) + 1)) = true := by
    have textFull : g.text.isEmpty = false := List.isEmpty_eq_false_iff.mpr full
    simp only [textFull, noNumber, decide_false, Bool.or_self, Bool.not_false, Bool.true_and,
      Bool.false_or, decide_eq_true_eq]
    omega
  simp only [plainWords, word', notEmpty, behind, Bool.false_eq_true, if_false, if_neg goesOn]

/-- A word before a line that belongs to another block is the last one. -/
theorem plainWords_last {word rest : List Char} {g : PlainGap} (isWord : IsWord word)
    (noComment : word.head? ≠ some '#') (blank : ∀ d ∈ rest.head?, isBlankOrEnd d = true)
    (same : c.rest = word ++ rest) (behind : plainGap (c.forward word.length) = g)
    (outside : g.cursor.column ≤ n) :
    plainWords false (n + 1) (fuel + 1) gap broken c = (gap ++ word, g.breaks, g.cursor) := by
  have word' := plainWord_head isWord noComment blank same
  have notEmpty : word.isEmpty = false := List.isEmpty_eq_false_iff.mpr isWord.nonempty
  have ends : (!false && decide ((g.cursor.column : Int) < (n : Int) + 1)) = true := by
    simp only [Bool.not_false, Bool.true_and, decide_eq_true_eq]
    omega
  simp only [plainWords, word', notEmpty, behind, Bool.false_eq_true, if_false, ends,
    Bool.or_true, if_true]

/-- The gap before further words is read as it was written. -/
theorem plainGap_written {rest : List Char} {size : Nat} (words : Words rest)
    (deeper : n < indent) {before : Option Char} {column : Nat}
    (same : c.rest = foldedChars false indent before column
      (List.replicate (size + 1) ' ' ++ rest) ++ tail)
    (inside : n < c.column) (long : c.rest.length ≤ c.size) :
    ∃ moved breaks before' column', plainGap c =
      ⟨List.replicate (size + 1) ' ', breaks, c.forward moved⟩ ∧
      (c.forward moved).rest = foldedChars false indent before' column' rest ++ tail ∧
        n < (c.forward moved).column ∧
      (foldedChars false indent before column (List.replicate (size + 1) ' ' ++ rest)).length =
        moved + (foldedChars false indent before' column' rest).length := by
  obtain ⟨before', column', written⟩ := @foldedChars_gap indent rest size before column
  obtain ⟨d, more, begins, -, visible⟩ := @foldedChars_head indent rest words before' column'
  have visible' : Visible (foldedChars false indent before' column' rest ++ tail) := by
    rw [begins]
    exact visible_cons.mpr visible
  rcases written with kept | ⟨rfl, broken⟩
  · rw [kept, List.append_assoc] at same
    refine ⟨size + 1, false, before', column', plainGap_blanks same visible', ?_, ?_, ?_⟩
    · simpa using Cursor.rest_forward_append same
    · rw [Cursor.column_forward_spaces same]
      omega
    · rw [kept, List.length_append, List.length_replicate]
  · rw [broken, List.append_assoc] at same
    have noMark :=
      atDocumentMark_next_newLine same (.inl (Nat.lt_of_le_of_lt (Nat.zero_le n) deeper))
    refine ⟨indent + 1, true, before', column', plainGap_newLine same visible' noMark long, ?_,
      ?_, ?_⟩
    · simpa using Cursor.rest_forward_append same
    · rw [Cursor.column_forward_newLine same]
      exact deeper
    · rw [broken, List.length_append, length_newLine]

/-- The words of a scalar are read up to the next line. -/
theorem plainWords_words (words : Words cs) (deeper : n < indent) (shallow : k ≤ n)
    (opens : OpensLine tail) (noComment : cs.head? ≠ some '#') {before : Option Char}
    {column : Nat}
    (same : c.rest = foldedChars false indent before column cs ++ (newLine k ++ tail))
    (inside : n < c.column) (long : c.rest.length ≤ c.size) (enough : c.rest.length < fuel) :
    plainWords false (n + 1) fuel gap broken c =
      (gap ++ cs, true, c.forward ((foldedChars false indent before column cs).length + (k + 1)))
        := by
  induction words generalizing c fuel gap broken before column with
  | @last word isWord =>
      obtain ⟨fuel, rfl⟩ : ∃ n, fuel = n + 1 := ⟨fuel - 1, by omega⟩
      obtain ⟨before', column', written⟩ :=
        @foldedChars_word indent word isWord.visible [] before column
      rw [List.append_nil, foldedChars, List.append_nil] at written
      rw [written] at same ⊢
      have behind : (c.forward word.length).rest = newLine k ++ tail :=
        Cursor.rest_forward_append same
      have noMark := atDocumentMark_next_newLine behind (.inr opens)
      have gap' :=
        plainGap_newLine behind opens.visible noMark (Cursor.length_rest_forward_le _ long)
      have column'' : ((c.forward word.length).forward (k + 1)).column ≤ n := by
        rw [Cursor.column_forward_newLine behind]
        exact shallow
      rw [plainWords_last isWord noComment
        (fun d member => by cases member; decide) same gap' column'', Cursor.forward_forward]
  | @more word rest isWord size later noNumber ih =>
      obtain ⟨fuel, rfl⟩ : ∃ n, fuel = n + 1 := ⟨fuel - 1, by omega⟩
      have noComment' : word.head? ≠ some '#' := by
        obtain ⟨d, more, rfl⟩ := List.exists_cons_of_ne_nil isWord.nonempty
        exact noComment
      obtain ⟨before', column', written⟩ :=
        @foldedChars_word indent word isWord.visible
          (List.replicate (size + 1) ' ' ++ rest) before column
      rw [written] at same ⊢
      rw [List.append_assoc] at same
      have behind := Cursor.rest_forward_append same
      have inside' : n < (c.forward word.length).column := by
        rw [Cursor.column_forward_wide same isWord.wide]
        omega
      obtain ⟨moved, breaks, before'', column'', gap', next, inside'', size'⟩ :=
        plainGap_written later deeper behind inside' (Cursor.length_rest_forward_le _ long)
      obtain ⟨d, more, begins, first, -⟩ := @foldedChars_head indent rest later before'' column''
      have noNumber' : ((c.forward word.length).forward moved).head ≠ '#' := by
        rw [begins] at next
        rw [Cursor.head_eq next]
        exact fun number => noNumber (first.trans (congrArg some number))
      have enough' : ((c.forward word.length).forward moved).rest.length < fuel := by
        have full := List.length_pos_iff.mpr isWord.nonempty
        rw [Cursor.forward_forward, Cursor.rest_forward, List.length_drop]
        rw [same, List.length_append] at enough ⊢
        omega
      have blank : ∀ e ∈ (foldedChars false indent before' column'
          (List.replicate (size + 1) ' ' ++ rest) ++ (newLine k ++ tail)).head?,
          isBlankOrEnd e = true := by
        intro e member
        obtain ⟨_, _, kept | ⟨-, broken'⟩⟩ := @foldedChars_gap indent rest size before' column'
        · rw [kept] at member
          cases member
          decide
        · rw [broken'] at member
          cases member
          decide
      rw [plainWords_more isWord noComment' blank same gap' (by simp) noNumber' inside'',
        ih noNumber next inside'' (Cursor.length_rest_forward_le _
        (Cursor.length_rest_forward_le _ long)) enough', Cursor.forward_forward,
        Cursor.forward_forward]
      simp only [List.length_append, size', List.append_assoc, Nat.add_assoc]

/-- A scalar that stands plain is read back, and the cursor is at the next line behind its
indentation. -/
theorem readPlain_words (words : Words cs) (noComment : cs.head? ≠ some '#') (deeper : n < indent)
    (shallow : k ≤ n) (opens : OpensLine tail) {column : Nat}
    (same : c.rest = foldedChars false indent none column cs ++ (newLine k ++ tail))
    (inside : n < c.column) (long : c.rest.length ≤ c.size) :
    readPlain false n c = (cs, true,
      c.forward ((foldedChars false indent none column cs).length + (k + 1))) := by
  rw [readPlain, plainWords_words words deeper shallow opens noComment same inside long
    (Nat.lt_succ_of_le long), List.nil_append]

end Whole

end SchemaBaseline.Yaml
