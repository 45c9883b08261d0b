import Mathlib.Algebra.Group.Nat.Defs
import SchemaBaseline.Proofs.Yaml.Quoted

/-!
# Writing between quotes

What is written between quotes spells the text (`spells_foldedChars`, `spells_doubleChars`), with
two exceptions. A next-line character that stands in single quotes counts as a line feed when it
is read; and where a line in double quotes is broken between an escape and a blank, the next line
begins with a backslash, which an indentation beyond the width of a line parts from its blank.
`Kept` says that a text is neither.
-/

namespace SchemaBaseline.Yaml

/-! ## Neighbours -/

theorem hasNeighbours_cons_cons (p q : Char → Bool) (c d : Char) (cs : List Char) :
    hasNeighbours p q (c :: d :: cs) = (p c && q d || hasNeighbours p q (d :: cs)) := by
  simp [hasNeighbours]

theorem hasNeighbours_tail {p q : Char → Bool} {c : Char} {cs : List Char}
    (none : hasNeighbours p q (c :: cs) = false) :
    hasNeighbours p q cs = false := by
  cases cs with
  | nil => rfl
  | cons d cs =>
      rw [hasNeighbours_cons_cons, Bool.or_eq_false_iff] at none
      exact none.2

theorem not_and_of_hasNeighbours {p q : Char → Bool} {c d : Char} {cs : List Char}
    (none : hasNeighbours p q (c :: d :: cs) = false) : (p c && q d) = false := by
  rw [hasNeighbours_cons_cons, Bool.or_eq_false_iff] at none
  exact none.1

/-! ## Texts that fit single quotes -/

section Single

variable {c d : Char} {cs : List Char}

theorem isUnescaped_of_fitsSingle (fits : fitsSingle (c :: cs) = true) :
    isUnescaped c = true := by
  simp only [fitsSingle, List.all_cons, Bool.and_eq_true] at fits
  exact fits.1.1.1

theorem fitsSingle_tail (fits : fitsSingle (c :: cs) = true) : fitsSingle cs = true := by
  simp only [fitsSingle, List.all_cons, Bool.and_eq_true, Bool.not_eq_true'] at fits ⊢
  exact ⟨⟨fits.1.1.2, hasNeighbours_tail fits.1.2⟩, hasNeighbours_tail fits.2⟩

theorem not_break_space (fits : fitsSingle (c :: d :: cs) = true)
    (isBreak : isInnerBreak c = true) : d ≠ ' ' := by
  simp only [fitsSingle, Bool.and_eq_true, Bool.not_eq_true'] at fits
  rintro rfl
  simpa [isBreak] using not_and_of_hasNeighbours fits.1.2

theorem not_space_break (fits : fitsSingle (' ' :: d :: cs) = true) : isInnerBreak d = false := by
  simp only [fitsSingle, Bool.and_eq_true, Bool.not_eq_true'] at fits
  simpa using not_and_of_hasNeighbours fits.2

/-- What needs no escape is a blank, a line end that may stand inside, or visible. -/
theorem not_blankOrEnd_of_isUnescaped (unescaped : isUnescaped c = true) (noSpace : c ≠ ' ')
    (noBreak : isInnerBreak c = false) : isBlankOrEnd c = false := by
  have noTab : c ≠ '\t' := by rintro rfl; exact absurd unescaped (by decide)
  have noNul : c ≠ '\x00' := by rintro rfl; exact absurd unescaped (by decide)
  have noReturn : c ≠ '\r' := by rintro rfl; exact absurd unescaped (by decide)
  simp only [isInnerBreak, Bool.or_eq_false_iff] at noBreak
  simp [isBlankOrEnd, isSpaceOrEnd, isLineEnd, isBreak, noTab, noNul, noReturn, noSpace, noBreak]

theorem isKeptBreak_of_isInnerBreak (isBreak : isInnerBreak c = true) (noNextLine : c ≠ '\x85') :
    IsKeptBreak c := by
  simpa [isInnerBreak, IsKeptBreak, noNextLine, or_assoc] using isBreak

/-! ## Single quotes -/

/-- Whether characters begin with a line end that may stand inside a scalar. -/
def beginsBroken (cs : List Char) : Bool :=
  (cs.head?.map isInnerBreak).getD false

/-- The line breaks at the front. -/
theorem exists_breaks (cs : List Char) :
    ∃ bs rest, cs = bs ++ rest ∧ (∀ d ∈ bs, isInnerBreak d = true) ∧
      beginsBroken rest = false := by
  induction cs with
  | nil => exact ⟨[], [], rfl, List.forall_mem_nil _, rfl⟩
  | cons c cs ih =>
      by_cases isBreak : isInnerBreak c = true
      · obtain ⟨bs, rest, rfl, breaks, ends⟩ := ih
        exact ⟨c :: bs, rest, rfl, List.forall_mem_cons.mpr ⟨isBreak, breaks⟩, ends⟩
      · exact ⟨[], c :: cs, rfl, List.forall_mem_nil _, by simpa [beginsBroken] using isBreak⟩

theorem fitsSingle_append (former : List Char) (fits : fitsSingle (former ++ cs) = true) :
    fitsSingle cs = true := by
  induction former with
  | nil => exact fits
  | cons c former ih => exact ih (fitsSingle_tail fits)

/-- Neither a blank nor a further break comes behind a run of line breaks. -/
theorem visible_behind_breaks {bs : List Char} (breaks : ∀ d ∈ c :: bs, isInnerBreak d = true)
    (fits : fitsSingle (c :: (bs ++ cs)) = true) (ends : beginsBroken cs = false) :
    Visible cs := by
  induction bs generalizing c with
  | nil =>
      cases cs with
      | nil => exact visible_nil
      | cons d cs =>
          have noSpace := not_break_space fits (breaks c List.mem_cons_self)
          exact visible_cons.mpr (not_blankOrEnd_of_isUnescaped
            (isUnescaped_of_fitsSingle (fitsSingle_tail fits)) noSpace ends)
  | cons d bs ih =>
    exact ih (fun e member => breaks e (List.mem_cons_of_mem _ member)) (fitsSingle_tail fits)

variable {indent : Nat}

theorem foldedChars_break (quote : Bool) (isBreak : isInnerBreak c = true) (before : Option Char)
    (column : Nat) :
    foldedChars quote indent before column (c :: cs) =
      (if c = '\n' && !(before.map isInnerBreak).getD false then ['\n'] else []) ++ c ::
        (if beginsBroken cs then foldedChars quote indent (some c) 0 cs
        else List.replicate indent ' ' ++ foldedChars quote indent (some c) indent cs) := by
  have notSpace : c ≠ ' ' := by rintro rfl; exact absurd isBreak (by decide)
  rw [foldedChars.eq_def]
  simp only [if_neg notSpace, isBreak, if_true]
  rfl

theorem isInnerBreak_of_not_blankOrEnd (visible : isBlankOrEnd c = false) :
    isInnerBreak c = false := by
  have inLine := isBreak_of_not_blankOrEnd visible
  simp only [isBreak, Bool.or_eq_false_iff] at inLine
  simp [isInnerBreak, inLine]

theorem foldedChars_visible (quote : Bool) (visible : isBlankOrEnd c = false)
    (before : Option Char) (column : Nat) :
    foldedChars quote indent before column (c :: cs) =
      foldedChar quote c ++ foldedChars quote indent (some c)
        (column + (foldedChar quote c).length) cs := by
  rw [foldedChars.eq_def]
  simp only [if_neg (ne_space_of_not_blankOrEnd visible), isInnerBreak_of_not_blankOrEnd visible,
    Bool.false_eq_true, if_false]

/-- A blank is written as it is, or the line is broken in its place between two others. -/
theorem foldedChars_space (quote : Bool) (before : Option Char) (column : Nat) :
    foldedChars quote indent before column (' ' :: cs) =
      ' ' :: foldedChars quote indent (some ' ') (column + 1) cs ∨
    ∃ b d rest, before = some b ∧ b ≠ ' ' ∧ cs = d :: rest ∧ d ≠ ' ' ∧
      foldedChars quote indent before column (' ' :: cs) =
        newLine indent ++ foldedChars quote indent (some ' ') indent cs := by
  rw [foldedChars.eq_def]
  simp only [if_true]
  split
  · rename_i b d rest
    split
    · rename_i breaks
      simp only [Bool.and_eq_true, bne_iff_ne] at breaks
      exact .inr ⟨b, d, rest, rfl, breaks.1.1, rfl, breaks.1.2, rfl⟩
    · exact .inl rfl
  · exact .inl rfl

/-- Behind a line break come the further ones, then the indentation. -/
theorem foldedChars_further (quote : Bool) (b : Char) {bs rest : List Char}
    (breaks : ∀ d ∈ bs, isInnerBreak d = true) (isBreak : isInnerBreak b = true)
    (ends : beginsBroken rest = false) :
    ∃ last, (if beginsBroken (bs ++ rest) then foldedChars quote indent (some b) 0 (bs ++ rest)
        else List.replicate indent ' ' ++ foldedChars quote indent (some b) indent (bs ++ rest)) =
      bs ++ (List.replicate indent ' ' ++ foldedChars quote indent (some last) indent rest) := by
  induction bs generalizing b with
  | nil => exact ⟨b, by simp [ends]⟩
  | cons d bs ih =>
      have first : isInnerBreak d = true := breaks d List.mem_cons_self
      obtain ⟨last, further⟩ :=
        ih d (fun e member => breaks e (List.mem_cons_of_mem _ member)) first
      refine ⟨last, ?_⟩
      have begins : beginsBroken (d :: bs ++ rest) = true := first
      rw [if_pos begins, List.cons_append, foldedChars_break quote first, further,
        Option.map_some, Option.getD_some, isBreak, Bool.not_true, Bool.and_false,
        if_neg Bool.false_ne_true, List.nil_append, List.cons_append]

/-- Line breaks are written with one more if the first is a line feed. -/
theorem foldedChars_breaks (quote : Bool) {b : Char} {bs rest : List Char}
    (breaks : ∀ d ∈ b :: bs, isInnerBreak d = true) (ends : beginsBroken rest = false)
    {before : Option Char} (fresh : (before.map isInnerBreak).getD false = false) (column : Nat) :
    ∃ last, foldedChars quote indent before column (b :: (bs ++ rest)) =
      (if b = '\n' then ['\n'] else []) ++
        b :: (bs ++ (List.replicate indent ' ' ++ foldedChars quote indent
          (some last) indent rest)) := by
  have first : isInnerBreak b = true := breaks b List.mem_cons_self
  obtain ⟨last, further⟩ := @foldedChars_further indent quote b bs rest
    (fun d member => breaks d (List.mem_cons_of_mem _ member)) first ends
  refine ⟨last, ?_⟩
  rw [foldedChars_break quote first, further, fresh]
  simp

/-- What begins with something visible is written so. -/
theorem visible_foldedChars (quote : Bool) {cs : List Char} (visible : Visible cs)
    (before : Option Char) (column : Nat) :
    Visible (foldedChars quote indent before column cs) := by
  cases cs with
  | nil => exact visible_nil
  | cons c cs =>
      have notBlank := visible_cons.mp visible
      rw [foldedChars_visible quote notBlank]
      by_cases doubled : (quote && c == '\'') = true
      · simp [foldedChar, doubled, isBlankOrEnd, isSpaceOrEnd, isLineEnd, isBreak]
      · simp [foldedChar, doubled, notBlank]

/-- Behind a blank, the blanks are written and then something visible. -/
theorem staysInLine_foldedChars (quote : Bool) {cs : List Char}
    (fits : fitsSingle (' ' :: cs) = true) (column : Nat) :
    StaysInLine (foldedChars quote indent (some ' ') column cs) := by
  induction cs generalizing column with
  | nil => exact visible_nil
  | cons c cs ih =>
      by_cases space : c = ' '
      · subst space
        have later := ih (fitsSingle_tail fits) (column + 1)
        rcases foldedChars_space quote (some ' ') column with kept | ⟨b, -, -, same, notSpace, -⟩
        · rw [kept]
          exact later.cons_space
        · exact absurd (Option.some.inj same).symm notSpace
      · have unescaped := isUnescaped_of_fitsSingle (fitsSingle_tail fits)
        exact .of_visible (visible_foldedChars quote
          (visible_cons.mpr (not_blankOrEnd_of_isUnescaped unescaped space
          (not_space_break fits))) _ _)

theorem Spells.foldedChar {written text : List Char} (visible : isBlankOrEnd c = false)
    (later : Spells '\'' written text) :
    Spells '\'' (foldedChar true c ++ written) (c :: text) := by
  by_cases quote : c = '\''
  · subst quote
    exact .doubled rfl later
  · have once : Yaml.foldedChar true c = [c] := by simp [Yaml.foldedChar, quote]
    rw [once]
    exact .char quote (fun double => absurd double (by decide)) visible later

/-- What is written in single quotes spells the text. -/
theorem spells_foldedChars (indented : 0 < indent) (fits : fitsSingle cs = true)
    (noNextLine : '\x85' ∉ cs)
    {before : Option Char}
    (fresh : (before.map isInnerBreak).getD false = true → beginsBroken cs = false)
    (column : Nat) : Spells '\'' (foldedChars true indent before column cs) cs := by
  -- The induction is on the length, since a run of line breaks is taken at once.
  induction size : cs.length using Nat.strongRecOn generalizing cs before column with
  | ind n ih =>
  subst size
  rcases cs with _ | ⟨c, cs⟩
  · exact .nil
  have fitsRest := fitsSingle_tail fits
  have noNextLineRest : '\x85' ∉ cs := fun member => noNextLine (List.mem_cons_of_mem _ member)
  by_cases space : c = ' '
  · subst space
    have later (column : Nat) : Spells '\'' (foldedChars true indent (some ' ') column cs) cs :=
      ih cs.length (Nat.lt_succ_self _) fitsRest noNextLineRest
        (fun broken => absurd broken (by decide)) column rfl
    rcases @foldedChars_space cs indent true before column with
      kept | ⟨b, d, rest, -, -, rfl, notSpace, broken⟩
    · rw [kept]
      exact .blank (staysInLine_foldedChars true fits _) (later _)
    · rw [broken]
      have visible : Visible (d :: rest) :=
        visible_cons.mpr (not_blankOrEnd_of_isUnescaped
          (isUnescaped_of_fitsSingle fitsRest) notSpace (not_space_break fits))
      exact @Spells.breaks _ '\n' [] _ _ indent (.inl rfl) (List.forall_mem_nil _) indented
        (visible_foldedChars true visible _ _) (later _)
  · by_cases isBreak : isInnerBreak c = true
    · obtain ⟨bs, rest, rfl, breaks, ends⟩ := exists_breaks cs
      have noNextLine' : ∀ d ∈ c :: bs, d ≠ '\x85' := by
        rintro d member rfl
        exact noNextLine (List.mem_append_left rest member)
      have allBreaks : ∀ d ∈ c :: bs, isInnerBreak d = true := by
        simpa [isBreak] using breaks
      have kept : ∀ d ∈ c :: bs, IsKeptBreak d := fun d member =>
        isKeptBreak_of_isInnerBreak (allBreaks d member) (noNextLine' d member)
      have noBefore : (before.map isInnerBreak).getD false = false := by
        rw [Bool.eq_false_iff]
        exact fun broken => Bool.false_ne_true ((fresh broken).symm.trans isBreak)
      obtain ⟨last, written⟩ := foldedChars_breaks true allBreaks ends noBefore column
      have visible : Visible rest := visible_behind_breaks allBreaks fits ends
      have later : Spells '\'' (foldedChars true indent (some last) indent rest) rest := by
        refine ih rest.length ?_ (fitsSingle_append (c :: bs) fits) ?_ (fun _ => ends) _ rfl
        · simp only [List.length_cons, List.length_append]
          omega
        · exact fun member => noNextLine (List.mem_append_right (c :: bs) member)
      rw [written]
      by_cases feed : c = '\n'
      · subst feed
        exact .breaks (.inl rfl) kept indented (visible_foldedChars true visible _ _) later
      · have counts : foldedBreak c bs = c :: bs := by simp [foldedBreak, feed]
        have spells :=
          Spells.breaks (kept c List.mem_cons_self)
            (fun d member => kept d (List.mem_cons_of_mem _ member)) indented
            (visible_foldedChars true visible (some last) indent) later
        rw [counts] at spells
        rwa [if_neg feed, List.nil_append]
    · have visible :=
        not_blankOrEnd_of_isUnescaped (isUnescaped_of_fitsSingle fits) space
          (Bool.eq_false_iff.mpr isBreak)
      rw [foldedChars_visible true visible]
      refine .foldedChar visible (ih cs.length (Nat.lt_succ_self _) fitsRest noNextLineRest
        (fun broken => ?_) _ rfl)
      exact absurd broken (by simpa using isBreak)

end Single

/-! ## Escapes -/

theorem hexDigit?_toUpper_digitChar {n : Nat} (small : n < 16) :
    hexDigit? (Nat.digitChar n).toUpper = some n := by
  have all : ∀ m : Fin 16, hexDigit? (Nat.digitChar m.val).toUpper = some m.val := by decide
  exact all ⟨n, small⟩

theorem hexNumber_append_singleton (cs : List Char) (c : Char) :
    hexNumber (cs ++ [c]) = 16 * hexNumber cs + (hexDigit? c).getD 0 := by
  rw [hexNumber, List.foldl_append]
  rfl

theorem hexNumber_zeros (k : Nat) (cs : List Char) :
    hexNumber (List.replicate k '0' ++ cs) = hexNumber cs := by
  induction k with
  | zero => rfl
  | succ k ih => exact ih

theorem hexNumber_toDigits (n : Nat) : hexNumber ((Nat.toDigits 16 n).map Char.toUpper) = n := by
  induction n using Nat.strongRecOn with
  | ind n ih =>
  rw [Nat.toDigits_eq_if (by decide)]
  split
  · rename_i small
    show 16 * 0 + (hexDigit? _).getD 0 = n
    rw [hexDigit?_toUpper_digitChar small, Option.getD_some, Nat.mul_zero, Nat.zero_add]
  · rw [List.map_append, List.map_singleton, hexNumber_append_singleton, ih (n / 16) (by omega),
      hexDigit?_toUpper_digitChar (Nat.mod_lt _ (by decide)), Option.getD_some, Nat.div_add_mod]

theorem isSome_hexDigit?_of_mem_toDigits {n : Nat} {d : Char}
    (member : d ∈ (Nat.toDigits 16 n).map Char.toUpper) :
    (hexDigit? d).isSome := by
  induction n using Nat.strongRecOn with
  | ind n ih =>
  rw [Nat.toDigits_eq_if (by decide)] at member
  split at member
  · rename_i small
    rw [List.map_singleton, List.mem_singleton] at member
    rw [member, hexDigit?_toUpper_digitChar small, Option.isSome_some]
  · rw [List.map_append, List.map_singleton, List.mem_append, List.mem_singleton] at member
    rcases member with higher | last
    · exact ih (n / 16) (by omega) higher
    · rw [last, hexDigit?_toUpper_digitChar (Nat.mod_lt _ (by decide)), Option.isSome_some]

theorem length_upperHex {width n : Nat} (positive : 0 < width) (fits : n < 16 ^ width) :
    (upperHex width n).length = width := by
  have short := (Nat.length_toDigits_le_iff (b := 16) (by decide) positive).mpr fits
  simp only [upperHex, List.length_append, List.length_replicate, List.length_map]
  omega

/-- A numbered escape writes the number. -/
theorem EscapeOf.numbered {c letter : Char} {width : Nat} (notShort : shortEscape? letter = none)
    (announces : longEscape? letter = some width) (positive : 0 < width)
    (fits : c.toNat < 16 ^ width) :
    EscapeOf c (letter :: upperHex width c.toNat) := by
  refine .long notShort (by rw [announces, length_upperHex positive fits]) (fun d member => ?_) ?_
  · rw [upperHex, List.mem_append] at member
    rcases member with zero | digit
    · rw [List.eq_of_mem_replicate zero]
      decide
    · exact isSome_hexDigit?_of_mem_toDigits digit
  · exact (hexNumber_zeros _ _).trans (hexNumber_toDigits _)

theorem shortEscape?_of_escapeLetter? {c letter : Char} (writes : escapeLetter? c = some letter) :
    shortEscape? letter = some c.toNat := by
  unfold escapeLetter? at writes
  split at writes <;> cases writes <;> rfl

/-- A character that needs an escape is written as one. -/
theorem exists_escape {c : Char} (needs : needsEscape c = true) :
    ∃ e, doubleChar c = '\\' :: e ∧ EscapeOf c e := by
  rw [doubleChar, if_pos needs]
  split
  · rename_i letter writes
    exact ⟨[letter], rfl, .short (shortEscape?_of_escapeLetter? writes)⟩
  · split
    · rename_i small
      exact ⟨_, rfl, .numbered rfl rfl (by decide) (Nat.lt_of_le_of_lt small (by decide))⟩
    · split
      · rename_i small
        exact ⟨_, rfl, .numbered rfl rfl (by decide) (Nat.lt_of_le_of_lt small (by decide))⟩
      · have small : c.toNat < 0x110000 := by
          have valid := c.valid
          have equal : c.toNat = c.val.toNat := rfl
          rw [UInt32.isValidChar, Nat.isValidChar] at valid
          omega
        exact ⟨_, rfl, .numbered rfl rfl (by decide) (Nat.lt_trans small (by decide))⟩

/-- What needs no escape in double quotes stands for itself there. -/
theorem not_special_of_not_needsEscape {c : Char} (raw : needsEscape c = false) :
    c ≠ '"' ∧ c ≠ '\\' ∧ (c ≠ ' ' → isBlankOrEnd c = false) := by
  have other : ∀ {d : Char}, needsEscape d = true → c ≠ d := by
    rintro d needs rfl
    exact absurd (raw.symm.trans needs) (by decide)
  refine ⟨other (by decide), other (by decide), fun notSpace => ?_⟩
  have noTab : c ≠ '\t' := other (by decide)
  have noNul : c ≠ '\x00' := other (by decide)
  have noFeed : c ≠ '\n' := other (by decide)
  have noReturn : c ≠ '\r' := other (by decide)
  have noNextLine : c ≠ '\x85' := other (by decide)
  have noLine : c ≠ '\u2028' := other (by decide)
  have noParagraph : c ≠ '\u2029' := other (by decide)
  simp [isBlankOrEnd, isSpaceOrEnd, isLineEnd, isBreak, *]

/-! ## Double quotes -/

section Double

variable {indent column : Nat} {first escaped : Bool} {c : Char} {cs : List Char}

/-- An escape is written, and perhaps the line is broken behind it. -/
theorem doubleChars_escape (needs : needsEscape c = true) :
    (∃ column', doubleChars true indent first escaped column (c :: cs) =
      doubleChar c ++ doubleChars true indent false true column' cs) ∨
    first = false ∧ cs ≠ [] ∧ doubleChars true indent first escaped column (c :: cs) =
      doubleChar c ++
      (doubleBreak indent cs.head? ++ doubleChars true indent false true
        ((doubleBreak indent cs.head?).length - 2) cs) := by
  rw [doubleChars]
  simp only [needs, if_true]
  split
  · rename_i breaks
    simp only [Bool.true_and, Bool.and_eq_true, Bool.not_eq_true', List.isEmpty_eq_false_iff]
      at breaks
    exact .inr ⟨breaks.1.1, breaks.1.2, List.append_assoc _ _ _⟩
  · exact .inl ⟨_, rfl⟩

/-- Another character stands for itself, and perhaps the line is broken before it. -/
theorem doubleChars_raw (raw : needsEscape c = false) :
    (∃ column', doubleChars true indent first escaped column (c :: cs) =
      c :: doubleChars true indent false false column' cs) ∨
    first = false ∧ cs ≠ [] ∧ lineWidth < column ∧
      ∃ column', doubleChars true indent first escaped column (c :: cs) =
      doubleBreak indent (some c) ++ c :: doubleChars true indent false false column' cs := by
  have once : doubleChar c = [c] := by simp [doubleChar, raw]
  rw [doubleChars]
  simp only [raw, once, Bool.false_eq_true, if_false]
  split
  · rename_i breaks
    simp only [Bool.true_and, Bool.and_eq_true, Bool.not_eq_true', List.isEmpty_eq_false_iff,
      decide_eq_true_eq] at breaks
    exact .inr ⟨breaks.1.1.1, breaks.1.1.2, breaks.2, _, List.append_assoc _ _ _⟩
  · exact .inl ⟨_, rfl⟩

theorem visible_doubleBreak (next : Option Char) (more : List Char) :
    Visible (doubleBreak indent next ++ more) :=
  visible_cons.mpr (by decide)

/-- What does not begin with a blank is written so. -/
theorem visible_doubleChars (noSpace : cs.head? ≠ some ' ') :
    Visible (doubleChars true indent first escaped column cs) := by
  rcases cs with _ | ⟨c, cs⟩
  · exact visible_nil
  rcases needs : needsEscape c with _ | _
  · have notSpace : c ≠ ' ' := fun same => noSpace (congrArg some same)
    rcases @doubleChars_raw indent column first escaped c cs needs with
      ⟨_, written⟩ | ⟨-, -, -, _, written⟩
    · rw [written]
      exact visible_cons.mpr ((not_special_of_not_needsEscape needs).2.2 notSpace)
    · rw [written]
      exact visible_doubleBreak _ _
  · obtain ⟨e, escape, -⟩ := exists_escape needs
    rcases @doubleChars_escape indent column first escaped c cs needs with
      ⟨_, written⟩ | ⟨-, -, written⟩ <;>
    · rw [written, escape]
      exact visible_cons.mpr (by decide)

/-- Blanks are written, and then something visible. -/
theorem staysInLine_doubleChars :
    StaysInLine (doubleChars true indent first escaped column cs) := by
  induction cs generalizing first escaped column with
  | nil => exact visible_nil
  | cons c cs ih =>
      by_cases space : c = ' '
      · subst space
        have raw : needsEscape ' ' = false := by decide
        rcases @doubleChars_raw indent column first escaped ' ' cs raw with
          ⟨_, written⟩ | ⟨-, -, -, _, written⟩
        · rw [written]
          exact ih.cons_space
        · rw [written]
          exact .of_visible (visible_doubleBreak _ _)
      · exact .of_visible (visible_doubleChars fun same => space (Option.some.inj same))

theorem Spells.raw {written text : List Char} (raw : needsEscape c = false)
    (inLine : StaysInLine written) (later : Spells '"' written text) :
    Spells '"' (c :: written) (c :: text) := by
  obtain ⟨notQuote, notEscape, visible⟩ := not_special_of_not_needsEscape raw
  by_cases space : c = ' '
  · subst space
    exact .blank inLine later
  · exact .char notQuote (fun _ => notEscape) (visible space) later

/-- A blank behind a break is written as an escape. -/
theorem Spells.break_space {written text : List Char} (indented : 0 < indent)
    (later : Spells '"' written text) :
    Spells '"' (doubleBreak indent (some ' ') ++ ' ' :: written) (' ' :: text) := by
  have written' : doubleBreak indent (some ' ') ++ ' ' :: written =
      '\\' :: (newLine indent ++ '\\' :: ([' '] ++ written)) := by
    simp [doubleBreak]
  rw [written']
  exact .cut rfl indented (visible_cons.mpr (by decide)) (.escape rfl (.short rfl) later)

theorem Spells.break_visible {next : Option Char} {written text : List Char}
    (indented : 0 < indent) (notSpace : next ≠ some ' ') (visible : Visible written)
    (later : Spells '"' written text) :
    Spells '"' (doubleBreak indent next ++ written) text := by
  have written' : doubleBreak indent next ++ written = '\\' :: (newLine indent ++ written) := by
    simp [doubleBreak, notSpace]
  rw [written']
  exact .cut rfl indented visible later

/-- Whether a blank inside a text stands behind a character that is written as an escape. -/
def hasBlankBehindEscape (cs : List Char) : Bool :=
  hasNeighbours needsEscape (· == ' ') cs.tail.dropLast

theorem spells_doubleChars_inside (indented : 0 < indent)
    (kept : indent < lineWidth ∨ hasNeighbours needsEscape (· == ' ') cs.dropLast = false) :
    Spells '"' (doubleChars true indent false escaped column cs) cs := by
  induction cs generalizing escaped column with
  | nil => exact .nil
  | cons c cs ih =>
      have keptRest :
          indent < lineWidth ∨ hasNeighbours needsEscape (· == ' ') cs.dropLast = false := by
        refine kept.imp_right fun none => ?_
        cases cs with
        | nil => rfl
        | cons d cs => exact hasNeighbours_tail none
      rcases needs : needsEscape c with _ | _
      · rcases @doubleChars_raw indent column false escaped c cs needs with
          ⟨_, written⟩ | ⟨-, -, -, _, written⟩
        · rw [written]
          exact .raw needs staysInLine_doubleChars (ih keptRest)
        · rw [written]
          by_cases space : c = ' '
          · subst space
            exact .break_space indented (ih keptRest)
          · refine .break_visible indented (fun same => space (Option.some.inj same)) ?_
              (.raw needs staysInLine_doubleChars (ih keptRest))
            exact visible_cons.mpr ((not_special_of_not_needsEscape needs).2.2 space)
      · obtain ⟨e, escape, writes⟩ := exists_escape needs
        rcases @doubleChars_escape indent column false escaped c cs needs with
          ⟨_, written⟩ | ⟨-, full, written⟩
        · rw [written, escape]
          exact .escape rfl writes (ih keptRest)
        · rw [written, escape]
          refine .escape rfl writes ?_
          by_cases space : cs.head? = some ' '
          · obtain ⟨more, rfl⟩ := List.head?_eq_some_iff.mp space
            have column' : (doubleBreak indent (some ' ')).length - 2 = indent + 1 := by
              simp [doubleBreak]
            have raw : needsEscape ' ' = false := by decide
            have rest := @ih (indent + 1) true keptRest
            rw [List.head?_cons, column']
            rcases @doubleChars_raw indent (indent + 1) false true ' ' more raw with
              ⟨_, kept'⟩ | ⟨-, full, wide, -⟩
            · rw [kept'] at rest ⊢
              exact .break_space indented rest.of_blank
            · -- A second break would part the backslash of the first from its blank.
              rcases kept with narrow | none
              · omega
              · obtain ⟨d, more, rfl⟩ := List.exists_cons_of_ne_nil full
                have apart := not_and_of_hasNeighbours none
                simp [needs] at apart
          · exact .break_visible indented space (visible_doubleChars space) (ih keptRest)

/-- What is written in double quotes spells the text. -/
theorem spells_doubleChars (indented : 0 < indent)
    (kept : indent < lineWidth ∨ hasBlankBehindEscape cs = false) :
    Spells '"' (doubleChars true indent true false column cs) cs := by
  rcases cs with _ | ⟨c, cs⟩
  · exact .nil
  rcases needs : needsEscape c with _ | _
  · rcases @doubleChars_raw indent column true false c cs needs with ⟨_, written⟩ | ⟨inside, -⟩
    · rw [written]
      exact .raw needs staysInLine_doubleChars (spells_doubleChars_inside indented kept)
    · exact absurd inside (by decide)
  · obtain ⟨e, escape, writes⟩ := exists_escape needs
    rcases @doubleChars_escape indent column true false c cs needs with ⟨_, written⟩ | ⟨inside, -⟩
    · rw [written, escape]
      exact .escape rfl writes (spells_doubleChars_inside indented kept)
    · exact absurd inside (by decide)

end Double

/-! ## Quoted scalars -/

/-- A text that is read again as it was written, where lines are indented by `indent`. -/
structure Keeps (indent : Nat) (cs : List Char) : Prop where
  /-- No next-line character stands in single quotes. -/
  lines : fitsSingle cs = true → '\x85' ∉ cs
  /-- No blank of a text in double quotes is parted from its backslash. -/
  blanks : fitsSingle cs = false → indent < lineWidth ∨ hasBlankBehindEscape cs = false

section Scalar

variable {cs : List Char} (indent column : Nat)

theorem scalarChars_plain (plain : fitsPlain cs = true) :
    scalarChars false indent column cs = foldedChars false indent none column cs := by
  rw [scalarChars, Style.of, plain]
  rfl

theorem scalarChars_single (quoted : fitsPlain cs = false) (fits : fitsSingle cs = true) :
    scalarChars false indent column cs =
      '\'' :: (foldedChars true indent none (column + 1) cs ++ ['\'']) := by
  rw [scalarChars, Style.of, quoted, fits]
  rfl

theorem scalarChars_double (quoted : fitsPlain cs = false) (noSingle : fitsSingle cs = false) :
    scalarChars false indent column cs =
      '"' :: (doubleChars true indent true false (column + 1) cs ++ ['"']) := by
  rw [scalarChars, Style.of, quoted, noSingle]
  rfl

end Scalar

/-- A text that is not written plain is written between quotes, as what spells it. -/
theorem exists_spells {indent : Nat} (indented : 0 < indent) {cs : List Char}
    (keeps : Keeps indent cs) (quoted : fitsPlain cs = false) (column : Nat) :
    ∃ quote written, IsQuote quote ∧ scalarChars false indent column cs =
      quote :: (written ++ [quote]) ∧
      Spells quote written cs := by
  rcases fits : fitsSingle cs with _ | _
  · exact ⟨'"', _, .inr rfl, scalarChars_double indent column quoted fits,
      spells_doubleChars indented (keeps.blanks fits)⟩
  · have spells : Spells '\'' (foldedChars true indent none (column + 1) cs) cs := by
      refine spells_foldedChars indented fits (keeps.lines fits) (fun broken => ?_) _
      exact absurd broken (by decide)
    exact ⟨'\'', _, .inl rfl, scalarChars_single indent column quoted fits, spells⟩

end SchemaBaseline.Yaml
