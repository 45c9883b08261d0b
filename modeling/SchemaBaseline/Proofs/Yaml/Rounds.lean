import SchemaBaseline.Proofs.Yaml.Lexer

/-!
# Single tokens

What a lexer that awaits something written in block style does in the next rounds: it takes the
sign of an item (`entry_round`), a scalar that stands plain (`plain_round`) or between quotes
(`quoted_round`), the brackets of an empty list (`brackets_runs`), or a name with its colon
(`name_runs`); and at the end of the text it finishes (`end_round`).
-/

namespace SchemaBaseline.Yaml

/-! ## Plain scalars and names -/

/-- Words that are no sign where a token may begin. -/
structure StandsPlain (cs : List Char) : Prop where
  words : Words cs
  noSign : ∀ c rest, cs = c :: rest → isLeadingSign c = false ∧
    (c = '-' ∨ c = '?' ∨ c = ':' → ∃ d more, rest = d :: more ∧ isBlankOrEnd d = false)

theorem FitsPlain.standsPlain {cs : List Char} (plain : FitsPlain cs) : StandsPlain cs where
  words := plain.words
  noSign := by
    rintro c rest rfl
    obtain ⟨noSign, noIndicator⟩ := plain.noSign c rest rfl
    refine ⟨noSign, fun indicator => ?_⟩
    rcases rest with _ | ⟨d, more⟩
    · rcases indicator with rfl | rfl | rfl
      · exact absurd noIndicator (by decide)
      · exact absurd noIndicator (by decide)
      · exact absurd rfl plain.noLastColon
    · refine ⟨d, more, rfl, ?_⟩
      rcases indicator with rfl | rfl | rfl
      · simpa [blankFollows] using noIndicator
      · simpa [blankFollows] using noIndicator
      · simpa using not_and_of_hasNeighbours plain.noName

theorem StandsPlain.noComment {cs : List Char} (plain : StandsPlain cs) :
    cs.head? ≠ some '#' := by
  intro number
  obtain ⟨rest, rfl⟩ := List.head?_eq_some_iff.mp number
  exact absurd (plain.noSign '#' rest rfl).1 (by decide)

/-- A letter, a digit or an underscore. -/
def isNameSign (c : Char) : Bool :=
  c.isAlphanum || c == '_'

/-- Whether a text is a name that is written plain and read back before its colon. -/
def isPlainName (name : List Char) : Bool :=
  fitsPlain name && name.all isNameSign && name.length ≤ 100

section Name

variable {c : Char} {name : List Char}

theorem ne_of_isNameSign {d : Char} (sign : isNameSign c = true) (other : isNameSign d = false) :
    c ≠ d := by
  rintro rfl
  exact absurd (sign.symm.trans other) (by decide)

theorem not_blankOrEnd_of_isNameSign (sign : isNameSign c = true) : isBlankOrEnd c = false := by
  have other : ∀ {d : Char}, isNameSign d = false → c ≠ d := ne_of_isNameSign sign
  have noTab : c ≠ '\t' := other (by decide)
  have noSpace : c ≠ ' ' := other (by decide)
  have noNul : c ≠ '\x00' := other (by decide)
  have noFeed : c ≠ '\n' := other (by decide)
  have noReturn : c ≠ '\r' := other (by decide)
  have noNextLine : c ≠ '\x85' := other (by decide)
  have noLine : c ≠ '\u2028' := other (by decide)
  have noParagraph : c ≠ '\u2029' := other (by decide)
  simp [isBlankOrEnd, isSpaceOrEnd, isLineEnd, isBreak, *]

theorem isLeadingSign_of_isNameSign (sign : isNameSign c = true) : isLeadingSign c = false := by
  have others : ",#[]\x7b\x7d&*!|>'\"%@`".toList.all (!isNameSign ·) = true := by decide
  have none : ∀ d ∈ ",#[]\x7b\x7d&*!|>'\"%@`".toList, c ≠ d := fun d member =>
    ne_of_isNameSign sign (by simpa using List.all_eq_true.mp others d member)
  simpa [isLeadingSign] using none

theorem isWide_of_isNameSign (sign : isNameSign c = true) : IsWide c :=
  ⟨isBreak_of_not_blankOrEnd (not_blankOrEnd_of_isNameSign sign),
    ne_of_isNameSign sign (by decide)⟩

theorem isNameSign_of_mem (isName : isPlainName name = true) (member : c ∈ name) :
    isNameSign c = true := by
  simp only [isPlainName, Bool.and_eq_true, List.all_eq_true] at isName
  exact isName.1.2 c member

theorem fitsPlain_of_isPlainName (isName : isPlainName name = true) : fitsPlain name = true := by
  simp only [isPlainName, Bool.and_eq_true] at isName
  exact isName.1.1

theorem length_of_isPlainName (isName : isPlainName name = true) : name.length ≤ 100 := by
  simp only [isPlainName, Bool.and_eq_true, decide_eq_true_eq] at isName
  exact isName.2

/-- A name is taken up to its colon. -/
theorem plainWord_name {b : Char} {tail : List Char} (signs : ∀ d ∈ name, isNameSign d = true)
    (blank : isBlankOrEnd b = true) :
    plainWord false (name ++ ':' :: b :: tail) = name := by
  induction name with
  | nil => simp [plainWord, blank]
  | cons d name ih =>
      have sign := signs d List.mem_cons_self
      have later := ih fun e member => signs e (List.mem_cons_of_mem _ member)
      have noColon : d ≠ ':' := ne_of_isNameSign sign (by decide)
      rw [List.cons_append, plainWord]
      simp [not_blankOrEnd_of_isNameSign sign, noColon, later]

/-- A name is read, and the cursor is at its colon. -/
theorem readPlain_name {b : Char} {tail : List Char} {c : Cursor}
    (isName : isPlainName name = true) (blank : isBlankOrEnd b = true)
    (same : c.rest = name ++ ':' :: b :: tail) (indent : Int) :
    readPlain false indent c = (name, false, c.forward name.length) := by
  have signs : ∀ d ∈ name, isNameSign d = true := fun d member => isNameSign_of_mem isName member
  obtain ⟨d, more, rfl⟩ :=
    List.exists_cons_of_ne_nil (fitsPlain_of (fitsPlain_of_isPlainName isName)).ne_nil
  have notComment : c.head ≠ '#' := by
    rw [Cursor.head_eq same]
    exact ne_of_isNameSign (signs d List.mem_cons_self) (by decide)
  have word : plainWord false (d :: more ++ ':' :: b :: tail) = d :: more :=
    plainWord_name signs blank
  have behind : (c.forward (d :: more).length).rest = List.replicate 0 ' ' ++ ':' :: b :: tail :=
    Cursor.rest_forward_append same
  have gap := plainGap_blanks behind (visible_cons.mpr (by decide))
  simp only [readPlain, plainWords, if_neg notComment, same, word, gap, List.isEmpty_cons,
    Bool.false_eq_true, if_false, List.replicate_zero, List.isEmpty_nil, Bool.true_or, if_true,
    List.nil_append]
  rfl

end Name

namespace Lexer

section Emit

variable {x : Lexer} {cs tail : List Char} {o : Outline}

theorem stands_emitTo (stands : Stands x cs o) (token : Token) {c : Cursor} (rest : c.rest = tail)
    (size : c.rest.length ≤ c.size) (allowed : Bool) :
    Stands { x.emitTo token c with nameAllowed := allowed } tail (o.add [token]) where
  rest := rest
  outline := by
    rw [← stands.outline]
    simp [Lexer.outline, emitTo, Outline.add]
  flow := stands.flow
  candidates := stands.candidates
  unfinished := stands.unfinished
  counted := by simp [emitTo, stands.counted]
  long := size

theorem dropCandidate_of_noCandidates (none : x.candidates = []) : x.dropCandidate = .ok x := by
  simp [dropCandidate, none]

theorem addCandidate_of_not_allowed (no : x.nameAllowed = false) : x.addCandidate = .ok x := by
  simp [addCandidate, no]

theorem inFlow_of_stands (stands : Stands x cs o) : x.inFlow = false := by
  simp [inFlow, stands.flow]

theorem indent_of_stands (stands : Stands x cs o) : x.indent = o.indent :=
  congrArg Outline.indent stands.outline

/-- The next round takes the token that begins with the characters awaited. -/
theorem round_of_lexHead {y : Lexer} {column : Nat} {allowed : Bool}
    (awaits : Awaits x column allowed cs o) (token : x.ready.lexHead = .ok y)
    (unfinished : y.finished = false) (fresh : y.dropStale = .ok y)
    (shorter : y.cursor.rest.length < cs.length) : Round x y :=
  ⟨y, (lexToken_eq awaits.fresh).trans token, unfinished, fresh,
    Nat.lt_of_lt_of_le shorter awaits.shorter⟩

end Emit

/-! ## Heads of tokens -/

section Heads

variable {x : Lexer} {cs tail : List Char} {o : Outline}

/-- The minus sign before an item of a list that is no further in than the names around it. -/
theorem lexHead_of_entry (stands : Stands x ('-' :: ' ' :: cs) o) (allowed : x.nameAllowed = true)
    (inside : o.indent = x.cursor.column) :
    ∃ y, x.lexHead = .ok y ∧ Stands y (' ' :: cs) (o.add [.blockEntry]) ∧ y.nameAllowed = true ∧
      y.cursor.column = x.cursor.column + 1 := by
  have noMark : x.cursor.atDocumentMark = false := by
    simp only [Cursor.atDocumentMark, Cursor.startsWith, stands.rest]
    rfl
  have noBlock : x.beginBlock .blockSequenceStart = x := by
    simp [beginBlock, openBlock, indent_of_stands stands, inside]
  have moved : (x.cursor.forward 1).column = x.cursor.column + 1 :=
    Cursor.column_forward_wide (show x.cursor.rest = ['-'] ++ ' ' :: cs from stands.rest)
      (List.forall_mem_singleton.mpr ⟨by decide, by decide⟩)
  refine ⟨{ x.emitNext .blockEntry 1 with nameAllowed := true }, ?_, ?_, rfl, moved⟩
  · rw [lexHead_entry (Cursor.head_eq stands.rest)
      (by rw [Cursor.peek_one_eq stands.rest]; decide) noMark]
    simp only [lexBlockEntry, inFlow_of_stands stands, allowed, Bool.not_true, Bool.and_false,
      Bool.false_eq_true, if_false, noBlock, dropCandidate_of_noCandidates stands.candidates,
      bind, Except.bind]
  · exact stands_emitTo stands .blockEntry (Cursor.rest_next_cons stands.rest)
      (Cursor.length_rest_forward_le 1 stands.long) true

/-- A scalar between quotes, which is no name. -/
theorem lexHead_of_spells {quote : Char} {written text : List Char} (isQuote : IsQuote quote)
    (stands : Stands x (quote :: (written ++ quote :: tail)) o)
    (notAllowed : x.nameAllowed = false) (spells : Spells quote written text)
    (closed : tail.head? ≠ some '\'') :
    ∃ y, x.lexHead = .ok y ∧ Stands y tail (o.add [.scalar (codesOf text) false]) := by
  have reading := readQuoted_spells isQuote spells closed stands.rest stands.long
  have behind : (x.cursor.forward (written.length + 2)).rest = tail := by
    have pieces : x.cursor.rest = (quote :: (written ++ [quote])) ++ tail := by simp [stands.rest]
    simpa using Cursor.rest_forward_append pieces
  refine ⟨_, ?_, stands_emitTo stands (.scalar (codesOf text) false) behind
    (Cursor.length_rest_forward_le _ stands.long) false⟩
  rw [lexHead_quoted isQuote (Cursor.head_eq stands.rest)]
  simp only [lexQuoted, addCandidate_of_not_allowed notAllowed, bind, Except.bind, reading]

/-- A scalar that stands plain and is no name; the cursor is at the next line behind it. -/
theorem lexHead_of_plain {text : List Char} {column indent n k : Nat} (plain : StandsPlain text)
    (stands : Stands x (foldedChars false indent none column text ++ (newLine k ++ tail)) o)
    (notAllowed : x.nameAllowed = false) (within : o.indent = n) (deeper : n < indent)
    (shallow : k ≤ n) (opens : OpensLine tail) (inside : n < x.cursor.column) :
    ∃ y, x.lexHead = .ok y ∧ Stands y tail (o.add [.scalar (codesOf text) true]) ∧
      y.nameAllowed = true ∧
      y.cursor.column = k := by
  have reading :=
    readPlain_words plain.words plain.noComment deeper shallow opens stands.rest
      inside stands.long
  have behind : (x.cursor.forward (foldedChars false indent none column text).length).rest =
      newLine k ++ tail :=
    Cursor.rest_forward_append stands.rest
  have next : (x.cursor.forward ((foldedChars false indent none column text).length +
      (k + 1))).rest = tail := by
    rw [← Cursor.forward_forward]
    simpa using Cursor.rest_forward_append behind
  have place : (x.cursor.forward ((foldedChars false indent none column text).length +
      (k + 1))).column = k := by
    rw [← Cursor.forward_forward]
    exact Cursor.column_forward_newLine behind
  refine ⟨_, ?_, stands_emitTo stands (.scalar (codesOf text) true) next
    (Cursor.length_rest_forward_le _ stands.long) true, rfl, place⟩
  obtain ⟨c, rest, rfl⟩ := List.exists_cons_of_ne_nil plain.words.ne_nil
  have visible := visible_cons.mp plain.words.visible
  obtain ⟨noSign, noIndicator⟩ := plain.noSign c rest rfl
  have begins := stands.rest
  rw [foldedChars_visible false visible] at begins
  have indicator : c = '-' ∨ c = '?' ∨ c = ':' → isBlankOrEnd (x.cursor.peek 1) = false ∧
      x.inFlow = false := by
    intro among
    obtain ⟨d, more, rfl, visible'⟩ := noIndicator among
    rw [foldedChars_visible false visible'] at begins
    rw [Cursor.peek_one_eq begins]
    exact ⟨visible', inFlow_of_stands stands⟩
  rw [lexHead_plain (Cursor.head_eq begins) noSign visible indicator (.inl (by omega))]
  simp only [lexPlain, addCandidate_of_not_allowed notAllowed, bind, Except.bind,
    inFlow_of_stands stands, indent_of_stands stands, within, reading]

/-- The end of the text closes every block. -/
theorem lexHead_of_end (stands : Stands x [] o) :
    ∃ y, x.lexHead = .ok y ∧ y.finished = true ∧
      y.tokens.reverse.map Placed.token = (o.close (-1)).tokens ++ [.streamEnd] := by
  obtain ⟨closed, -, -⟩ := stands_unwind stands (-1)
  refine ⟨{ (x.unwind (-1)).emit .streamEnd with
    nameAllowed := false, candidates := [], finished := true }, ?_, rfl, ?_⟩
  · rw [lexHead_end (Cursor.head_eq_nul stands.rest), readEnd,
      dropCandidate_of_noCandidates closed.candidates]
    rfl
  · have tokens := congrArg Outline.tokens closed.outline
    simp only [Lexer.outline] at tokens
    simp [emit, ← tokens]

end Heads

/-! ## Two rounds -/

section Pairs

variable {x : Lexer} {cs tail : List Char} {o : Outline}

/-- A lexer at a token finds it there. -/
theorem skipToToken_of_opens (same : x.cursor.rest = cs) (opens : OpensToken cs) :
    x.skipToToken = x :=
  skipToToken_spaces (k := 0) same opens

/-- The brackets of an empty list, which is no name. -/
theorem brackets_rounds (stands : Stands x ('[' :: ']' :: tail) o)
    (notAllowed : x.nameAllowed = false) :
    ∃ y z, x.lexHead = .ok y ∧ y.finished = false ∧ y.dropStale = .ok y ∧
      y.cursor.rest = ']' :: tail ∧ Round y z ∧
      Stands z tail (o.add [.flowSequenceStart, .flowSequenceEnd]) := by
  have next : (x.cursor.forward 1).rest = ']' :: tail := Cursor.rest_next_cons stands.rest
  have opened :=
    stands_emitTo stands .flowSequenceStart next
      (Cursor.length_rest_forward_le 1 stands.long) true
  let y : Lexer :=
    { x.emitNext .flowSequenceStart 1 with flow := x.flow + 1, nameAllowed := true }
  have noCandidates : y.candidates = [] := stands.candidates
  have fresh : y.dropStale = .ok y := dropStale_of_noCandidates noCandidates
  have skipped : y.skipToToken = y :=
    skipToToken_of_opens next (opensToken_cons (by decide) (by decide) (by decide))
  have ready' : y.ready = y := by
    rw [ready, skipped, unwind, if_pos (by simp [y, inFlow])]
  have token : y.lexToken = .ok { y.emitNext .flowSequenceEnd 1 with
      flow := y.flow - 1, nameAllowed := false } := by
    rw [lexToken_eq (by rw [skipped, fresh]), ready', lexHead_closing (Cursor.head_eq next)]
    simp only [lexFlowEnd, dropCandidate_of_noCandidates noCandidates, bind, Except.bind]
  have behind : ((x.cursor.forward 1).forward 1).rest = tail := Cursor.rest_next_cons next
  have closed := stands_emitTo opened .flowSequenceEnd behind
    (Cursor.length_rest_forward_le 1 (Cursor.length_rest_forward_le 1 stands.long)) false
  rw [Outline.add_add] at closed
  refine ⟨y, { y.emitNext .flowSequenceEnd 1 with flow := y.flow - 1, nameAllowed := false }, ?_,
    stands.unfinished, fresh, next,
    ⟨_, token, stands.unfinished, dropStale_of_noCandidates noCandidates, ?_⟩, ?_⟩
  · rw [lexHead_opening (Cursor.head_eq stands.rest)]
    simp only [lexFlowStart, addCandidate_of_not_allowed notAllowed, bind, Except.bind, y]
  · show ((x.cursor.forward 1).forward 1).rest.length < (x.cursor.forward 1).rest.length
    rw [behind, next]
    exact Nat.lt_succ_self _
  · exact ⟨closed.rest, closed.outline,
      by simp [y, stands.flow], closed.candidates, closed.unfinished, closed.counted, closed.long⟩

/-- A candidate for a name that is near enough is kept. -/
theorem dropStale_of_near {candidate : Candidate} (only : x.candidates = [(0, candidate)])
    (near : x.isStale candidate = false) : x.dropStale = .ok x := by
  rcases x with ⟨cursor, tokens, count, indent, outer, flow, allowed, candidates, finished⟩
  obtain rfl : candidates = [(0, candidate)] := only
  simp [dropStale, near]

theorem unwind_of_le {column : Int} (inside : x.indent ≤ column) : x.unwind column = x := by
  have blocks : ∀ outer, x.closeBlocks column outer = x := by
    intro outer
    cases outer with
    | nil => rfl
    | cons around outer => rw [closeBlocks, if_neg (Int.not_lt.mpr inside)]
  simp [unwind, blocks]

/-- The colon behind a candidate announces it as a name, and opens the mapping that it begins. -/
theorem lexValue_of_candidate {candidate : Candidate} {scalar : Placed} {tokens : List Placed}
    (only : x.candidates = [(0, candidate)]) (flow : x.flow = 0) (unfinished : x.finished = false)
    (written : x.tokens = scalar :: tokens) (number : candidate.number = tokens.length)
    (counted : x.count = tokens.length + 1)
    (before : ⟨x.indent, x.outer, tokens.reverse.map Placed.token⟩ = o)
    (rest : x.cursor.rest = ':' :: tail) (long : x.cursor.rest.length ≤ x.cursor.size) :
    ∃ y, x.lexValue = .ok y ∧
      Stands y tail ((o.openMapping candidate.mark.column).add [.key, scalar.token, .value]) ∧
        y.nameAllowed = false ∧
      y.cursor = x.cursor.forward 1 := by
  let announced : Lexer :=
    { x with
      candidates := []
      tokens := scalar :: ⟨.key, candidate.mark, candidate.mark⟩ :: tokens
      count := tokens.length + 2 }
  have key : ({ x with candidates := [] } : Lexer).insertAt candidate.number .key candidate.mark =
      announced := by
    simp [insertAt, written, counted, number, announced]
  subst before
  have opened : ∃ v, ((announced.openBlock candidate.mark.column).elim announced fun opened =>
        opened.insertAt candidate.number .blockMappingStart candidate.mark) = v ∧
      Stands v (':' :: tail) ((Outline.openMapping
        ⟨x.indent, x.outer, tokens.reverse.map Placed.token⟩
        candidate.mark.column).add [.key, scalar.token]) ∧ v.cursor = x.cursor := by
    by_cases further : x.indent < candidate.mark.column
    · refine ⟨{ announced with
          indent := candidate.mark.column
          outer := x.indent :: x.outer
          tokens := scalar :: ⟨.key, candidate.mark, candidate.mark⟩ ::
            ⟨.blockMappingStart, candidate.mark, candidate.mark⟩ :: tokens
          count := tokens.length + 3 }, ?_, ⟨rest, ?_, flow, rfl, unfinished, rfl, long⟩, rfl⟩
      · simp [openBlock, announced, further, insertAt, number]
      · simp [Lexer.outline, Outline.openMapping, Outline.add, further]
    · refine ⟨announced, ?_, ⟨rest, ?_, flow, rfl, unfinished, rfl, long⟩, rfl⟩
      · simp [openBlock, announced, further]
      · simp [Lexer.outline, Outline.openMapping, Outline.add, further, announced]
  obtain ⟨v, opens, stands, cursor⟩ := opened
  have next : (x.cursor.forward 1).rest = tail := Cursor.rest_next_cons rest
  have emitted := stands_emitTo stands .value next (Cursor.length_rest_forward_le 1 long) false
  rw [Outline.add_add] at emitted
  refine ⟨{ v.emitTo .value (x.cursor.forward 1) with nameAllowed := false }, ?_,
    emitted, rfl, rfl⟩
  have found : x.candidates.lookup x.flow = some candidate := by simp [only, flow]
  have none : x.candidates.filter (fun entry => entry.1 != x.flow) = [] := by simp [only, flow]
  have notFlow : announced.inFlow = false := by simp [inFlow, announced, flow]
  simp only [lexValue, found, none, key, notFlow, Bool.false_eq_true, if_false]
  rw [← cursor, ← opens]
  cases announced.openBlock candidate.mark.column <;> rfl

/-- A name and the colon behind it. -/
theorem name_rounds {name : List Char} {b : Char} (isName : isPlainName name = true)
    (blank : isBlankOrEnd b = true) (stands : Stands x (name ++ ':' :: b :: tail) o)
    (allowed : x.nameAllowed = true) (within : o.indent ≤ x.cursor.column) :
    ∃ y z, x.lexHead = .ok y ∧ y.finished = false ∧ y.dropStale = .ok y ∧
      y.cursor.rest = ':' :: b :: tail ∧ Round y z ∧
      Stands z (b :: tail) ((o.openMapping x.cursor.column).add
        [.key, .scalar (codesOf name) true, .value]) ∧
      z.nameAllowed = false ∧ z.cursor.column = x.cursor.column + name.length + 1 := by
  have signs : ∀ d ∈ name, isNameSign d = true := fun d member => isNameSign_of_mem isName member
  have wide : ∀ d ∈ name, IsWide d := fun d member => isWide_of_isNameSign (signs d member)
  have next : (x.cursor.forward name.length).rest = ':' :: b :: tail :=
    Cursor.rest_forward_append stands.rest
  have place := Cursor.mark_forward_wide stands.rest wide
  have long := Cursor.length_rest_forward_le name.length stands.long
  let candidate : Candidate := ⟨x.count, !x.inFlow && x.indent == (x.cursor.column : Int), x.mark⟩
  let y : Lexer :=
    { ({ x with candidates := [(0, candidate)] } : Lexer).emitTo (.scalar (codesOf name) true)
        (x.cursor.forward name.length) with
      nameAllowed := false }
  have first : x.lexHead = .ok y := by
    obtain ⟨d, more, rfl⟩ :=
      List.exists_cons_of_ne_nil (fitsPlain_of (fitsPlain_of_isPlainName isName)).ne_nil
    have sign := signs d List.mem_cons_self
    have other : ∀ {e : Char}, isNameSign e = false → d ≠ e := ne_of_isNameSign sign
    rw [lexHead_plain (Cursor.head_eq stands.rest) (isLeadingSign_of_isNameSign sign)
      (not_blankOrEnd_of_isNameSign sign)
      (by rintro (same | same | same) <;> exact absurd same (other (by decide)))
      (.inr ⟨other (by decide), other (by decide)⟩)]
    have added : x.addCandidate = .ok { x with candidates := [(0, candidate)] } := by
      simp only [addCandidate, allowed, if_true, dropCandidate_of_noCandidates stands.candidates,
        bind, Except.bind, stands.candidates, stands.flow, candidate]
    simp only [lexPlain, added, bind, Except.bind]
    have notFlow : ({ x with candidates := [(0, candidate)] } : Lexer).inFlow = false := by
      simp [inFlow, stands.flow]
    rw [notFlow, readPlain_name isName blank stands.rest]
  have near : y.isStale candidate = false := by
    have short := length_of_isPlainName isName
    simp only [isStale, candidate, y, emitTo, Lexer.mark, place, bne_self_eq_false, Bool.false_or,
      decide_eq_false_iff_not, Nat.add_sub_cancel_left, candidateReach]
    omega
  have fresh : y.dropStale = .ok y := dropStale_of_near rfl near
  have skipped : y.skipToToken = y :=
    skipToToken_of_opens next (opensToken_cons (by decide) (by decide) (by decide))
  have column : (x.cursor.forward name.length).column = x.cursor.column + name.length :=
    Cursor.column_forward_wide stands.rest wide
  have ready' : y.ready = y := by
    rw [ready, skipped]
    refine unwind_of_le ?_
    show x.indent ≤ ((x.cursor.forward name.length).column : Int)
    rw [column, indent_of_stands stands]
    omega
  obtain ⟨z, second, stands', notAllowed, cursor⟩ :=
    @lexValue_of_candidate y (b :: tail) o candidate _ x.tokens rfl stands.flow stands.unfinished
      rfl stands.counted (by rw [← stands.counted]; rfl) stands.outline next long
  have token : y.lexToken = .ok z := by
    rw [lexToken_eq (by rw [skipped, fresh]), ready', lexHead_colon (Cursor.head_eq next)
      (by rw [show y.cursor.peek 1 = b from Cursor.peek_one_eq next, blank]), second]
  refine ⟨y, z, first, stands.unfinished, fresh, next, ⟨z, token, stands'.unfinished,
    dropStale_of_noCandidates stands'.candidates, ?_⟩, stands', notAllowed, ?_⟩
  · rw [stands'.rest, show y.cursor.rest = _ from next]
    exact Nat.lt_succ_self _
  · rw [cursor]
    show ((x.cursor.forward name.length).forward 1).column = _
    have colon :=
      Cursor.column_forward_wide (show (x.cursor.forward name.length).rest =
        [':'] ++ b :: tail from next) (List.forall_mem_singleton.mpr ⟨by decide, by decide⟩)
    rw [← column]
    exact colon

end Pairs

end Lexer

end SchemaBaseline.Yaml
