import Mathlib.Logic.Relation
import SchemaBaseline.Proofs.Yaml.Plain
import SchemaBaseline.Yaml.Token.Stream

/-!
# Cutting a text into tokens, round by round

A text in block style is cut in rounds (`Round`); a run of rounds is found again in `lex`, whose
fuel lasts because every round takes a character (`lex_of_runs`). What a run knows about its lexer
is an `Outline`: the blocks that are open and the tokens so far. Blocks are closed only when the
next token is looked for, so a lexer behind a line `Awaits` the next token with the outline that
it will have then.
-/

namespace SchemaBaseline.Yaml

/-! ## Outlines -/

/-- The open blocks and the tokens so far, first one first. -/
structure Outline where
  /-- The indentation of the innermost block; `-1` if there is none. -/
  indent : Int
  /-- The indentations of the blocks around it, innermost first. -/
  outer : List Int
  tokens : List Token

namespace Outline

/-- Closes blocks that are indented further than a column, given the blocks around the innermost
one. -/
def closeFrom (column indent : Int) (tokens : List Token) : List Int → Outline
  | [] => ⟨indent, [], tokens⟩
  | around :: outer =>
    if column < indent then closeFrom column around (tokens ++ [.blockEnd]) outer
    else ⟨indent, around :: outer, tokens⟩

/-- The outline when blocks that are indented further than a column are closed. -/
def close (o : Outline) (column : Int) : Outline :=
  closeFrom column o.indent o.tokens o.outer

/-- The outline with more tokens. -/
def add (o : Outline) (tokens : List Token) : Outline :=
  { o with tokens := o.tokens ++ tokens }

/-- The outline in which a mapping is open at a column. -/
def openMapping (o : Outline) (column : Nat) : Outline :=
  if o.indent < column then ⟨column, o.indent :: o.outer, o.tokens ++ [.blockMappingStart]⟩ else o

theorem close_of_le {o : Outline} {column : Int} (inside : o.indent ≤ column) :
    o.close column = o := by
  rcases o with ⟨indent, _ | ⟨around, outer⟩, tokens⟩
  · rfl
  · exact if_neg (Int.not_lt.mpr inside)

theorem close_inner {indent column around : Int} {outer : List Int} {tokens : List Token}
    (outside : column < indent) :
    (⟨indent, around :: outer, tokens⟩ : Outline).close column =
      (⟨around, outer, tokens ++ [.blockEnd]⟩ : Outline).close column :=
  if_pos outside

theorem add_add (o : Outline) (tokens more : List Token) :
    (o.add tokens).add more = o.add (tokens ++ more) := by
  simp [add]

end Outline

namespace Lexer

/-- The outline of a lexer. -/
def outline (x : Lexer) : Outline :=
  ⟨x.indent, x.outer, x.tokens.reverse.map Placed.token⟩

/-! ## Closing blocks -/

/-- Closing blocks adds tokens and nothing else. -/
theorem closeBlocks_spec (x : Lexer) (column : Int) (counted : x.count = x.tokens.length) :
    (x.closeBlocks column x.outer).outline = x.outline.close column ∧
      (x.closeBlocks column x.outer).count = (x.closeBlocks column x.outer).tokens.length ∧
      ∃ tokens count indent outer, x.closeBlocks column x.outer =
        { x with tokens := tokens, count := count, indent := indent, outer := outer } := by
  induction blocks : x.outer generalizing x with
  | nil =>
    exact ⟨by simp [closeBlocks, outline, Outline.close, blocks, Outline.closeFrom], counted,
      _, _, _, _, rfl⟩
  | cons around outer ih =>
      rw [closeBlocks]
      split
      · rename_i outside
        have inner :=
          ih { x.emit .blockEnd with indent := around, outer := outer }
            (by simp [emit, counted]) rfl
        refine ⟨?_, inner.2.1, ?_⟩
        · rw [inner.1, outline, outline, blocks, Outline.close_inner outside]
          simp [emit]
        · obtain ⟨tokens, count, indent, outer', same⟩ := inner.2.2
          exact ⟨tokens, count, indent, outer', by rw [same]; rfl⟩
      · rename_i inside
        refine ⟨?_, counted, _, _, _, _, rfl⟩
        rw [Outline.close_of_le (Int.not_lt.mp inside)]

end Lexer

/-! ## Lexers between tokens -/

/-- A lexer in no flow collection, without a candidate for a name, at the given characters and
with the given outline. -/
structure Stands (x : Lexer) (cs : List Char) (o : Outline) : Prop where
  rest : x.cursor.rest = cs
  outline : x.outline = o
  flow : x.flow = 0
  candidates : x.candidates = []
  unfinished : x.finished = false
  counted : x.count = x.tokens.length
  long : x.cursor.rest.length ≤ x.cursor.size

namespace Lexer

/-! ## Looking for the next token -/

section Skip

variable {c : Cursor} {cs : List Char} {k fuel : Nat} {inFlow allowed : Bool}

theorem skipBlanks_spaces (same : c.rest = List.replicate k ' ' ++ cs) (opens : OpensToken cs) :
    skipBlanks (fuel + 1) inFlow allowed c = (allowed, c.forward k) := by
  have behind : (c.forward k).rest = cs := by
    simpa using Cursor.rest_forward_append same
  have notComment : (c.forward k).head ≠ '#' := Cursor.head_ne behind opens.noComment (by decide)
  simp only [skipBlanks, Cursor.skipSpaces_eq same opens.visible, if_neg notComment,
    Cursor.takeBreak_visible behind opens.visible]

theorem skipBlanks_newLine (same : c.rest = newLine k ++ cs) (opens : OpensToken cs) :
    skipBlanks (fuel + 2) inFlow allowed c = (allowed || !inFlow, c.forward (k + 1)) := by
  have noBlanks : c.skipSpaces = c := Cursor.skip_none same (by decide)
  have notComment : c.head ≠ '#' := by
    rw [Cursor.head_eq same]
    decide
  rw [skipBlanks]
  simp only [noBlanks, if_neg notComment, Cursor.takeBreak_lineFeed same]
  rw [skipBlanks_spaces (Cursor.rest_next_cons same) opens, Cursor.next_eq_forward,
    Cursor.forward_forward, Nat.add_comm 1]

end Skip

section Ready

variable {x : Lexer} {cs : List Char} {k : Nat}

theorem skipToToken_spaces (same : x.cursor.rest = List.replicate k ' ' ++ cs)
    (opens : OpensToken cs) :
    x.skipToToken = { x with cursor := x.cursor.forward k } := by
  have noMark : ¬ (x.mark.index = 0 && x.cursor.head = '\ufeff') = true := by
    have other : x.cursor.head ≠ '\ufeff' := by
      refine Cursor.head_ne same ?_ (by decide)
      cases k with
      | zero => exact opens.noOrderMark
      | succ k => exact fun equal => absurd (Option.some.inj equal) (by decide)
    simp [other]
  simp only [skipToToken, if_neg noMark, skipBlanks_spaces same opens]

theorem skipToToken_newLine (same : x.cursor.rest = newLine k ++ cs) (opens : OpensToken cs)
    (long : x.cursor.rest.length ≤ x.cursor.size) :
    x.skipToToken = { x with
      cursor := x.cursor.forward (k + 1)
      nameAllowed := x.nameAllowed || !x.inFlow } := by
  have noMark : ¬ (x.mark.index = 0 && x.cursor.head = '\ufeff') = true := by
    have other : x.cursor.head ≠ '\ufeff' := by
      rw [Cursor.head_eq same]
      decide
    simp [other]
  obtain ⟨fuel, size⟩ : ∃ n, x.cursor.size + 1 = n + 2 := by
    refine ⟨x.cursor.size - 1, ?_⟩
    rw [same, List.length_append, length_newLine] at long
    omega
  simp only [skipToToken, if_neg noMark, size, skipBlanks_newLine same opens]

/-- The lexer at its next token, with the blocks closed that end before it. -/
def ready (x : Lexer) : Lexer :=
  x.skipToToken.unwind x.skipToToken.cursor.column

end Ready

/-- A lexer that will stand at the given characters in the given column, with the given outline,
when it looks for its next token; `allowed` tells whether a name may begin there. -/
structure Awaits (x : Lexer) (column : Nat) (allowed : Bool) (cs : List Char) (o : Outline) :
    Prop where
  fresh : x.skipToToken.dropStale = .ok x.skipToToken
  stands : Stands x.ready cs o
  column_eq : x.ready.cursor.column = column
  allowed_eq : x.ready.nameAllowed = allowed
  shorter : cs.length ≤ x.cursor.rest.length

section Awaits

variable {x : Lexer} {cs : List Char} {o : Outline}

theorem dropStale_of_noCandidates (none : x.candidates = []) : x.dropStale = .ok x := by
  rcases x with ⟨cursor, tokens, count, indent, outer, flow, allowed, candidates, finished⟩
  obtain rfl : candidates = [] := none
  rfl

/-- Closing blocks leaves a lexer where it is. -/
theorem stands_unwind (stands : Stands x cs o) (column : Int) :
    Stands (x.unwind column) cs (o.close column) ∧ (x.unwind column).cursor = x.cursor ∧
      (x.unwind column).nameAllowed = x.nameAllowed := by
  have notFlow : x.inFlow = false := by simp [inFlow, stands.flow]
  obtain ⟨outline, counted, tokens, count, indent, outer, same⟩ :=
    closeBlocks_spec x column stands.counted
  rw [unwind, notFlow, if_neg Bool.false_ne_true]
  refine ⟨⟨?_, ?_, ?_, ?_, ?_, counted, ?_⟩, ?_, ?_⟩
  · rw [same]; exact stands.rest
  · rw [outline, stands.outline]
  · rw [same]; exact stands.flow
  · rw [same]; exact stands.candidates
  · rw [same]; exact stands.unfinished
  · rw [same]; exact stands.long
  · rw [same]
  · rw [same]

/-- What is awaited is found behind what is skipped, and the blocks are closed that end before
it. -/
theorem awaits_of_skipped {c : Cursor} {allowed : Bool} {k : Nat}
    (skipped : x.skipToToken = { x with cursor := c, nameAllowed := allowed })
    (none : x.candidates = [])
    (moved : Stands { x with cursor := c, nameAllowed := allowed } cs o) (column : c.column = k)
    (shorter : cs.length ≤ x.cursor.rest.length) : Awaits x k allowed cs (o.close k) := by
  obtain ⟨stands, cursor, allowed'⟩ := stands_unwind moved c.column
  refine ⟨?_, ?_, ?_, ?_, shorter⟩
  · rw [skipped]
    exact dropStale_of_noCandidates none
  · rw [ready, skipped, ← column]
    exact stands
  · rw [ready, skipped, cursor]
    exact column
  · rw [ready, skipped, allowed']

/-- A lexer before blanks awaits what comes behind them. -/
theorem awaits_of_spaces {k : Nat} (stands : Stands x (List.replicate k ' ' ++ cs) o)
    (opens : OpensToken cs) :
    Awaits x (x.cursor.column + k) x.nameAllowed cs (o.close (x.cursor.column + k : Nat)) := by
  refine awaits_of_skipped (skipToToken_spaces stands.rest opens) stands.candidates ?_
    (Cursor.column_forward_spaces stands.rest) ?_
  · exact ⟨by simpa using Cursor.rest_forward_append stands.rest, stands.outline, stands.flow,
      stands.candidates, stands.unfinished, stands.counted,
      Cursor.length_rest_forward_le k stands.long⟩
  · rw [stands.rest, List.length_append]
    omega

/-- A lexer before a line awaits what the line begins with. -/
theorem awaits_of_newLine {k : Nat} (stands : Stands x (newLine k ++ cs) o)
    (opens : OpensToken cs) :
    Awaits x k true cs (o.close k) := by
  have notFlow : x.inFlow = false := by simp [inFlow, stands.flow]
  have skipped := skipToToken_newLine stands.rest opens stands.long
  rw [notFlow, Bool.not_false, Bool.or_true] at skipped
  refine awaits_of_skipped skipped stands.candidates ?_
    (Cursor.column_forward_newLine stands.rest) ?_
  · exact ⟨by simpa using Cursor.rest_forward_append stands.rest, stands.outline, stands.flow,
      stands.candidates, stands.unfinished, stands.counted,
      Cursor.length_rest_forward_le _ stands.long⟩
  · rw [stands.rest, List.length_append]
    omega

end Awaits

/-! ## Rounds -/

/-- One round, which takes a character at least. -/
def Round (x y : Lexer) : Prop :=
  ∃ z, x.lexToken = .ok z ∧ z.finished = false ∧ z.dropStale = .ok y ∧
    y.cursor.rest.length < x.cursor.rest.length

/-- Any number of rounds. -/
def Runs : Lexer → Lexer → Prop :=
  Relation.ReflTransGen Round

section Unfolding

attribute [local irreducible] lexToken

/-- One round of `lex`. The step is kept closed, since it is no help to compute it. -/
theorem lex_succ (fuel settled : Nat) (x : Lexer) : lex (fuel + 1) settled x =
    match x.lexToken with
    | .error stop => (x.tokens.reverse.take settled, some stop)
    | .ok x =>
      if x.finished then (x.tokens.reverse, none)
      else match x.dropStale with
        | .error stop => (x.tokens.reverse.take settled, some stop)
        | .ok x => lex fuel x.settled x := by
  rfl

end Unfolding

/-- Cutting a text into tokens goes on where a run of rounds ends. -/
theorem lex_of_runs {x y : Lexer} (runs : Runs x y) {fuel : Nat}
    (enough : x.cursor.rest.length < fuel) (settled : Nat) :
    ∃ fuel' settled', y.cursor.rest.length < fuel' ∧
      lex fuel settled x = lex fuel' settled' y := by
  induction runs using Relation.ReflTransGen.head_induction_on generalizing fuel settled with
  | refl => exact ⟨fuel, settled, enough, rfl⟩
  | @head x x' round _ ih =>
      obtain ⟨z, token, unfinished, fresh, shorter⟩ := round
      obtain ⟨fuel, rfl⟩ : ∃ n, fuel = n + 1 := ⟨fuel - 1, by omega⟩
      obtain ⟨fuel', settled', enough', same⟩ := @ih fuel (by omega) x'.settled
      refine ⟨fuel', settled', enough', ?_⟩
      rw [lex_succ, token]
      simp only [unfinished, fresh, Bool.false_eq_true, if_false]
      exact same

/-! ## Which token comes next -/

theorem lexToken_eq {x : Lexer} (fresh : x.skipToToken.dropStale = .ok x.skipToToken) :
    x.lexToken = x.ready.lexHead := by
  simp only [lexToken, fresh, bind, Except.bind, ready]

section Dispatch

variable {x : Lexer}

/-- A scalar stands plain where its first character is no sign. -/
theorem lexHead_plain {c : Char} (head : x.cursor.head = c) (noSign : isLeadingSign c = false)
    (visible : isBlankOrEnd c = false)
    (noIndicator : c = '-' ∨ c = '?' ∨ c = ':' → isBlankOrEnd (x.cursor.peek 1) = false ∧
      x.inFlow = false)
    (noMark : x.cursor.column ≠ 0 ∨ c ≠ '-' ∧ c ≠ '.') : x.lexHead = x.lexPlain := by
  unfold lexHead
  rw [head]
  split
  all_goals first
    | exact absurd visible (by decide)
    | exact absurd noSign (by decide)
    | skip
  · have inLine := (noIndicator (.inl rfl)).1
    rw [inLine]
    have column := noMark.resolve_right fun no => no.1 rfl
    simp [column]
  · have column := noMark.resolve_right fun no => no.2 rfl
    simp [column]
  · simp [noIndicator (.inr (.inl rfl))]
  · simp [noIndicator (.inr (.inr rfl))]
  · have begins : beginsNothing c = false := by
      have noTab : c ≠ '\t' := ne_tab_of_not_blankOrEnd visible
      have noAt : c ≠ '@' := by rintro rfl; exact absurd noSign (by decide)
      have noTick : c ≠ '`' := by rintro rfl; exact absurd noSign (by decide)
      simp [beginsNothing, noTab, noAt, noTick]
    rw [begins, if_neg Bool.false_ne_true]

theorem lexHead_quoted {quote : Char} (isQuote : IsQuote quote) (head : x.cursor.head = quote) :
    x.lexHead = x.lexQuoted := by
  rcases isQuote with rfl | rfl <;> simp only [lexHead, head]

theorem lexHead_colon (head : x.cursor.head = ':')
    (blank : isBlankOrEnd (x.cursor.peek 1) = true) :
    x.lexHead = x.lexValue := by
  simp only [lexHead, head, blank, Bool.or_true, if_true]

theorem lexHead_entry (head : x.cursor.head = '-') (blank : isBlankOrEnd (x.cursor.peek 1) = true)
    (noMark : x.cursor.atDocumentMark = false) : x.lexHead = x.lexBlockEntry := by
  simp only [lexHead, head, blank, noMark, Bool.and_false, Bool.false_eq_true, if_false, if_true]

theorem lexHead_opening (head : x.cursor.head = '[') :
    x.lexHead = x.lexFlowStart .flowSequenceStart := by
  simp only [lexHead, head]

theorem lexHead_closing (head : x.cursor.head = ']') :
    x.lexHead = x.lexFlowEnd .flowSequenceEnd := by
  simp only [lexHead, head]

theorem lexHead_end (head : x.cursor.head = '\x00') : x.lexHead = x.readEnd := by
  simp only [lexHead, head]

end Dispatch

end Lexer

end SchemaBaseline.Yaml
