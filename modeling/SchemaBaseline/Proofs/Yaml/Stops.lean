import Mathlib.Algebra.Group.Nat.Defs
import SchemaBaseline.Proofs.Results
import SchemaBaseline.Proofs.Yaml.Lexer

/-!
# Where cutting a text into tokens stops

A text is cut into tokens up to its end, or up to a place where it is no YAML text, unless it
writes an escape whose number is the code of no character (`writesNoCharacter_of_tokensOf`). Every
reader of tokens goes on inside the text, so the escape that it stops at is a part of the text.
What is shown of a reader is `GoesOn`.
-/

namespace SchemaBaseline.Yaml

/-- A text holds a backslash, the letter `U` and eight hexadecimal digits that write the code of
no character. -/
inductive WritesNoCharacter (text : List Char) : Misfit → Prop
  | escape {digits : List Char} (inside : '\\' :: 'U' :: digits <:+: text)
    (eight : digits.length = 8) (hex : ∀ d ∈ digits, (hexDigit? d).isSome)
    (high : 0x110000 ≤ hexNumber digits) :
      WritesNoCharacter text (if hexNumber digits < Nat.pow 2 31 then .noCharacter else .hugeCode)

/-- What a reader may stop for inside a text. -/
def Excused (text : List Char) : Stop → Prop
  | .misread _ => True
  | .unfit misfit => WritesNoCharacter text misfit

/-! ## Cursors inside a text -/

/-- The rest of a cursor is the end of a text. -/
def Cursor.Inside (text : List Char) (c : Cursor) : Prop :=
  c.rest <:+ text

/-- A reader goes on inside a text, or it has an excuse. -/
abbrev GoesOn {α : Type} (text : List Char) : Except Stop (α × Cursor) → Prop :=
  Gives (Excused text) fun found => found.2.Inside text

theorem Cursor.rest_of_head {c : Cursor} {d : Char} (head : c.head = d) (there : d ≠ '\x00') :
    c.rest = d :: c.next.rest := by
  subst head
  unfold Cursor.next
  split
  · rename_i none
    refine absurd ?_ there
    rw [Cursor.head, Cursor.peek, none]
    rfl
  · rename_i ahead
    rw [Cursor.head, Cursor.peek, ahead]
    rfl

namespace Cursor.Inside

variable {text : List Char} {c : Cursor}

theorem next (inside : c.Inside text) : c.next.Inside text := by
  unfold Cursor.next
  split
  · exact inside
  · rename_i ahead
    rw [Inside, ahead] at inside
    exact (List.suffix_cons _ _).trans inside

theorem forward (n : Nat) (inside : c.Inside text) : (c.forward n).Inside text := by
  induction n generalizing c with
  | zero => exact inside
  | succ n ih => exact ih inside.next

theorem skip (p : Char → Bool) (inside : c.Inside text) : (c.skip p).Inside text :=
  inside.forward _

theorem skipSpaces (inside : c.Inside text) : c.skipSpaces.Inside text :=
  inside.skip _

theorem takeBreak {b : Char} {behind : Cursor} (inside : c.Inside text)
    (taken : c.takeBreak = some (b, behind)) :
    behind.Inside text := by
  unfold Cursor.takeBreak at taken
  split at taken
  · cases taken
    exact inside.forward 2
  split at taken
  · cases taken
    exact inside.next
  split at taken
  · cases taken
    exact inside.next
  · cases taken

/-- The cursor behind the break at the front, if there is one. -/
theorem behindBreak (inside : c.Inside text) :
    ((c.takeBreak.map Prod.snd).getD c).Inside text := by
  cases taken : c.takeBreak with
  | none => exact inside
  | some found => exact inside.takeBreak taken

theorem ite {p : Prop} [Decidable p] {d : Cursor} (yes : c.Inside text) (no : d.Inside text) :
    (if p then c else d).Inside text := by
  split
  · exact yes
  · exact no

end Cursor.Inside

section Readers

variable {text : List Char} {c : Cursor}

/-! ## Plain scalars -/

theorem inside_plainBreaks (fuel : Nat) (inside : c.Inside text) (breaks : List Char) :
    (plainBreaks fuel c breaks).2.Inside text := by
  induction fuel generalizing c breaks with
  | zero => exact inside
  | succ fuel ih =>
      rw [plainBreaks]
      split
      · exact ih inside.next _
      split
      · split
        · exact inside.takeBreak ‹_›
        · exact ih (inside.takeBreak ‹_›) _
      · exact inside

theorem inside_plainGap (inside : c.Inside text) : (plainGap c).cursor.Inside text := by
  have behind := inside.skipSpaces
  unfold plainGap
  dsimp only
  split
  · exact behind
  · rename_i taken
    have behindBreak := behind.takeBreak taken
    split
    · exact behindBreak
    · have breaks := inside_plainBreaks (Cursor.size ‹Cursor›) behindBreak []
      split
      · rename_i same
        rwa [same] at breaks
      · rename_i same
        rwa [same] at breaks

theorem inside_plainWords (inFlow : Bool) (indent : Int) (fuel : Nat) (gap : List Char)
    (broken : Bool) (inside : c.Inside text) :
    (plainWords inFlow indent fuel gap broken c).2.2.Inside text := by
  induction fuel generalizing c gap broken with
  | zero => exact inside
  | succ fuel ih =>
      rw [plainWords]
      generalize (if c.head = '#' then [] else plainWord inFlow c.rest) = word
      have behind := inside_plainGap (inside.forward word.length)
      dsimp only
      split
      · exact inside
      split
      · exact behind
      · exact ih _ _ behind

theorem inside_readPlain (inFlow : Bool) (indent : Int) (inside : c.Inside text) :
    (readPlain inFlow indent c).2.2.Inside text :=
  inside_plainWords inFlow _ _ _ _ inside

/-! ## Quoted scalars -/

theorem goesOn_quotedBreaks (start : Mark) (fuel : Nat) (inside : c.Inside text)
    (breaks : List Char) :
    GoesOn text (quotedBreaks start fuel c breaks) := by
  induction fuel generalizing c breaks with
  | zero => exact inside
  | succ fuel ih =>
      have behind := inside.skip isBlankOrTab
      rw [quotedBreaks]
      dsimp only
      split
      · exact trivial
      split
      · exact ih (behind.takeBreak ‹_›) _
      · exact behind

/-- Where none of the next characters is missing or no digit, they are digits. -/
theorem hexDigits_of_firstNonHex? {count : Nat} (none : firstNonHex? c count = none) :
    (c.rest.take count).length = count ∧ ∀ d ∈ c.rest.take count, (hexDigit? d).isSome := by
  have each : ∀ i < count, (hexDigit? (c.rest.getD i '\x00')).isSome := by
    intro i below
    have found := List.find?_eq_none.mp none _ (List.mem_map_of_mem (List.mem_range.mpr below))
    rw [Option.isNone_iff_eq_none] at found
    exact Option.isSome_iff_ne_none.mpr found
  have long : count ≤ c.rest.length := by
    apply Nat.le_of_not_lt
    intro short
    have missing := each c.rest.length short
    rw [List.getD_eq_getElem?_getD, List.getElem?_eq_none (Nat.le_refl _)] at missing
    exact absurd missing (by decide)
  refine ⟨List.length_take_of_le long, fun d member => ?_⟩
  obtain ⟨i, below, rfl⟩ := List.mem_take_iff_getElem.mp member
  have digit := each i (by omega)
  rwa [List.getD_eq_getElem?_getD, List.getElem?_eq_getElem (by omega)] at digit

theorem toNat_sub_le {d low high : Char} (between : low ≤ d ∧ d ≤ high) :
    d.toNat - low.toNat ≤ high.toNat - low.toNat :=
  Nat.sub_le_sub_right (UInt32.le_iff_toNat_le.mp between.2) _

theorem hexDigit?_lt (d : Char) : (hexDigit? d).getD 0 < 16 := by
  simp only [hexDigit?, Bool.and_eq_true, decide_eq_true_eq]
  split
  · exact Nat.lt_of_le_of_lt (toNat_sub_le ‹_›) (by decide)
  split
  · exact Nat.lt_of_le_of_lt (Nat.add_le_add_right (toNat_sub_le ‹_›) 10) (by decide)
  split
  · exact Nat.lt_of_le_of_lt (Nat.add_le_add_right (toNat_sub_le ‹_›) 10) (by decide)
  · exact Nat.zero_lt_succ _

theorem hexNumber_lt (digits : List Char) : hexNumber digits < 16 ^ digits.length := by
  have from_ : ∀ n, digits.foldl (fun n d => 16 * n + (hexDigit? d).getD 0) n <
      16 ^ digits.length * (n + 1) := by
    induction digits with
    | nil => exact fun n => by simp
    | cons d digits ih =>
        intro n
        have small := hexDigit?_lt d
        calc digits.foldl _ (16 * n + (hexDigit? d).getD 0)
          _ < 16 ^ digits.length * (16 * n + (hexDigit? d).getD 0 + 1) := ih _
          _ ≤ 16 ^ digits.length * (16 * (n + 1)) := Nat.mul_le_mul_left _ (by omega)
          _ = 16 ^ (digits.length + 1) * (n + 1) := by rw [Nat.pow_succ, Nat.mul_assoc]
  exact Nat.lt_of_lt_of_eq (from_ 0) (Nat.mul_one _)

/-- Two or four digits always write the code of a character or of a half of one. -/
theorem longEscape_cases {d : Char} {count : Nat} (announces : longEscape? d = some count) :
    count ≤ 4 ∨ d = 'U' ∧ count = 8 := by
  unfold longEscape? at announces
  split at announces <;> cases announces <;> simp

/-- An escape behind its backslash. -/
theorem goesOn_readEscape (start : Mark) (inside : '\\' :: c.rest <:+ text) :
    GoesOn text (readEscape start c) := by
  have within : c.Inside text := (List.suffix_cons _ _).trans inside
  unfold readEscape
  split
  · exact within.next
  · rename_i count announces _
    dsimp only
    split
    · exact trivial
    · rename_i digits
      obtain ⟨length, hex⟩ := hexDigits_of_firstNonHex? digits
      split
      · rename_i high
        have bound := hexNumber_lt (c.next.rest.take count)
        rw [length] at bound
        rcases longEscape_cases announces with few | ⟨letter, rfl⟩
        · have most : 16 ^ count ≤ 16 ^ 4 := Nat.pow_le_pow_right (by decide) few
          omega
        · rw [Cursor.rest_of_head letter (by decide)] at inside
          have digits : '\\' :: 'U' :: c.next.rest.take 8 <+: '\\' :: 'U' :: c.next.rest :=
            (List.prefix_append_right_inj ['\\', 'U']).mpr (List.take_prefix _ _)
          exact .escape (digits.isInfix.trans inside.isInfix) length hex high
      · exact within.next.forward _
  · refine (goesOn_quotedBreaks _ _ (within.takeBreak ‹_›) []).bind fun found behind => ?_
    exact behind
  · exact trivial

theorem goesOn_quotedGap (start : Mark) (inside : c.Inside text) :
    GoesOn text (quotedGap start c) := by
  have behind := inside.skip isBlankOrTab
  unfold quotedGap
  dsimp only
  split
  · exact trivial
  split
  · exact behind
  · exact (goesOn_quotedBreaks _ _ (behind.takeBreak ‹_›) []).bind fun _ within => within

theorem goesOn_quotedCodes (quote : Char) (start : Mark) (fuel : Nat) (inside : c.Inside text)
    (codes : List Nat) :
    GoesOn text (quotedCodes quote start fuel c codes) := by
  induction fuel generalizing c codes with
  | zero => exact trivial
  | succ fuel ih =>
      rw [quotedCodes]
      dsimp only
      split
      · split
        · exact ih (inside.forward 2) _
        · exact inside.next
      split
      · rename_i escape
        simp only [Bool.and_eq_true, decide_eq_true_eq] at escape
        have ahead := Cursor.rest_of_head escape.2 (by decide)
        exact (goesOn_readEscape start (ahead ▸ inside)).bind fun _ within => ih within _
      split
      · exact (goesOn_quotedGap start inside).bind fun _ within => ih within _
      · exact ih inside.next _

theorem goesOn_readQuoted (inside : c.Inside text) : GoesOn text (readQuoted c) :=
  goesOn_quotedCodes _ _ _ inside.next []

/-! ## Block scalars -/

theorem goesOn_readIndicator (start : Mark) (inside : c.Inside text) :
    GoesOn text (readIndicator start c) := by
  unfold readIndicator
  split
  · exact trivial
  split
  · exact inside.next
  · exact inside

theorem goesOn_readIndicators (start : Mark) (inside : c.Inside text) :
    Gives (Excused text) (fun found => found.2.2.Inside text) (readIndicators start c) := by
  unfold readIndicators
  refine (goesOn_readIndicator start (inside.next.ite inside)).bind fun found within => ?_
  dsimp only
  generalize (if ((chomping? c.head).isNone && found.1.isSome) = true then chomping? found.2.head
  else none) = late
  have behind : (if late.isSome = true then found.2.next else found.2).Inside text :=
    within.next.ite within
  generalize (if late.isSome = true then found.2.next else found.2) = d at behind ⊢
  split
  · exact behind
  · exact trivial

theorem gives_skipLineRest (activity : Activity) (start : Mark) (inside : c.Inside text) :
    Gives (Excused text) (Cursor.Inside text) (skipLineRest activity start c) := by
  have behind : (if c.skipSpaces.head = '#' then c.skipSpaces.skip (!isLineEnd ·)
  else c.skipSpaces).Inside text :=
    (inside.skipSpaces.skip _).ite inside.skipSpaces
  simp only [skipLineRest]
  generalize (if c.skipSpaces.head = '#' then c.skipSpaces.skip (!isLineEnd ·)
  else c.skipSpaces) = d at behind ⊢
  split
  · exact behind.behindBreak
  · exact trivial

theorem inside_findIndentation (fuel : Nat) (inside : c.Inside text) (breaks : List Char)
    (widest : Nat) :
    (findIndentation fuel c breaks widest).2.2.Inside text := by
  induction fuel generalizing c breaks widest with
  | zero => exact inside
  | succ fuel ih =>
      rw [findIndentation]
      split
      · exact ih inside.next _ _
      split
      · exact ih (inside.takeBreak ‹_›) _ _
      · exact inside

theorem inside_blockBreaks (indent fuel : Nat) (inside : c.Inside text) (breaks : List Char) :
    (blockBreaks indent fuel c breaks).2.Inside text := by
  induction fuel generalizing c breaks with
  | zero => exact inside
  | succ fuel ih =>
      have behind : (skipSpacesTo indent c).Inside text := inside.forward _
      rw [blockBreaks]
      split
      · exact ih (behind.takeBreak ‹_›) _
      · exact behind

theorem inside_blockLines (folded : Bool) (indent fuel : Nat) (lastBreak breaks : List Char)
    (inside : c.Inside text) :
    (blockLines folded indent fuel lastBreak breaks c).cursor.Inside text := by
  induction fuel generalizing c lastBreak breaks with
  | zero => exact inside
  | succ fuel ih =>
      rw [blockLines]
      split
      · exact inside
      · exact ih _ _ (inside_blockBreaks _ _ (inside.skip _).behindBreak _)

theorem goesOn_readBlock (indent : Int) (inside : c.Inside text) :
    GoesOn text (readBlock indent c) := by
  unfold readBlock
  refine (goesOn_readIndicators _ inside.next).bind fun found within => ?_
  refine (gives_skipLineRest _ _ within).bind fun behind inside => ?_
  refine inside_blockLines _ _ _ _ _ ?_
  split
  · exact inside_blockBreaks _ _ inside []
  · exact inside_findIndentation _ inside [] 0

/-! ## Names -/

theorem goesOn_readReference (activity : Activity) (inside : c.Inside text) :
    GoesOn text (readReference activity c) := by
  unfold readReference
  dsimp only
  split
  · exact trivial
  · exact inside.next.forward _

theorem goesOn_uriBytes (activity : Activity) (start : Mark) (fuel : Nat) (inside : c.Inside text)
    (bytes : List UInt8) :
    GoesOn text (uriBytes activity start fuel c bytes) := by
  induction fuel generalizing c bytes with
  | zero => exact inside
  | succ fuel ih =>
      rw [uriBytes]
      split
      · dsimp only
        split
        · exact trivial
        · exact ih (inside.next.forward 2) _
      · exact inside

theorem goesOn_uriChars (activity : Activity) (start : Mark) (fuel : Nat) (inside : c.Inside text)
    (cs : List Char) :
    GoesOn text (uriChars activity start fuel c cs) := by
  induction fuel generalizing c cs with
  | zero => exact inside
  | succ fuel ih =>
      have escapes := goesOn_uriBytes activity start c.size inside []
      rw [uriChars]
      split
      · split
        · exact escapes.error ‹_›
        · have behind := escapes.ok ‹_›
          split
          · exact trivial
          · exact ih behind _
      split
      · exact ih inside.next _
      · exact inside

theorem goesOn_readUri (escaping reading : Activity) (start : Mark) (inside : c.Inside text) :
    GoesOn text (readUri escaping reading start c) := by
  unfold readUri
  refine (goesOn_uriChars _ _ _ inside []).bind fun found behind => ?_
  dsimp only
  split
  · exact trivial
  · exact behind

theorem goesOn_readHandle (activity : Activity) (start : Mark) (inside : c.Inside text) :
    GoesOn text (readHandle activity start c) := by
  have behind := inside.next.forward (c.next.run isNameChar).length
  unfold readHandle
  dsimp only
  split
  · exact trivial
  split
  · exact behind
  split
  · exact trivial
  · exact behind.next

theorem goesOn_readTag (inside : c.Inside text) : GoesOn text (readTag c) := by
  have ending : ∀ found : Token × Cursor, found.2.Inside text →
      GoesOn text (if isSpaceOrEnd found.2.head then .ok (found.1, found.2)
        else stopDuring .tag c.mark (.expected .blank found.2.head) found.2.mark) := by
    intro found behind
    split
    · exact behind
    · exact trivial
  unfold readTag
  dsimp only
  split
  · refine (goesOn_readUri _ _ _ (inside.forward 2)).bind fun found behind => ?_
    split
    · exact ending (.tag none found.1, found.2.next) behind.next
    · exact trivial
  split
  · exact ending (_, c.next) inside.next
  split
  · refine (goesOn_readHandle _ _ inside).bind fun handle within => ?_
    exact (goesOn_readUri _ _ _ within).bind fun found behind => ending (_, found.2) behind
  · exact (goesOn_readUri _ _ _ inside.next).bind fun found behind => ending (_, found.2) behind

theorem goesOn_readDirectiveNumber (start : Mark) (inside : c.Inside text) :
    GoesOn text (readDirectiveNumber start c) := by
  unfold readDirectiveNumber
  dsimp only
  split
  · exact trivial
  · exact inside.forward _

theorem goesOn_readVersion (start : Mark) (inside : c.Inside text) :
    GoesOn text (readVersion start c) := by
  unfold readVersion
  refine (goesOn_readDirectiveNumber _ inside.skipSpaces).bind fun major within => ?_
  dsimp only
  split
  · exact trivial
  · refine (goesOn_readDirectiveNumber _ within.next).bind fun minor behind => ?_
    split
    · exact behind
    · exact trivial

theorem goesOn_readReplacement (start : Mark) (inside : c.Inside text) :
    GoesOn text (readReplacement start c) := by
  unfold readReplacement
  refine (goesOn_readHandle _ _ inside.skipSpaces).bind fun handle within => ?_
  dsimp only
  split
  · exact trivial
  · refine (goesOn_readUri _ _ _ within.skipSpaces).bind fun replacement behind => ?_
    split
    · exact behind
    · exact trivial

theorem goesOn_readDirective (inside : c.Inside text) : GoesOn text (readDirective c) := by
  have behindName := inside.next.forward (c.next.run isNameChar).length
  have ending : ∀ found : Directive × Cursor, found.2.Inside text →
      GoesOn text (do
        let c ← skipLineRest .directive c.mark found.2
        .ok (found.1, c)) :=
    fun found within => (gives_skipLineRest _ _ within).bind fun c behind => behind
  unfold readDirective
  dsimp only
  split
  · exact trivial
  split
  · exact (goesOn_readVersion _ behindName).bind ending
  · exact (goesOn_readReplacement _ behindName).bind ending
  · have behind := behindName.skip (!isLineEnd ·)
    generalize (c.next.forward (c.next.run isNameChar).length).skip (!isLineEnd ·) = d at behind ⊢
    have reserved : GoesOn text (pure (Directive.reserved, d)) := behind
    exact reserved.bind ending

end Readers

/-! ## Tokens -/

namespace Lexer

/-- The cursor is inside a text. -/
def Inside (text : List Char) (x : Lexer) : Prop :=
  x.cursor.Inside text

/-- Cutting a text into tokens goes on inside it, or there is an excuse. -/
abbrev Advances (text : List Char) : Except Stop Lexer → Prop :=
  Gives (Excused text) (Inside text)

section Steps

variable {text : List Char} {x : Lexer}

theorem advances_dropStale (inside : x.Inside text) : Advances text x.dropStale := by
  unfold dropStale
  split
  · exact trivial
  · exact inside

theorem advances_dropCandidate (inside : x.Inside text) : Advances text x.dropCandidate := by
  unfold dropCandidate
  split
  · exact inside
  split
  · exact trivial
  · exact inside

theorem advances_addCandidate (inside : x.Inside text) : Advances text x.addCandidate := by
  unfold addCandidate
  split
  · exact (advances_dropCandidate inside).bind fun x inside => inside
  · exact inside

theorem inside_closeBlocks (column : Int) (outer : List Int) (inside : x.Inside text) :
    (x.closeBlocks column outer).Inside text := by
  induction outer generalizing x with
  | nil => exact inside
  | cons around outer ih =>
      rw [closeBlocks]
      split
      · exact ih inside
      · exact inside

theorem inside_unwind (column : Int) (inside : x.Inside text) :
    (x.unwind column).Inside text := by
  unfold unwind
  split
  · exact inside
  · exact inside_closeBlocks _ _ inside

theorem inside_openBlock {opened : Lexer} {column : Nat} (inside : x.Inside text)
    (opens : x.openBlock column = some opened) :
    opened.Inside text := by
  unfold openBlock at opens
  split at opens
  · cases opens
    exact inside
  · cases opens

theorem inside_beginBlock (token : Token) (inside : x.Inside text) :
    (x.beginBlock token).Inside text := by
  unfold beginBlock
  split
  · rename_i opens
    have opened := inside_openBlock inside opens
    exact opened
  · exact inside

theorem inside_skipBlanks (fuel : Nat) (inFlow allowed : Bool) {c : Cursor}
    (inside : c.Inside text) :
    (skipBlanks fuel inFlow allowed c).2.Inside text := by
  induction fuel generalizing allowed c with
  | zero => exact inside
  | succ fuel ih =>
      have behind : (if c.skipSpaces.head = '#' then c.skipSpaces.skip (!isLineEnd ·)
      else c.skipSpaces).Inside text :=
        (inside.skipSpaces.skip _).ite inside.skipSpaces
      simp only [skipBlanks]
      generalize (if c.skipSpaces.head = '#' then c.skipSpaces.skip (!isLineEnd ·)
      else c.skipSpaces) = d at behind ⊢
      split
      · exact ih _ (behind.takeBreak ‹_›)
      · exact behind

theorem inside_skipToToken (inside : x.Inside text) : x.skipToToken.Inside text := by
  have behindMark : (if x.mark.index = 0 && x.cursor.head = '\ufeff' then x.cursor.next
  else x.cursor).Inside text :=
    (Cursor.Inside.next inside).ite inside
  unfold skipToToken
  generalize (if x.mark.index = 0 && x.cursor.head = '\ufeff' then x.cursor.next else x.cursor) =
    c at behindMark ⊢
  have behind := inside_skipBlanks (c.size + 1) x.inFlow x.nameAllowed behindMark
  exact behind

theorem advances_readEnd (inside : x.Inside text) : Advances text x.readEnd :=
  (advances_dropCandidate (inside_unwind _ inside)).bind fun _ inside => inside

theorem advances_lexDirective (inside : x.Inside text) : Advances text x.lexDirective :=
  (advances_dropCandidate (inside_unwind _ inside)).bind fun _ inside =>
    (goesOn_readDirective inside).bind fun _ behind => behind

theorem advances_lexDocumentMark (token : Token) (inside : x.Inside text) :
    Advances text (x.lexDocumentMark token) :=
  (advances_dropCandidate (inside_unwind _ inside)).bind fun _ inside =>
    Cursor.Inside.forward 3 inside

theorem advances_lexFlowStart (token : Token) (inside : x.Inside text) :
    Advances text (x.lexFlowStart token) :=
  (advances_addCandidate inside).bind fun _ inside => Cursor.Inside.forward 1 inside

theorem advances_lexFlowEnd (token : Token) (inside : x.Inside text) :
    Advances text (x.lexFlowEnd token) :=
  (advances_dropCandidate inside).bind fun _ inside => Cursor.Inside.forward 1 inside

theorem advances_lexFlowEntry (inside : x.Inside text) : Advances text x.lexFlowEntry :=
  (advances_dropCandidate inside).bind fun _ inside => Cursor.Inside.forward 1 inside

/-- What opens a block outside flow collections stays where it is. -/
theorem inside_beginBlock_ite {p : Prop} [Decidable p] (token : Token) (inside : x.Inside text) :
    (if p then x else x.beginBlock token).Inside text := by
  split
  · exact inside
  · exact inside_beginBlock token inside

theorem advances_lexBlockEntry (inside : x.Inside text) : Advances text x.lexBlockEntry := by
  unfold lexBlockEntry
  split
  · exact trivial
  · exact (advances_dropCandidate (inside_beginBlock_ite _ inside)).bind fun _ inside =>
      Cursor.Inside.forward 1 inside

theorem advances_lexKey (inside : x.Inside text) : Advances text x.lexKey := by
  unfold lexKey
  split
  · exact trivial
  · exact (advances_dropCandidate (inside_beginBlock_ite _ inside)).bind fun _ inside =>
      Cursor.Inside.forward 1 inside

theorem advances_lexValue (inside : x.Inside text) : Advances text x.lexValue := by
  unfold lexValue
  split
  · refine Cursor.Inside.forward 1 ?_
    split
    · exact inside
    split
    · rename_i name _ _ _ _ opens
      have announced : (insertAt { x with
          candidates := x.candidates.filter fun entry => entry.1 != x.flow } name.number .key
          name.mark).Inside text := inside
      have opened := inside_openBlock announced opens
      exact opened
    · exact inside
  split
  · exact trivial
  · exact (advances_dropCandidate (inside_beginBlock_ite _ inside)).bind fun _ inside =>
      Cursor.Inside.forward 1 inside

theorem advances_lexProperty {read : Cursor → Except Stop (Token × Cursor)}
    (inside : x.Inside text) (reads : ∀ c : Cursor, c.Inside text → GoesOn text (read c)) :
    Advances text (x.lexProperty read) :=
  (advances_addCandidate inside).bind fun _ inside => (reads _ inside).bind fun _ behind => behind

theorem advances_lexBlockScalar (inside : x.Inside text) : Advances text x.lexBlockScalar :=
  (advances_dropCandidate inside).bind fun _ inside =>
    (goesOn_readBlock _ inside).bind fun _ behind => behind

theorem advances_lexQuoted (inside : x.Inside text) : Advances text x.lexQuoted :=
  (advances_addCandidate inside).bind fun _ inside =>
    (goesOn_readQuoted inside).bind fun _ behind => behind

theorem advances_lexPlain (inside : x.Inside text) : Advances text x.lexPlain :=
  (advances_addCandidate inside).bind fun _ inside => inside_readPlain _ _ inside

theorem advances_lexHead (inside : x.Inside text) : Advances text x.lexHead := by
  have reference : ∀ (activity : Activity) (tokenOf : String → Token) (c : Cursor),
      c.Inside text → GoesOn text ((readReference activity c).map fun found =>
      (tokenOf found.1, found.2)) :=
    fun activity _ c within => (goesOn_readReference activity within).map fun _ behind => behind
  unfold lexHead
  dsimp only
  split
  · exact advances_readEnd inside
  · split
    · exact advances_lexDirective inside
    · exact trivial
  · exact advances_lexFlowStart _ inside
  · exact advances_lexFlowStart _ inside
  · exact advances_lexFlowEnd _ inside
  · exact advances_lexFlowEnd _ inside
  · exact advances_lexFlowEntry inside
  · split
    · exact advances_lexDocumentMark _ inside
    split
    · exact advances_lexBlockEntry inside
    · exact advances_lexPlain inside
  · split
    · exact advances_lexDocumentMark _ inside
    · exact advances_lexPlain inside
  · split
    · exact advances_lexKey inside
    · exact advances_lexPlain inside
  · split
    · exact advances_lexValue inside
    · exact advances_lexPlain inside
  · exact advances_lexProperty inside (reference .alias .alias)
  · exact advances_lexProperty inside (reference .anchor .anchor)
  · exact advances_lexProperty inside fun _ within => goesOn_readTag within
  · split
    · exact trivial
    · exact advances_lexBlockScalar inside
  · split
    · exact trivial
    · exact advances_lexBlockScalar inside
  · exact advances_lexQuoted inside
  · exact advances_lexQuoted inside
  · split
    · exact trivial
    · exact advances_lexPlain inside

section Rounds

-- The steps are kept closed, since it is no help to compute them.
attribute [local irreducible] skipToToken lexHead

theorem advances_lexToken (inside : x.Inside text) : Advances text x.lexToken :=
  (advances_dropStale (inside_skipToToken inside)).bind fun _ inside =>
    advances_lexHead (inside_unwind _ inside)

attribute [local irreducible] lexToken

/-- Every round goes on inside the text, so a round that stops has an excuse. -/
theorem excused_of_lex (fuel settled : Nat) (inside : x.Inside text) {stop : Stop}
    (stops : (lex fuel settled x).2 = some stop) :
    Excused text stop := by
  induction fuel generalizing settled x with
  | zero => cases stops
  | succ fuel ih =>
      have token := advances_lexToken inside
      rw [lex_succ] at stops
      split at stops
      · cases stops
        exact token.error ‹_›
      · have fresh := advances_dropStale (token.ok ‹_›)
        split at stops
        · cases stops
        split at stops
        · cases stops
          exact fresh.error ‹_›
        · exact ih _ (fresh.ok ‹_›) stops

end Rounds

end Steps

end Lexer

/-- A text is cut into tokens up to its end, up to a place where it is no YAML text, or up to an
escape that writes no character. -/
theorem writesNoCharacter_of_tokensOf {text : List Char} {misfit : Misfit}
    (stops : (tokensOf text).2 = some (.unfit misfit)) :
    WritesNoCharacter text misfit := by
  have inside : (Lexer.start text).Inside text := List.suffix_refl text
  rw [tokensOf] at stops
  exact Lexer.excused_of_lex _ _ inside stops

end SchemaBaseline.Yaml
