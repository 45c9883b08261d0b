import SchemaBaseline.Json.Reader
import SchemaBaseline.Proofs.Results

/-!
# JSON texts that write too long numbers

A JSON text is read or is malformed, unless it holds a run of more digits than a whole number can
have (`Json.longRun_of_read`). Every reader goes on inside the text, so what it stops at is a part
of the text.
-/

namespace SchemaBaseline.Json

/-- A text holds a run of so many digits that they are no whole number. -/
def LongRun (text : List Char) (count : Nat) : Prop :=
  ∃ digits, digits <:+: text ∧ (∀ d ∈ digits, d.isDigit = true) ∧ digits.length = count ∧
    Decimal.maxDigits < count

/-- What a reader may stop for inside a text. -/
def Excused (text : List Char) : Stop → Prop
  | .malformed _ _ => True
  | .tooManyDigits count => LongRun text count

/-- A reader goes on inside a text, or it has an excuse. -/
abbrev GoesOn {α : Type} (text : List Char) : Except Stop (α × List Char) → Prop :=
  Gives (Excused text) fun found => found.2 <:+ text

section GoesOn

variable {text cs : List Char}

theorem suffix_skipBlanks (inside : cs <:+ text) : skipBlanks cs <:+ text :=
  (List.dropWhile_suffix _).trans inside

theorem suffix_tail {c : Char} (inside : c :: cs <:+ text) : cs <:+ text :=
  (List.suffix_cons c cs).trans inside

theorem suffix_of_skipBlanks {c : Char} {rest : List Char} (inside : cs <:+ text)
    (ahead : skipBlanks cs = c :: rest) :
    rest <:+ text :=
  suffix_tail (ahead ▸ suffix_skipBlanks inside)

theorem excused_of_unicodeEscape {e : Stop} (fails : unicodeEscape cs = .error e) :
    Excused text e := by
  unfold unicodeEscape at fails
  grind [stop, Excused]

theorem goesOn_readCodes (codeOf : List Char → Nat) (opening : List Char) (fuel : Nat)
    (inside : cs <:+ text) (acc : List Nat) :
    GoesOn text (readCodes codeOf opening fuel cs acc) := by
  induction fuel generalizing cs acc with
  | zero => cases cs <;> exact trivial
  | succ fuel ih =>
      rcases cs with _ | ⟨c, cs⟩
      · exact trivial
      rw [readCodes.eq_def]
      dsimp only
      have within := suffix_tail inside
      split
      · exact within
      split
      · split
        · exact trivial
        · split
          · exact excused_of_unicodeEscape ‹_›
          · exact ih ((List.drop_suffix _ _).trans within) _
        · split
          · exact trivial
          · exact ih (suffix_tail within) _
      split
      · exact trivial
      · exact ih within _

theorem suffix_drop (n : Nat) (inside : cs <:+ text) : cs.drop n <:+ text :=
  (List.drop_suffix n cs).trans inside

theorem suffix_dropWhile (p : Char → Bool) (inside : cs <:+ text) : cs.dropWhile p <:+ text :=
  (List.dropWhile_suffix p).trans inside

theorem suffix_ite_drop {p : Prop} [Decidable p] (inside : cs <:+ text) :
    (if p then cs.drop 1 else cs) <:+ text := by
  split
  · exact suffix_drop 1 inside
  · exact inside

theorem suffix_of_readExponent {found : Int × List Char} (inside : cs <:+ text)
    (reads : readExponent cs = some found) :
    found.2 <:+ text := by
  rcases cs with _ | ⟨e, rest⟩
  · cases reads
  have behindSign :=
    @suffix_ite_drop text rest ((decide (rest.head? = some '-') || decide (rest.head? = some '+'))
      = true) _ (suffix_tail inside)
  simp only [readExponent] at reads
  generalize (if (decide (rest.head? = some '-') || decide (rest.head? = some '+')) = true then
    rest.drop 1 else rest) = body at behindSign reads
  split at reads
  · split at reads
    · cases reads
    · cases reads
      exact suffix_dropWhile _ behindSign
  · cases reads

theorem suffix_of_readFraction {found : List Char × List Char} (inside : cs <:+ text)
    (reads : readFraction cs = some found) :
    found.2 <:+ text := by
  unfold readFraction at reads
  split at reads
  · dsimp only at reads
    split at reads
    · cases reads
    · cases reads
      exact suffix_dropWhile _ (suffix_tail inside)
  · cases reads

theorem suffix_getD {α : Type} {read : Option (α × List Char)} (inside : cs <:+ text)
    (each : ∀ found, read = some found → found.2 <:+ text) :
    (read.map Prod.snd).getD cs <:+ text := by
  cases read with
  | none => exact inside
  | some found => exact each found rfl

theorem wholeDigits_spec (cs : List Char) :
    wholeDigits cs <+: cs ∧ ∀ d ∈ wholeDigits cs, d.isDigit = true := by
  unfold wholeDigits
  split
  · exact ⟨⟨_, rfl⟩, by simp⟩
  · refine ⟨List.takeWhile_prefix _, fun d member => ?_⟩
    exact List.all_eq_true.mp List.all_takeWhile d member

/-- The digits of a whole number are a run in the text. -/
theorem goesOn_readNumber (inside : cs <:+ text) : GoesOn text (readNumber cs) := by
  have behindSign := @suffix_ite_drop text cs (cs.head? = some '-') _ inside
  simp only [readNumber]
  generalize (if cs.head? = some '-' then cs.drop 1 else cs) = body at behindSign
  have behindWhole := suffix_drop (wholeDigits body).length behindSign
  obtain ⟨front, digits⟩ := wholeDigits_spec body
  split
  · exact trivial
  split
  · split
    · rename_i long
      exact ⟨wholeDigits body, front.isInfix.trans behindSign.isInfix, digits, rfl, long⟩
    · exact behindWhole
  · have behindFraction :=
      suffix_getD behindWhole fun _ reads => suffix_of_readFraction behindWhole reads
    exact suffix_getD behindFraction fun _ reads => suffix_of_readExponent behindFraction reads

theorem suffix_of_readWord {found : Value × List Char} (inside : cs <:+ text)
    (reads : readWord cs = some found) :
    found.2 <:+ text := by
  obtain ⟨entry, -, rfl⟩ := Option.map_eq_some_iff.mp reads
  exact suffix_drop _ inside

end GoesOn

/-! ## Values -/

/-- What is shown of the three readers, which recur on one another with less fuel. -/
theorem goesOn_readers (codeOf : List Char → Nat) (text : List Char) (fuel : Nat) :
    (∀ cs, cs <:+ text → GoesOn text (readValue codeOf fuel cs)) ∧
    (∀ cs, cs <:+ text → ∀ acc, GoesOn text (readItems codeOf fuel cs acc)) ∧
    (∀ cs, cs <:+ text → ∀ acc, GoesOn text (readEntries codeOf fuel cs acc)) := by
  induction fuel with
  | zero => exact ⟨fun _ _ => trivial, fun _ _ _ => trivial, fun _ _ _ => trivial⟩
  | succ fuel ih =>
      obtain ⟨value, items, entries⟩ := ih
      refine ⟨fun cs inside => ?_, fun cs inside acc => ?_, fun cs inside acc => ?_⟩
      · rw [readValue.eq_def]
        dsimp only
        split
        · exact (goesOn_readCodes _ _ _ (suffix_tail inside) []).bind fun _ within => within
        · split
          · exact suffix_of_skipBlanks (suffix_tail inside) ‹_›
          · exact items _ (suffix_skipBlanks (suffix_tail inside)) []
        · split
          · exact suffix_of_skipBlanks (suffix_tail inside) ‹_›
          · exact entries _ (suffix_skipBlanks (suffix_tail inside)) []
        · split
          · exact suffix_of_readWord inside ‹_›
          · exact goesOn_readNumber inside
      · rw [readItems.eq_def]
        refine (value cs inside).bind fun found within => ?_
        dsimp only
        split
        · exact suffix_of_skipBlanks within ‹_›
        · exact items _ (suffix_skipBlanks (suffix_of_skipBlanks within ‹_›)) _
        · exact trivial
      · rw [readEntries.eq_def]
        dsimp only
        split
        · refine (goesOn_readCodes _ _ _ (suffix_tail inside) []).bind fun name within => ?_
          split
          · have behindColon := suffix_skipBlanks (suffix_of_skipBlanks within ‹_›)
            refine (value _ behindColon).bind fun found behind => ?_
            split
            · exact suffix_of_skipBlanks behind ‹_›
            · exact entries _ (suffix_skipBlanks (suffix_of_skipBlanks behind ‹_›)) _
            · exact trivial
          · exact trivial
        · exact trivial

theorem gives_readAll (codeOf : List Char → Nat) (text : List Char) :
    Gives (Excused text) (fun _ => True) (readAll codeOf text) := by
  refine ((goesOn_readers codeOf text _).1 _ (suffix_skipBlanks (List.suffix_refl text))).bind
    fun found _ => ?_
  dsimp only
  split <;> exact trivial

/-- A text that writes a number with too many digits holds them in a run. -/
theorem longRun_of_read {s : String} {count : Nat}
    (fails : read s = .error (.tooManyDigits count)) :
    LongRun s.toList count := by
  have gives := gives_readAll frontCode s.toList
  simp only [read, readUnmarked] at fails
  split at fails
  · cases fails
  · split at fails
    · cases fails
    · cases fails
    · cases fails
      exact gives.error ‹_›

end SchemaBaseline.Json
