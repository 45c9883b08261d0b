import Mathlib.Data.List.TakeWhile
import SchemaBaseline.Proofs.Yaml.Nodes

/-!
# Written YAML is read back

`Yaml.read_write`: an object with plain names and faithful values is what is read from its text.
`Faithful.printed` adds what is needed besides the tokens and the nodes: every character that is
written may stand in a text, and none is a carriage return, so unifying the line ends of such a
text changes nothing.
-/

namespace SchemaBaseline.Yaml

/-! ## Characters that are written -/

/-- Characters that a text may hold, without the carriage return. -/
def isPrinted (c : Char) : Bool :=
  isAcceptable c && c != '\r'

section Printed

variable {c : Char} {cs : List Char}

theorem isPrinted_of_between {low high : Char} (above : ' ' ≤ low) (below : high ≤ '~')
    (between : low ≤ c ∧ c ≤ high) :
    isPrinted c = true := by
  have least : ' ' ≤ c := Char.le_trans above between.1
  have most : c ≤ '~' := Char.le_trans between.2 below
  have noReturn : c ≠ '\r' := by
    intro same
    exact absurd (same ▸ least) (by decide)
  simp [isPrinted, isAcceptable, least, most, noReturn]

theorem isPrinted_of_isUnescaped (unescaped : isUnescaped c = true) : isPrinted c = true := by
  have noReturn : c ≠ '\r' := by
    intro same
    exact absurd (same ▸ unescaped) (by decide)
  simp only [isUnescaped, Bool.or_eq_true, Bool.and_eq_true, decide_eq_true_eq] at unescaped
  simp only [isPrinted, isAcceptable, Bool.and_eq_true, Bool.or_eq_true, decide_eq_true_eq,
    bne_iff_ne, ne_eq, noReturn, not_false_eq_true, and_true]
  grind

theorem isPrinted_of_not_needsEscape (raw : needsEscape c = false) : isPrinted c = true := by
  have noReturn : c ≠ '\r' := by
    intro same
    exact absurd (same ▸ raw) (by decide)
  simp only [needsEscape, Bool.or_eq_false_iff, Bool.not_eq_false', Bool.or_eq_true,
    Bool.and_eq_true, decide_eq_true_eq] at raw
  simp only [isPrinted, isAcceptable, Bool.and_eq_true, Bool.or_eq_true, decide_eq_true_eq,
    bne_iff_ne, ne_eq, noReturn, not_false_eq_true, and_true]
  grind

theorem isPrinted_of_hexDigit? (digit : (hexDigit? c).isSome) : isPrinted c = true := by
  simp only [hexDigit?, Bool.and_eq_true, decide_eq_true_eq] at digit
  split at digit
  · rename_i between
    exact isPrinted_of_between (by decide) (by decide) between
  split at digit
  · rename_i between
    exact isPrinted_of_between (by decide) (by decide) between
  split at digit
  · rename_i between
    exact isPrinted_of_between (by decide) (by decide) between
  · cases digit

theorem isPrinted_of_shortEscape? {code : Nat} (means : shortEscape? c = some code) :
    isPrinted c = true := by
  unfold shortEscape? at means
  split at means
  case h_19 => cases means
  all_goals rfl

theorem EscapeOf.printed {e : List Char} (escape : EscapeOf c e) : e.all isPrinted = true := by
  cases escape with
  | short means => simp [isPrinted_of_shortEscape? means]
  | @long letter digits _ announces hex _ =>
      have first : isPrinted letter = true := by
        unfold longEscape? at announces
        split at announces <;> first | rfl | cases announces
      have others : digits.all isPrinted = true :=
        List.all_eq_true.mpr fun d member => isPrinted_of_hexDigit? (hex d member)
      rw [List.all_cons, first, others]
      rfl

theorem printed_doubleChar (c : Char) : (doubleChar c).all isPrinted = true := by
  rcases needs : needsEscape c with _ | _
  · have once : doubleChar c = [c] := by simp [doubleChar, needs]
    simp [once, isPrinted_of_not_needsEscape needs]
  · obtain ⟨e, written, escape⟩ := exists_escape needs
    rw [written, List.all_cons, escape.printed]
    rfl

theorem printed_newLine (indent : Nat) : (newLine indent).all isPrinted = true := by
  have feed : isPrinted '\n' = true := by decide
  have space : isPrinted ' ' = true := by decide
  simp [newLine, feed, space]

theorem printed_doubleBreak (indent : Nat) (next : Option Char) :
    (doubleBreak indent next).all isPrinted = true := by
  have backslash : isPrinted '\\' = true := by decide
  rw [doubleBreak, List.all_append, List.all_cons, backslash, printed_newLine]
  split
  · rw [List.all_cons, backslash]
    rfl
  · rfl

theorem printed_doubleChars (indent : Nat) (first escaped : Bool) (column : Nat) :
    (doubleChars true indent first escaped column cs).all isPrinted = true := by
  induction cs generalizing first escaped column with
  | nil => rfl
  | cons c cs ih =>
      rcases needs : needsEscape c with _ | _
      · have here := isPrinted_of_not_needsEscape needs
        rcases @doubleChars_raw indent column first escaped c cs needs with
          ⟨_, written⟩ | ⟨-, -, -, _, written⟩ <;>
        simp only [written, List.all_append, List.all_cons, here, ih, printed_doubleBreak,
          Bool.and_true]
      · have here := printed_doubleChar c
        rcases @doubleChars_escape indent column first escaped c cs needs with
          ⟨_, written⟩ | ⟨-, -, written⟩ <;>
        simp only [written, List.all_append, here, ih, printed_doubleBreak, Bool.and_true]

theorem printed_foldedChar (quote : Bool) (printed : isPrinted c = true) :
    (foldedChar quote c).all isPrinted = true := by
  unfold foldedChar
  split
  · rfl
  · rw [List.all_cons, printed]
    rfl

theorem printed_foldedChars (quote : Bool) (indent : Nat) (before : Option Char) (column : Nat)
    (unescaped : ∀ c ∈ cs, isUnescaped c = true) :
    (foldedChars quote indent before column cs).all isPrinted = true := by
  have space : isPrinted ' ' = true := by decide
  induction cs generalizing before column with
  | nil => rfl
  | cons c cs ih =>
      have here := unescaped c List.mem_cons_self
      have later :=
        fun before column => ih before column fun d member =>
          unescaped d (List.mem_cons_of_mem _ member)
      by_cases isSpace : c = ' '
      · subst isSpace
        rcases @foldedChars_space cs indent quote before column with
          written | ⟨_, _, _, -, -, -, -, written⟩ <;>
        simp only [written, List.all_append, List.all_cons, space, later, printed_newLine,
          Bool.and_true]
      rcases isBreak : isInnerBreak c with _ | _
      · rw [foldedChars_visible quote (not_blankOrEnd_of_isUnescaped here isSpace isBreak),
          List.all_append, later, printed_foldedChar quote (isPrinted_of_isUnescaped here)]
        rfl
      · have doubled : ∀ b : Bool, (if b then ['\n'] else []).all isPrinted = true := by decide
        rw [foldedChars_break quote isBreak, List.all_append, doubled, List.all_cons,
          isPrinted_of_isUnescaped here]
        split
        · exact later _ _
        · rw [List.all_append, later, List.all_replicate, space]
          simp

theorem isUnescaped_of_mem (fits : fitsSingle cs = true) (member : c ∈ cs) :
    isUnescaped c = true := by
  simp only [fitsSingle, Bool.and_eq_true, List.all_eq_true] at fits
  exact fits.1.1 c member

theorem printed_scalarChars (indent column : Nat) (cs : List Char) :
    (scalarChars false indent column cs).all isPrinted = true := by
  rcases plain : fitsPlain cs with _ | _
  · rcases fits : fitsSingle cs with _ | _
    · rw [scalarChars_double indent column plain fits, List.all_cons, List.all_append,
        printed_doubleChars]
      decide
    · rw [scalarChars_single indent column plain fits, List.all_cons, List.all_append,
        printed_foldedChars _ _ _ _ fun c member => isUnescaped_of_mem fits member]
      decide
  · rw [scalarChars_plain indent column plain]
    exact printed_foldedChars _ _ _ _ fun c member =>
      isUnescaped_of_mem (fitsPlain_of plain).single member

end Printed

/-! ## Values -/

theorem printed_nameChars {name : String} (isName : isPlainName name.toList = true) :
    (nameChars name).all isPrinted = true := by
  have plain := fitsPlain_of (fitsPlain_of_isPlainName isName)
  have signs : name.toList.all isPrinted = true := List.all_eq_true.mpr fun c member =>
    isPrinted_of_isUnescaped (isUnescaped_of_mem plain.single member)
  rw [nameChars_eq isName, List.all_append, signs]
  decide

theorem printed_moreEntries {indent : Nat} {entries : Entries}
    (names : ∀ entry ∈ entries, isPlainName entry.1.toList = true)
    (each : ∀ entry ∈ entries, ∀ column, (entryValueChars indent column entry.2).all isPrinted =
      true) :
    (moreEntries indent entries).all isPrinted = true := by
  induction entries with
  | nil => rw [moreEntries, List.all_nil]
  | cons entry rest ih =>
      have first := each entry List.mem_cons_self (columnBehind indent entry.1)
      have later := ih (fun e member => names e (List.mem_cons_of_mem _ member))
        fun e member => each e (List.mem_cons_of_mem _ member)
      obtain ⟨name, v⟩ := entry
      have name := printed_nameChars (names (name, v) List.mem_cons_self)
      simp only [moreEntries, List.all_append, printed_newLine, name, first, later, Bool.and_true]

theorem printed_moreItems {indent : Nat} {items : List Value}
    (each : ∀ v ∈ items, (itemChars indent v).all isPrinted = true) :
    (moreItems indent items).all isPrinted = true := by
  induction items with
  | nil => rw [moreItems, List.all_nil]
  | cons v rest ih =>
      have first := each v List.mem_cons_self
      have later := ih fun w member => each w (List.mem_cons_of_mem _ member)
      simp only [moreItems, List.all_append, printed_newLine, first, later, Bool.and_true]

theorem printed_list {indent : Nat} {items : List Value}
    (each : ∀ v ∈ items, (itemChars indent v).all isPrinted = true) (column : Nat) :
    (entryValueChars indent column (.list items)).all isPrinted = true := by
  cases items with
  | nil =>
      rw [entryValueChars]
      decide
  | cons v rest =>
      have first := each v List.mem_cons_self
      have later := printed_moreItems fun w member => each w (List.mem_cons_of_mem _ member)
      simp only [entryValueChars, List.all_append, printed_newLine, first, later, Bool.and_true]

/-- An object is printed behind a name and as an item. -/
theorem printed_object {indent : Nat} {entries : Entries} (full : entries ≠ [])
    (names : ∀ entry ∈ entries, isPlainName entry.1.toList = true)
    (each : ∀ entry ∈ entries, ∀ column,
      (entryValueChars (indent + indentStep) column entry.2).all isPrinted = true) :
    (∀ column, (entryValueChars indent column (.object entries)).all isPrinted = true) ∧
      (itemChars indent (.object entries)).all isPrinted = true := by
  obtain ⟨⟨name, v⟩, rest, rfl⟩ := List.exists_cons_of_ne_nil full
  have sign : isPrinted '-' = true ∧ isPrinted ' ' = true := by decide
  have word := printed_nameChars (names (name, v) List.mem_cons_self)
  have first := each (name, v) List.mem_cons_self
  have later := printed_moreEntries (fun e member => names e (List.mem_cons_of_mem _ member))
    fun e member => each e (List.mem_cons_of_mem _ member)
  refine ⟨fun column => ?_, ?_⟩
  · simp only [entryValueChars, List.all_append, printed_newLine, word, first, later,
      Bool.and_true]
  · simp only [itemChars, List.all_append, List.all_cons, sign, word, first, later, Bool.and_true]

/-- What is shown of each value: it is printed behind a name, and if it is an object also as an
item. -/
theorem Faithful.printed {indent : Nat} {v : Value} (faithful : Faithful indent v) :
    (∀ column, (entryValueChars indent column v).all isPrinted = true) ∧
      ∀ entries, v = .object entries → (itemChars indent v).all isPrinted = true := by
  induction faithful with
  | null =>
      refine ⟨fun _ => ?_, fun _ same => by cases same⟩
      simp only [entryValueChars, atomChars]
      decide
  | bool b =>
      refine ⟨fun _ => ?_, fun _ same => by cases same⟩
      cases b <;> simp only [entryValueChars, atomChars] <;> decide
  | text keeps =>
      refine ⟨fun column => ?_, fun _ same => by cases same⟩
      rw [entryValueChars_text, List.all_cons, printed_scalarChars]
      decide
  | list records each ih =>
      refine ⟨printed_list fun v member => ?_, fun _ same => by cases same⟩
      obtain ⟨entries, same⟩ := records v member
      exact (ih v member).2 entries same
  | object full distinct names each ih =>
      have whole := printed_object full names fun entry member => (ih entry member).1
      exact ⟨whole.1, fun _ _ => whole.2⟩

theorem printed_document {entries : Entries} (full : entries ≠ [])
    (names : ∀ entry ∈ entries, isPlainName entry.1.toList = true)
    (each : ∀ entry ∈ entries, Faithful 0 entry.2) :
    (documentChars (.object entries) ++ ['\n']).all isPrinted = true := by
  obtain ⟨⟨name, v⟩, rest, rfl⟩ := List.exists_cons_of_ne_nil full
  have word := printed_nameChars (names (name, v) List.mem_cons_self)
  have first := (each (name, v) List.mem_cons_self).printed.1 (columnBehind 0 name)
  have later := printed_moreEntries (fun e member => names e (List.mem_cons_of_mem _ member))
    fun e member => (each e (List.mem_cons_of_mem _ member)).printed.1
  simp only [documentChars, List.all_append, word, first, later]
  decide

/-! ## Reading -/

theorem firstUnacceptable?_of_printed {cs : List Char} (printed : cs.all isPrinted = true) :
    firstUnacceptable? cs = none := by
  have acceptable : ∀ c ∈ cs, isAcceptable c = true := fun c member =>
    (Bool.and_eq_true_iff.mp (List.all_eq_true.mp printed c member)).1
  rw [firstUnacceptable?, List.dropWhile_eq_nil_iff.mpr acceptable]
  rfl

/-- An object with plain names and faithful values is what is read from its text, which holds no
carriage return. -/
theorem read_write {entries : Entries} (full : entries ≠ [])
    (distinct : (entries.map Prod.fst).Nodup)
    (names : ∀ entry ∈ entries, isPlainName entry.1.toList = true)
    (each : ∀ entry ∈ entries, Faithful 0 entry.2) :
    read (write (.object entries)) = .ok (.object entries) ∧
      '\r' ∉ (write (.object entries)).toList := by
  have printed := printed_document full names each
  constructor
  · simp only [read, write, String.toList_ofList, firstUnacceptable?_of_printed printed,
      valueOf_document full distinct names each]
  · rw [write, String.toList_ofList]
    exact fun member => absurd (List.all_eq_true.mp printed _ member) (by decide)

end SchemaBaseline.Yaml
