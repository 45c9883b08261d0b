import SchemaBaseline.Json.Reader
import SchemaBaseline.Json.Writer

/-!
# Escaped texts are read back

`readCodes_textChars`: the literal of a text, read from behind its opening quote, gives the codes
of the text and leaves what follows the closing quote. Each character is one step of the reader,
whichever of its escapes was written; only the numbered escape looks further ahead, and the
closing quote is what it finds there at the latest.
-/

namespace SchemaBaseline

namespace Json

/-! ## One character -/

/-- The four digits of a small number are read back as the number. -/
theorem hexDigits_four {n : Nat} (small : n < 0x20) :
    ∃ a b c d, Text.hexDigits 4 n = [a, b, c, d] ∧
      ∀ rest, hex4? (a :: b :: c :: d :: rest) = some n := by
  have all : ∀ m : Fin 0x20, ∃ a b c d, Text.hexDigits 4 m.val = [a, b, c, d] ∧
      ∀ rest, hex4? (a :: b :: c :: d :: rest) = some m.val := by
    intro m
    have digits : Text.hexDigits 4 m.val =
        ['0', '0', if m.val < 16 then '0' else '1', Nat.digitChar (m.val % 16)] := by
      revert m
      decide
    refine ⟨_, _, _, _, digits, fun rest => ?_⟩
    show hex4? ['0', '0', if m.val < 16 then '0' else '1', Nat.digitChar (m.val % 16)] =
      some m.val
    revert m
    decide
  exact all ⟨n, small⟩

/-- A numbered escape of a code that is no surrogate is taken by itself. -/
theorem unicodeEscape_digits {a b c d : Char} {code : Nat} {rest : List Char}
    (follows : rest ≠ []) (digits : hex4? (a :: b :: c :: d :: rest) = some code)
    (plain : Text.isHighSurrogate code = false) :
    unicodeEscape ('u' :: a :: b :: c :: d :: rest) = .ok (code, 4) := by
  have long : ¬ (a :: b :: c :: d :: rest).length ≤ 4 := by
    have positive := List.length_pos_iff.mpr follows
    simp only [List.length_cons]
    omega
  unfold unicodeEscape
  simp only [List.drop_succ_cons, List.drop_zero, if_neg long, digits, plain, Bool.false_and]
  split
  · rfl
  · rfl

/-- One step reads one character, however it was written. -/
theorem readCodes_escapedChar (opening : List Char) (fuel : Nat) (c : Char) (rest : List Char)
    (follows : rest ≠ []) (acc : List Nat) :
    readCodes frontCode opening (fuel + 1) (escapedChar c ++ rest) acc =
      readCodes frontCode opening fuel rest (c.toNat :: acc) := by
  unfold escapedChar
  by_cases quote : c = '"'
  · subst quote; rfl
  rw [if_neg quote]
  by_cases backslash : c = '\\'
  · subst backslash; rfl
  rw [if_neg backslash]
  by_cases backspace : c = '\x08'
  · subst backspace; rfl
  rw [if_neg backspace]
  by_cases feed : c = '\x0c'
  · subst feed; rfl
  rw [if_neg feed]
  by_cases line : c = '\n'
  · subst line; rfl
  rw [if_neg line]
  by_cases carriage : c = '\r'
  · subst carriage; rfl
  rw [if_neg carriage]
  by_cases tab : c = '\t'
  · subst tab; rfl
  rw [if_neg tab]
  by_cases control : c.toNat < 0x20
  · rw [if_pos control]
    obtain ⟨p, q, r, s, written, read⟩ := hexDigits_four control
    have plain : Text.isHighSurrogate c.toNat = false := by
      simp only [Text.isHighSurrogate, Bool.and_eq_false_iff, decide_eq_false_iff_not]
      omega
    rw [written]
    show readCodes frontCode opening (fuel + 1) ('\\' :: 'u' :: p :: q :: r :: s :: rest) acc = _
    simp only [readCodes, unicodeEscape_digits follows (read rest) plain]
    rfl
  · rw [if_neg control]
    simp only [List.cons_append, List.nil_append, readCodes, if_neg quote, if_neg backslash,
      if_neg control, frontCode]

theorem escapedChar_ne_nil (c : Char) : escapedChar c ≠ [] := by
  unfold escapedChar
  repeat' split
  all_goals simp

/-! ## Whole texts -/

theorem readCodes_flatMap (opening : List Char) (fuel : Nat) (cs : List Char) (rest : List Char)
    (acc : List Nat) (enough : cs.length < fuel) :
    readCodes frontCode opening fuel (cs.flatMap escapedChar ++ '"' :: rest) acc =
      .ok (acc.reverse ++ cs.map Char.toNat, rest) := by
  induction cs generalizing fuel acc with
  | nil =>
      obtain ⟨fuel, rfl⟩ : ∃ n, fuel = n + 1 :=
        ⟨fuel - 1, by rw [List.length_nil] at enough; omega⟩
      simp [readCodes]
  | cons c cs ih =>
      obtain ⟨fuel, rfl⟩ : ∃ n, fuel = n + 1 := ⟨fuel - 1, by omega⟩
      have step :=
        readCodes_escapedChar opening fuel c (cs.flatMap escapedChar ++ '"' :: rest) (by simp) acc
      rw [List.flatMap_cons, List.append_assoc, step,
        ih fuel (c.toNat :: acc) (by rw [List.length_cons] at enough; omega), List.reverse_cons,
        List.append_assoc]
      rfl

theorem length_le_length_escaped (cs : List Char) :
    cs.length ≤ (cs.flatMap escapedChar).length := by
  induction cs with
  | nil => exact Nat.le_refl 0
  | cons c cs ih =>
      have positive : 0 < (escapedChar c).length := List.length_pos_iff.mpr (escapedChar_ne_nil c)
      rw [List.flatMap_cons, List.length_append, List.length_cons]
      omega

/-- A literal is read from behind its opening quote. -/
theorem readCodes_text (opening : List Char) (s : String) (rest : List Char) :
    readCodes frontCode opening (s.toList.flatMap escapedChar ++ '"' :: rest).length
        (s.toList.flatMap escapedChar ++ '"' :: rest) [] = .ok (Value.codesOf s, rest) := by
  refine readCodes_flatMap opening _ s.toList rest [] ?_
  have long := length_le_length_escaped s.toList
  rw [List.length_append, List.length_cons]
  omega

/-! ## Line ends -/

/-- No carriage return is written. -/
theorem return_not_mem_escapedChar (c : Char) : '\r' ∉ escapedChar c := by
  have digits : ∀ n : Fin 0x20, '\r' ∉ Text.hexDigits 4 n.val := by decide
  unfold escapedChar
  by_cases carriage : c = '\r'
  · subst carriage
    decide
  · repeat' split
    all_goals first
      | decide
      | skip
    · rename_i control
      simp only [List.mem_cons, not_or]
      exact ⟨by decide, by decide, digits ⟨c.toNat, control⟩⟩
    · rw [List.mem_singleton]
      exact fun same => carriage same.symm

theorem return_not_mem_textChars (s : String) : '\r' ∉ textChars s := by
  simp only [textChars, List.cons_append, List.mem_cons, List.mem_append, List.mem_flatMap,
    List.not_mem_nil, or_false, not_or, not_exists, not_and]
  exact ⟨by decide, fun c _ => return_not_mem_escapedChar c, by decide⟩

end Json

end SchemaBaseline
