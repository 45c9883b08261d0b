import SchemaBaseline.Text.Utf8

/-!
# Encoded text decodes

`Utf8.decode_encode`: the bytes of a text decode to the text. A character becomes a first byte and
up to three more; `step_encodeChar` says that one step of the decoder takes exactly these off the
front, whatever follows, and gives the code of the character. The ranges that `shape` allows for
the second byte are what rules out longer forms and surrogates, so this is where the validity of
characters is needed.
-/

namespace SchemaBaseline.Text.Utf8

/-! ## One sequence -/

/-- The code that a first byte and the bytes after it make up. -/
def codeOf (start : Nat) (tail : List UInt8) : Nat :=
  tail.foldl (fun n b => 0x40 * n + b.toNat % 0x40) start

/-- A step takes a whole sequence if its bytes are in their ranges. -/
theorem step_of_shape {lead b low high : UInt8} (more rest : List UInt8)
    (shaped : shape lead = some (more.length + 2, low, high))
    (above : low ≤ b) (below : b ≤ high) (continued : ∀ c ∈ more, isContinuation c = true) :
    step shape lead (b :: more ++ rest) =
      .ok (codeOf (leadBits (more.length + 2) lead) (b :: more), more.length + 2) := by
  have fit : fitting (more.length + 2) low high (b :: (more ++ rest)) = more.length + 1 := by
    have front : (more ++ rest).take more.length = more := List.take_left' rfl
    have all : more.takeWhile isContinuation = more := by
      have split : (more ++ []).takeWhile isContinuation = more ++ [].takeWhile isContinuation :=
        List.takeWhile_append_of_pos continued
      rwa [List.append_nil, List.takeWhile_nil, List.append_nil] at split
    simp only [fitting, above, below, decide_true, Bool.and_self, if_true,
      Nat.add_sub_cancel, front, all]
    omega
  have taken : (b :: (more ++ rest)).take (more.length + 1) = b :: more := by
    rw [List.take_succ_cons, List.take_left' rfl]
  unfold step
  rw [shaped]
  simp only [List.cons_append, fit, taken, if_true]
  rfl

theorem toNat_byte {n : Nat} (small : n < 256) : (UInt8.ofNat n).toNat = n := by
  rw [UInt8.toNat_ofNat']
  omega

/-- The shape of a first byte, in terms of its number. -/
theorem shape_byte {n : Nat} (small : n < 256) :
    shape (UInt8.ofNat n) =
      if n ≤ 0x7f then some (1, 0, 0)
      else if n < 0xc2 then none
      else if n ≤ 0xdf then some (2, 0x80, 0xbf)
      else if n = 0xe0 then some (3, 0xa0, 0xbf)
      else if n = 0xed then some (3, 0x80, 0x9f)
      else if n ≤ 0xef then some (3, 0x80, 0xbf)
      else if n = 0xf0 then some (4, 0x90, 0xbf)
      else if n ≤ 0xf3 then some (4, 0x80, 0xbf)
      else if n = 0xf4 then some (4, 0x80, 0x8f)
      else none := by
  simp only [shape, UInt8.le_iff_toNat_le, UInt8.lt_iff_toNat_lt, ← UInt8.toNat_inj,
    toNat_byte small, UInt8.reduceToNat]

theorem isContinuation_byte (n : Nat) : isContinuation (UInt8.ofNat (n % 64 + 0x80)) = true := by
  have small : n % 64 + 0x80 < 256 := by omega
  simp only [isContinuation, UInt8.le_iff_toNat_le, toNat_byte small, UInt8.reduceToNat,
    Bool.and_eq_true, decide_eq_true_eq]
  omega

theorem le_byte {n : Nat} {low : UInt8} (small : n < 256) (above : low.toNat ≤ n) :
    low ≤ UInt8.ofNat n := by
  rw [UInt8.le_iff_toNat_le, toNat_byte small]
  exact above

theorem byte_le {n : Nat} {high : UInt8} (small : n < 256) (below : n ≤ high.toNat) :
    UInt8.ofNat n ≤ high := by
  rw [UInt8.le_iff_toNat_le, toNat_byte small]
  exact below

/-! ## One character -/

theorem step_one {v : Nat} (small : v ≤ 0x7f) (rest : List UInt8) :
    step shape (UInt8.ofNat v) rest = .ok (v, 1) := by
  unfold step
  rw [shape_byte (by omega), if_pos small]
  simp only [toNat_byte (show v < 256 by omega)]

theorem step_two {v : Nat} (low : 0x7f < v) (high : v ≤ 0x7ff) (rest : List UInt8) :
    step shape (UInt8.ofNat (v / 64 % 0x20 + 0xc0)) ([UInt8.ofNat (v % 0x40 + 0x80)] ++ rest) =
      .ok (v, 2) := by
  have shaped : shape (UInt8.ofNat (v / 64 % 0x20 + 0xc0)) = some (2, 0x80, 0xbf) := by
    rw [shape_byte (by omega), if_neg (by omega), if_neg (by omega), if_pos (by omega)]
  refine (step_of_shape [] rest shaped (le_byte (by omega) ?_) (byte_le (by omega) ?_)
    (fun c member => absurd member List.not_mem_nil)).trans ?_
  · show 0x80 ≤ v % 0x40 + 0x80
    omega
  · show v % 0x40 + 0x80 ≤ 0xbf
    omega
  · simp only [codeOf, leadBits, List.length_nil, List.foldl_cons, List.foldl_nil,
      toNat_byte (show v / 64 % 0x20 + 0xc0 < 256 by omega),
      toNat_byte (show v % 0x40 + 0x80 < 256 by omega)]
    congr 2
    omega

theorem step_three {v : Nat} (low : 0x7ff < v) (high : v ≤ 0xffff)
    (valid : v < 0xd800 ∨ 0xdfff < v) (rest : List UInt8) :
    step shape (UInt8.ofNat (v / 4096 % 0x10 + 0xe0))
        ([UInt8.ofNat (v / 64 % 0x40 + 0x80), UInt8.ofNat (v % 0x40 + 0x80)] ++ rest) =
          .ok (v, 3) := by
  have bounds : ∃ least greatest : UInt8,
      shape (UInt8.ofNat (v / 4096 % 0x10 + 0xe0)) = some (3, least, greatest) ∧
      least.toNat ≤ v / 64 % 0x40 + 0x80 ∧ v / 64 % 0x40 + 0x80 ≤ greatest.toNat := by
    rw [shape_byte (by omega), if_neg (by omega), if_neg (by omega), if_neg (by omega)]
    by_cases first : v / 4096 % 0x10 + 0xe0 = 0xe0
    · rw [if_pos first]
      exact ⟨0xa0, 0xbf, rfl, by show 0xa0 ≤ _; omega, by show _ ≤ 0xbf; omega⟩
    · rw [if_neg first]
      by_cases surrogate : v / 4096 % 0x10 + 0xe0 = 0xed
      · rw [if_pos surrogate]
        exact ⟨0x80, 0x9f, rfl, by show 0x80 ≤ _; omega, by show _ ≤ 0x9f; omega⟩
      · rw [if_neg surrogate, if_pos (by omega)]
        exact ⟨0x80, 0xbf, rfl, by show 0x80 ≤ _; omega, by show _ ≤ 0xbf; omega⟩
  obtain ⟨least, greatest, shaped, above, below⟩ := bounds
  have continued : ∀ c ∈ [UInt8.ofNat (v % 0x40 + 0x80)], isContinuation c = true := by
    intro c member
    rcases List.mem_singleton.mp member with rfl
    exact isContinuation_byte v
  refine (step_of_shape _ rest shaped (le_byte (by omega) above)
    (byte_le (by omega) below) continued).trans ?_
  simp only [codeOf, leadBits, List.length_cons, List.length_nil, List.foldl_cons, List.foldl_nil,
    toNat_byte (show v / 4096 % 0x10 + 0xe0 < 256 by omega),
    toNat_byte (show v / 64 % 0x40 + 0x80 < 256 by omega),
    toNat_byte (show v % 0x40 + 0x80 < 256 by omega)]
  congr 2
  omega

theorem step_four {v : Nat} (low : 0xffff < v) (high : v < 0x110000) (rest : List UInt8) :
    step shape (UInt8.ofNat (v / 262144 % 0x08 + 0xf0))
        ([UInt8.ofNat (v / 4096 % 0x40 + 0x80), UInt8.ofNat (v / 64 % 0x40 + 0x80),
          UInt8.ofNat (v % 0x40 + 0x80)] ++ rest) = .ok (v, 4) := by
  have bounds : ∃ least greatest : UInt8,
      shape (UInt8.ofNat (v / 262144 % 0x08 + 0xf0)) = some (4, least, greatest) ∧
      least.toNat ≤ v / 4096 % 0x40 + 0x80 ∧ v / 4096 % 0x40 + 0x80 ≤ greatest.toNat := by
    rw [shape_byte (by omega), if_neg (by omega), if_neg (by omega), if_neg (by omega),
      if_neg (by omega), if_neg (by omega), if_neg (by omega)]
    by_cases first : v / 262144 % 0x08 + 0xf0 = 0xf0
    · rw [if_pos first]
      exact ⟨0x90, 0xbf, rfl, by show 0x90 ≤ _; omega, by show _ ≤ 0xbf; omega⟩
    · rw [if_neg first]
      by_cases middle : v / 262144 % 0x08 + 0xf0 ≤ 0xf3
      · rw [if_pos middle]
        exact ⟨0x80, 0xbf, rfl, by show 0x80 ≤ _; omega, by show _ ≤ 0xbf; omega⟩
      · rw [if_neg middle, if_pos (by omega)]
        exact ⟨0x80, 0x8f, rfl, by show 0x80 ≤ _; omega, by show _ ≤ 0x8f; omega⟩
  obtain ⟨least, greatest, shaped, above, below⟩ := bounds
  have continued : ∀ c ∈ [UInt8.ofNat (v / 64 % 0x40 + 0x80), UInt8.ofNat (v % 0x40 + 0x80)],
      isContinuation c = true := by
    intro c member
    rcases List.mem_cons.mp member with rfl | member
    · exact isContinuation_byte (v / 64)
    · rcases List.mem_singleton.mp member with rfl
      exact isContinuation_byte v
  refine (step_of_shape _ rest shaped (le_byte (by omega) above)
    (byte_le (by omega) below) continued).trans ?_
  simp only [codeOf, leadBits, List.length_cons, List.length_nil, List.foldl_cons, List.foldl_nil,
    toNat_byte (show v / 262144 % 0x08 + 0xf0 < 256 by omega),
    toNat_byte (show v / 4096 % 0x40 + 0x80 < 256 by omega),
    toNat_byte (show v / 64 % 0x40 + 0x80 < 256 by omega),
    toNat_byte (show v % 0x40 + 0x80 < 256 by omega)]
  congr 2
  omega

/-- One step takes the bytes of one character off the front. -/
theorem step_encodeChar (c : Char) (rest : List UInt8) :
    ∃ lead tail, String.utf8EncodeChar c = lead :: tail ∧
      step shape lead (tail ++ rest) = .ok (c.toNat, tail.length + 1) := by
  have valid : c.val.toNat < 0xd800 ∨ 0xdfff < c.val.toNat ∧ c.val.toNat < 0x110000 := c.valid
  unfold String.utf8EncodeChar
  by_cases one : c.val.toNat ≤ 0x7f
  · rw [if_pos one]
    exact ⟨_, _, rfl, step_one one rest⟩
  · rw [if_neg one]
    by_cases two : c.val.toNat ≤ 0x7ff
    · rw [if_pos two]
      exact ⟨_, _, rfl, step_two (by omega) two rest⟩
    · rw [if_neg two]
      by_cases three : c.val.toNat ≤ 0xffff
      · rw [if_pos three]
        exact ⟨_, _, rfl, step_three (by omega) three (by omega) rest⟩
      · rw [if_neg three]
        exact ⟨_, _, rfl, step_four (by omega) (by omega) rest⟩

/-! ## Whole texts -/

theorem encode_eq_flatMap (s : String) : encode s = s.toList.flatMap String.utf8EncodeChar := by
  have bytes : s.toByteArray = s.toList.utf8Encode := by
    rw [← String.toByteArray_ofList, String.ofList_toList]
  rw [encode, String.toUTF8_eq_toByteArray, bytes, List.utf8Encode, List.toList_data_toByteArray]

/-- A decoder whose steps take one character each takes them all. -/
theorem codes_flatMap {shapeOf : UInt8 → Option (Nat × UInt8 × UInt8)}
    (steps : ∀ (c : Char) (rest : List UInt8), ∃ lead tail,
      String.utf8EncodeChar c = lead :: tail ∧
        step shapeOf lead (tail ++ rest) = .ok (c.toNat, tail.length + 1))
    (cs : List Char) (fuel position : Nat) (acc : List Nat) (enough : cs.length ≤ fuel) :
    codes shapeOf fuel position (cs.flatMap String.utf8EncodeChar) acc =
      .ok (acc.reverse ++ cs.map Char.toNat) := by
  induction cs generalizing fuel position acc with
  | nil => simp [codes]
  | cons c cs ih =>
      obtain ⟨fuel, rfl⟩ : ∃ n, fuel = n + 1 :=
        ⟨fuel - 1, by rw [List.length_cons] at enough; omega⟩
      obtain ⟨lead, tail, encoded, stepped⟩ := steps c (cs.flatMap String.utf8EncodeChar)
      have dropped : (tail ++ cs.flatMap String.utf8EncodeChar).drop (tail.length + 1 - 1) =
          cs.flatMap String.utf8EncodeChar := List.drop_left' rfl
      rw [List.flatMap_cons, encoded, List.cons_append, codes, stepped]
      simp only [dropped]
      rw [ih fuel _ _ (by rw [List.length_cons] at enough; omega), List.reverse_cons,
        List.append_assoc]
      rfl

theorem length_le_length_flatMap (cs : List Char) :
    cs.length ≤ (cs.flatMap String.utf8EncodeChar).length := by
  induction cs with
  | nil => exact Nat.le_refl 0
  | cons c cs ih =>
      have positive : 0 < (String.utf8EncodeChar c).length :=
        List.length_pos_iff.mpr String.utf8EncodeChar_ne_nil
      rw [List.flatMap_cons, List.length_append, List.length_cons]
      omega

theorem map_ofNat_toNat (cs : List Char) : (cs.map Char.toNat).map Char.ofNat = cs := by
  rw [List.map_map]
  exact List.map_id'' Char.ofNat_toNat cs

/-- The bytes of a text decode to the text. -/
theorem decode_encode (s : String) : decode (encode s) = .ok s := by
  have read := codes_flatMap step_encodeChar s.toList (encode s).length 0 []
    (by rw [encode_eq_flatMap]; exact length_le_length_flatMap s.toList)
  rw [decode, encode_eq_flatMap] at *
  rw [read, List.reverse_nil, List.nil_append]
  show Except.ok (String.ofList ((s.toList.map Char.toNat).map Char.ofNat)) = _
  rw [map_ofNat_toNat, String.ofList_toList]

/-! ## With surrogates allowed -/

theorem fitting_of_le {size : Nat} {low high higher : UInt8} {rest : List UInt8}
    (le : high ≤ higher) (some : fitting size low high rest ≠ 0) :
    fitting size low higher rest = fitting size low high rest := by
  cases rest with
  | nil => rfl
  | cons b more =>
      simp only [fitting] at some ⊢
      by_cases within : (low ≤ b && b ≤ high) = true
      · have wider : (low ≤ b && b ≤ higher) = true := by
          simp only [Bool.and_eq_true, decide_eq_true_eq] at within ⊢
          exact ⟨within.1, UInt8.le_trans within.2 le⟩
        rw [if_pos within, if_pos wider]
      · rw [if_neg within] at some
        exact absurd rfl some

/-- Allowing surrogates changes nothing about sequences that are in order anyway. -/
theorem step_shapeWithSurrogates {lead : UInt8} {rest : List UInt8} {found : Nat × Nat}
    (stepped : step shape lead rest = .ok found) :
    step shapeWithSurrogates lead rest = .ok found := by
  by_cases special : lead = 0xed
  · subst special
    have narrow : shape 0xed = some (3, 0x80, 0x9f) := by decide
    have wide : shapeWithSurrogates 0xed = some (3, 0x80, 0xbf) := by decide
    unfold step at stepped ⊢
    rw [narrow] at stepped
    rw [wide]
    simp only at stepped ⊢
    by_cases whole : fitting 3 0x80 0x9f rest + 1 = 3
    · rw [if_pos whole] at stepped
      have same : fitting 3 0x80 0xbf rest = fitting 3 0x80 0x9f rest :=
        fitting_of_le (show (0x9f : UInt8) ≤ 0xbf by decide) (by omega)
      rw [same, if_pos whole]
      exact stepped
    · rw [if_neg whole] at stepped
      split at stepped <;> cases stepped
  · have same : shapeWithSurrogates lead = shape lead := if_neg special
    unfold step at stepped ⊢
    rw [same]
    exact stepped

/-- The codes of the bytes of a text are those of its characters. -/
theorem decodeCodes_encode (s : String) :
    decodeCodes (encode s) = .ok (s.toList.map Char.toNat) := by
  have steps : ∀ (c : Char) (rest : List UInt8), ∃ lead tail,
      String.utf8EncodeChar c = lead :: tail ∧
        step shapeWithSurrogates lead (tail ++ rest) = .ok (c.toNat, tail.length + 1) := by
    intro c rest
    obtain ⟨lead, tail, encoded, stepped⟩ := step_encodeChar c rest
    exact ⟨lead, tail, encoded, step_shapeWithSurrogates stepped⟩
  rw [decodeCodes, encode_eq_flatMap]
  exact codes_flatMap steps s.toList _ 0 [] (length_le_length_flatMap s.toList)

end SchemaBaseline.Text.Utf8
