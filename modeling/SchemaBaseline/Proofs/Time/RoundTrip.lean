import Mathlib.Algebra.Group.Nat.Defs
import SchemaBaseline.Time.Reader

/-!
# Stored date-times read back

`readText_text`: the stored form of a date-time, with or without fraction and offset, reads as
that very date-time. Each number in it is padded to a fixed width, so the argument goes from left
to right: `takeDigits_padded` takes one number off the front and leaves the rest, and the bounds
in the type of stamps say that every number fits its width.
-/

namespace SchemaBaseline.Time

open Decimal (padded natOfDigits)

/-! ## Numbers of a fixed width -/

theorem toList_padded (w n : Nat) :
    (padded w n).toList =
      List.replicate (w - (Nat.toDigits 10 n).length) '0' ++ Nat.toDigits 10 n := by
  simp only [padded, String.toList_ofList]

theorem length_padded {w n : Nat} (positive : 0 < w) (fits : n < 10 ^ w) :
    (padded w n).toList.length = w := by
  have short := (Nat.length_toDigits_le_iff (b := 10) (by decide) positive).mpr fits
  rw [toList_padded, List.length_append, List.length_replicate]
  omega

theorem isDigit_of_mem_padded {w n : Nat} {c : Char} (member : c ∈ (padded w n).toList) :
    c.isDigit = true := by
  rw [toList_padded, List.mem_append] at member
  rcases member with zero | digit
  · rw [List.eq_of_mem_replicate zero]
    decide
  · exact Nat.isDigit_of_mem_toDigits (by decide) (by decide) digit

theorem natOfDigits_padded (w n : Nat) : natOfDigits (padded w n).toList = n := by
  have digits : natOfDigits (padded w n).toList =
      Nat.ofDigitChars 10 (padded w n).toList 0 := rfl
  rw [digits, toList_padded, Nat.ofDigitChars_append, Nat.ofDigitChars_replicate_zero,
    Nat.mul_zero, Nat.ofDigitChars_ten_toDigits]

/-- A number of a fixed width comes off the front whole. -/
theorem takeDigits_padded {w n : Nat} (positive : 0 < w) (fits : n < 10 ^ w)
    (rest : List Char) :
    takeDigits w ((padded w n).toList ++ rest) = some (n, rest) := by
  have front : ((padded w n).toList ++ rest).take w = (padded w n).toList :=
    List.take_left' (length_padded positive fits)
  have back : ((padded w n).toList ++ rest).drop w = rest :=
    List.drop_left' (length_padded positive fits)
  have digits : (padded w n).toList.all Char.isDigit = true :=
    List.all_eq_true.mpr fun _ => isDigit_of_mem_padded
  simp only [takeDigits, front, back, natOfDigits_padded, length_padded positive fits, digits,
    decide_true, Bool.and_self, if_true]

/-- The value of a two-digit number at the front of a text. -/
theorem takeDigits_two {n : Nat} (fits : n < 100) (rest : List Char) :
    takeDigits 2 ((padded 2 n).toList ++ rest) = some (n, rest) :=
  takeDigits_padded (by decide) fits rest

theorem microsOfDigits_padded {micro : Nat} (fits : micro < 1000000) :
    microsOfDigits (padded 6 micro).toList = micro := by
  have whole :
      ((padded 6 micro).toList ++ List.replicate 6 '0').take 6 = (padded 6 micro).toList :=
    List.take_left' (length_padded (by decide) fits)
  rw [microsOfDigits, whole, natOfDigits_padded]

/-! ## Offsets -/

/-- The characters of an offset in the stored form. -/
def zoneChars : Option Int → List Char
  | none => []
  | some minutes => if minutes = 0 then ['Z'] else (Stamp.offsetDigits minutes).toList

/-- An offset other than zero is a sign, two digits of hours, a colon and two digits of
minutes. -/
theorem toList_offsetDigits (minutes : Int) :
    (Stamp.offsetDigits minutes).toList = (if minutes < 0 then '-' else '+') ::
      ((padded 2 (minutes.natAbs / 60)).toList ++
        ':' :: (padded 2 (minutes.natAbs % 60)).toList) := by
  have minus : "-".toList = ['-'] := rfl
  have plus : "+".toList = ['+'] := rfl
  have colon : ":".toList = [':'] := rfl
  by_cases negative : minutes < 0 <;>
    simp only [Stamp.offsetDigits, negative, if_true, if_false, String.toList_append, minus, plus,
      colon, List.append_assoc, List.cons_append, List.nil_append]

/-- What follows the seconds is neither a digit nor the mark of a fraction. -/
theorem zoneChars_head {offset : Option Int} {c : Char} {rest : List Char}
    (front : zoneChars offset = c :: rest) : c = 'Z' ∨ c = '+' ∨ c = '-' := by
  cases offset with
  | none => cases front
  | some minutes =>
      by_cases utc : minutes = 0
      · rw [zoneChars, if_pos utc] at front
        injection front with same
        exact .inl same.symm
      · rw [zoneChars, if_neg utc, toList_offsetDigits] at front
        injection front with same
        subst same
        split
        · exact .inr (.inr rfl)
        · exact .inr (.inl rfl)

/-- An offset with a sign is read from its hours and minutes. -/
theorem readOffset_of_sign {sign : Char} {hours minutes : Nat} {digits more : List Char}
    (signed : sign = '+' ∨ sign = '-')
    (hoursTaken : takeDigits 2 digits = some (hours, ':' :: more))
    (minutesTaken : takeDigits 2 more = some (minutes, []))
    (hoursFit : hours < 24) (minutesFit : minutes < 60) :
    readOffset (sign :: digits) =
      some (some (if sign = '-' then -(60 * hours + minutes : Int)
      else 60 * hours + minutes)) := by
  unfold readOffset
  split
  next empty => cases empty
  next utc => rcases signed with rfl | rfl <;> cases utc
  next utc => rcases signed with rfl | rfl <;> cases utc
  next first tail _ _ parts =>
    injection parts with sameFirst sameTail
    subst sameFirst sameTail
    rw [if_pos (by simpa using signed)]
    simp only [hoursTaken, takeChar, if_true, Option.getD_some, minutesTaken, Option.bind_eq_bind,
      Option.bind_some, List.isEmpty_nil, hoursFit, minutesFit, decide_true, Bool.and_self]

theorem readOffset_zoneChars {offset : Option Int} (valid : validOffset offset = true) :
    readOffset (zoneChars offset) = some offset := by
  cases offset with
  | none => rfl
  | some minutes =>
      by_cases utc : minutes = 0
      · subst utc
        rfl
      · simp only [validOffset, Bool.and_eq_true, decide_eq_true_eq] at valid
        have hoursFit : minutes.natAbs / 60 < 24 := by omega
        have minutesFit : minutes.natAbs % 60 < 60 := Nat.mod_lt _ (by decide)
        have minutesTaken := takeDigits_two (n := minutes.natAbs % 60) (by omega) []
        rw [List.append_nil] at minutesTaken
        rw [zoneChars, if_neg utc, toList_offsetDigits, readOffset_of_sign (by split <;> simp)
          (takeDigits_two (by omega) _) minutesTaken hoursFit minutesFit]
        by_cases negative : minutes < 0
        · simp only [negative, if_true, Option.some.injEq]
          omega
        · simp only [negative, if_false, Char.reduceEq, Option.some.injEq]
          omega

/-! ## Whole stamps -/

theorem toList_text (t : Stamp) :
    t.text.toList = (padded 4 t.year).toList ++ '-' :: ((padded 2 t.month).toList ++
      '-' :: ((padded 2 t.day).toList ++ 'T' :: ((padded 2 t.hour).toList ++
      ':' :: ((padded 2 t.minute).toList ++ ':' :: ((padded 2 t.second).toList ++
      (t.fraction.toList ++ zoneChars t.offset)))))) := by
  have minus : "-".toList = ['-'] := rfl
  have letter : "T".toList = ['T'] := rfl
  have colon : ":".toList = [':'] := rfl
  have zone : t.text.toList = t.base.toList ++ t.fraction.toList ++ zoneChars t.offset := by
    rw [Stamp.text, String.toList_append, String.toList_append]
    cases t.offset with
    | none => rfl
    | some minutes =>
        simp only [zoneChars]
        split <;> rfl
  rw [zone]
  simp only [Stamp.base, String.toList_append, minus, letter, colon, List.append_assoc,
    List.cons_append, List.nil_append]

theorem takeDate_padded {year month day : Nat} (valid : validDate year month day = true)
    (rest : List Char) :
    takeDate ((padded 4 year).toList ++ '-' :: ((padded 2 month).toList ++
      '-' :: ((padded 2 day).toList ++ rest))) = some ((year, month, day), rest) := by
  simp only [validDate, Bool.and_eq_true, decide_eq_true_eq] at valid
  obtain ⟨⟨⟨⟨⟨_, yearFits⟩, monthLow⟩, monthHigh⟩, dayLow⟩, dayHigh⟩ := valid
  have length : monthLength year month ≤ 31 := by
    unfold monthLength
    split <;> (try split) <;> decide
  have yearTaken := takeDigits_padded (w := 4) (n := year) (by decide) (by omega)
  simp only [takeDate, yearTaken, takeDigits_two (n := month) (by omega),
    takeDigits_two (n := day) (by omega), takeChar, Option.bind_eq_bind, Option.bind_some,
    if_true, monthLow, monthHigh, dayLow, dayHigh, decide_true, Bool.and_self]

theorem zoneChars_stops (offset : Option Int) :
    (zoneChars offset).takeWhile Char.isDigit = [] ∧ (zoneChars offset).dropWhile Char.isDigit =
      zoneChars offset := by
  cases zone : zoneChars offset with
  | nil => exact ⟨rfl, rfl⟩
  | cons c rest =>
      have plain : c.isDigit = false := by
        rcases zoneChars_head zone with rfl | rfl | rfl <;> decide
      simp [plain]

theorem takeSeconds_fraction {t : Stamp} :
    takeSeconds
        (':' :: ((padded 2 t.second).toList ++ (t.fraction.toList ++ zoneChars t.offset))) =
      some ((t.second, t.micro), zoneChars t.offset) := by
  have valid := t.time_valid
  simp only [validTime, Bool.and_eq_true, decide_eq_true_eq] at valid
  obtain ⟨⟨_, secondFits⟩, microFits⟩ := valid
  simp only [takeSeconds, takeDigits_two (n := t.second) (by omega), Option.bind_eq_bind,
    Option.bind_some]
  by_cases whole : t.micro = 0
  · have bare : t.fraction.toList ++ zoneChars t.offset = zoneChars t.offset := by
      simp [Stamp.fraction, whole]
    rw [bare, whole]
    cases zone : zoneChars t.offset with
    | nil => rfl
    | cons c rest =>
        rcases zoneChars_head zone with rfl | rfl | rfl <;> rfl
  · have marked : t.fraction.toList ++ zoneChars t.offset =
        '.' :: ((padded 6 t.micro).toList ++ zoneChars t.offset) := by
      simp [Stamp.fraction, whole]
    have stops := zoneChars_stops t.offset
    have digits : ∀ c ∈ (padded 6 t.micro).toList, c.isDigit = true :=
      fun _ => isDigit_of_mem_padded
    have nonempty : (padded 6 t.micro).toList.isEmpty = false := by
      have length := length_padded (w := 6) (n := t.micro) (by decide) (by omega)
      cases empty : (padded 6 t.micro).toList with
      | nil => rw [empty] at length; cases length
      | cons => rfl
    rw [marked]
    simp only [decide_true, Bool.true_or, if_true, List.takeWhile_append_of_pos digits,
      List.dropWhile_append_of_pos digits, stops.1, stops.2, List.append_nil, nonempty,
      microsOfDigits_padded microFits]
    rfl

theorem Stamp.of?_parts (t : Stamp) :
    Stamp.of? t.year t.month t.day t.hour t.minute t.second t.micro t.offset = some t := by
  rw [Stamp.of?, dif_pos t.date_valid, dif_pos t.time_valid, dif_pos t.offset_valid]

/-- The stored form of a stamp reads as the stamp itself. -/
theorem readText_text (t : Stamp) : readText t.text = .ok t := by
  have valid := t.time_valid
  simp only [validTime, Bool.and_eq_true, decide_eq_true_eq] at valid
  obtain ⟨⟨⟨hourFits, minuteFits⟩, _⟩, _⟩ := valid
  have civil : readCivil t.text.toList = some (some t) := by
    rw [toList_text]
    simp only [readCivil, takeDate_padded t.date_valid, takeDigits_two (n := t.hour) (by omega),
      takeDigits_two (n := t.minute) (by omega), takeChar, takeSeconds_fraction,
      readOffset_zoneChars t.offset_valid, t.time_valid, Stamp.of?_parts, Option.bind_eq_bind,
      Option.bind_some, decide_true, Bool.true_or, if_true]
  rw [readText, civil]

end SchemaBaseline.Time
