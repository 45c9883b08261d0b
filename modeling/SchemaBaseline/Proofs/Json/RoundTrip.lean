import SchemaBaseline.Proofs.Json.Text
import SchemaBaseline.Proofs.Text.Utf8

/-!
# Written values are read back

`Json.read_pretty`: a value that is made of nulls, flags, texts, lists and objects with distinct
names (`Value.Plain`) is what is read from its pretty text. The three readers and the three
writers recur on one another, so the induction is on the value: what it says of the parts is that
they are read off the front of whatever follows, with any fuel that is no less than the number of
characters written. `return_not_mem_prettyChars` adds that unifying the line ends of such a text
changes nothing.
-/

namespace SchemaBaseline

/-- Values that a JSON text holds as they are: no numbers, no dates, no texts that are broken, and
no name twice in an object. -/
inductive Value.Plain : Value → Prop
  | null : Plain .null
  | bool (b : Bool) : Plain (.bool b)
  | text (s : String) : Plain (.text s)
  | list {items : List Value} (each : ∀ v ∈ items, Plain v) : Plain (.list items)
  | object {entries : Entries} (distinct : (entries.map Prod.fst).Nodup)
      (each : ∀ entry ∈ entries, Plain entry.2) : Plain (.object entries)

/-- A new name comes after those that are there. -/
theorem Entries.put_of_not_mem {entries : Entries} {name : String} (v : Value)
    (fresh : name ∉ entries.map Prod.fst) :
    Entries.put entries name v = entries ++ [(name, v)] := by
  induction entries with
  | nil => rfl
  | cons entry rest ih =>
      obtain ⟨other, old⟩ := entry
      rw [List.map_cons, List.mem_cons, not_or] at fresh
      rw [Entries.put, if_neg fun same => fresh.1 same.symm, ih fresh.2, List.cons_append]

/-- What is written for a value begins with a character that is no blank, no closing bracket and
no byte-order mark. -/
theorem Value.Plain.exists_prettyChars {v : Value} (plain : v.Plain) (level : Nat) :
    ∃ c rest, Json.prettyChars level v = c :: rest ∧ Json.isBlank c = false ∧ c ≠ ']' ∧
      c ≠ '\ufeff' := by
  cases plain with
  | null => exact ⟨'n', _, rfl, by decide⟩
  | bool b =>
      cases b with
      | true => exact ⟨'t', _, rfl, by decide⟩
      | false => exact ⟨'f', _, rfl, by decide⟩
  | text s => exact ⟨'"', _, rfl, by decide⟩
  | @list items each =>
      cases items with
      | nil => exact ⟨'[', _, rfl, by decide⟩
      | cons v rest => exact ⟨'[', _, by rw [Json.prettyChars], by decide⟩
  | @object entries distinct each =>
      cases entries with
      | nil => exact ⟨'\x7b', _, rfl, by decide⟩
      | cons entry rest => exact ⟨'\x7b', _, by rw [Json.prettyChars], by decide⟩

theorem Entries.not_mem_of_nodup {acc entries : Entries} {name : String} {v : Value}
    (distinct : ((acc ++ (name, v) :: entries).map Prod.fst).Nodup) :
    name ∉ acc.map Prod.fst := by
  rw [List.map_append, List.nodup_append] at distinct
  exact fun member => distinct.2.2 name member name List.mem_cons_self rfl

namespace Json

/-! ## Blanks -/

theorem skipBlanks_newline (level : Nat) (rest : List Char) :
    skipBlanks (newline level ++ rest) = skipBlanks rest := by
  have spaces : ∀ n : Nat, skipBlanks (List.replicate n ' ' ++ rest) = skipBlanks rest := by
    intro n
    induction n with
    | zero => rfl
    | succ n ih => exact ih
  exact spaces (2 * level)

theorem skipBlanks_space (rest : List Char) : skipBlanks (' ' :: rest) = skipBlanks rest := rfl

theorem skipBlanks_cons {c : Char} (visible : isBlank c = false) (rest : List Char) :
    skipBlanks (c :: rest) = c :: rest := by
  rw [skipBlanks, List.dropWhile_cons_of_neg (by rw [visible]; exact Bool.false_ne_true)]

theorem skipBlanks_pretty {v : Value} (plain : v.Plain) (level : Nat) (rest : List Char) :
    skipBlanks (prettyChars level v ++ rest) = prettyChars level v ++ rest := by
  obtain ⟨c, cs, begins, visible, -, -⟩ := plain.exists_prettyChars level
  rw [begins, List.cons_append, skipBlanks_cons visible]

theorem skipBlanks_textChars (s : String) (rest : List Char) :
    skipBlanks (textChars s ++ rest) = textChars s ++ rest := by
  simp only [textChars, List.cons_append]
  exact skipBlanks_cons (by decide) _

/-! ## One step of the readers -/

/-- What follows an item decides how a list goes on. -/
theorem readItems_item {fuel : Nat} {cs rest : List Char} {v : Value} (acc : List Value)
    (item : readValue frontCode fuel cs = .ok (v, rest)) :
    readItems frontCode (fuel + 1) cs acc =
      match skipBlanks rest with
      | ']' :: rest => .ok (.list (v :: acc).reverse, rest)
      | ',' :: rest => readItems frontCode fuel (skipBlanks rest) (v :: acc)
      | rest => stop .expectingComma rest := by
  rw [readItems, item]
  rfl

/-- An entry is read up to its value, and what follows the value decides how the object goes
on. -/
theorem readEntries_entry {fuel : Nat} {cs rest : List Char} {v : Value} (name : String)
    (acc : Entries) (value : readValue frontCode fuel (skipBlanks cs) = .ok (v, rest)) :
    readEntries frontCode (fuel + 1) (textChars name ++ ':' :: cs) acc =
      match skipBlanks rest with
      | '\x7d' :: rest => .ok (.object (Entries.put acc name v), rest)
      | ',' :: rest => readEntries frontCode fuel (skipBlanks rest) (Entries.put acc name v)
      | rest => stop .expectingComma rest := by
  have text :=
    readCodes_text ('"' :: (name.toList.flatMap escapedChar ++ '"' :: ':' :: cs)) name (':' :: cs)
  have chars : textChars name ++ ':' :: cs =
      '"' :: (name.toList.flatMap escapedChar ++ '"' :: ':' :: cs) := by
    simp [textChars]
  have colon : skipBlanks (':' :: cs) = ':' :: cs := skipBlanks_cons (by decide) cs
  simp only [chars, readEntries, text, bind, Except.bind, colon, Value.nameOfCodes_codesOf]
  rewrite [value]
  rfl

theorem readValue_text (fuel : Nat) (s : String) (rest : List Char) :
    readValue frontCode (fuel + 1) (textChars s ++ rest) = .ok (.text s, rest) := by
  have chars : textChars s ++ rest = '"' :: (s.toList.flatMap escapedChar ++ '"' :: rest) := by
    simp [textChars]
  rw [chars, readValue, readCodes_text]
  show Except.ok (Value.ofCodes (Value.codesOf s), rest) = _
  rw [Value.ofCodes_codesOf]

theorem readValue_list {fuel : Nat} {c : Char} {cs rest : List Char} (notClosed : c ≠ ']')
    (begins : skipBlanks cs = c :: rest) :
    readValue frontCode (fuel + 1) ('[' :: cs) = readItems frontCode fuel (c :: rest) [] := by
  rw [readValue, begins]
  split
  · rename_i same
    exact absurd (List.cons.inj same).1 notClosed
  · rfl

theorem readValue_object {fuel : Nat} {c : Char} {cs rest : List Char} (notClosed : c ≠ '\x7d')
    (begins : skipBlanks cs = c :: rest) :
    readValue frontCode (fuel + 1) ('\x7b' :: cs) =
      readEntries frontCode fuel (c :: rest) [] := by
  rw [readValue, begins]
  split
  · rename_i same
    exact absurd (List.cons.inj same).1 notClosed
  · rfl

/-! ## Whole values -/

/-- A value is read off the front of whatever follows it, at every level. -/
def ReadBack (v : Value) : Prop :=
  ∀ level fuel rest, (prettyChars level v).length ≤ fuel →
    readValue frontCode fuel (prettyChars level v ++ rest) = .ok (v, rest)

theorem readItems_pretty {v : Value} {items : List Value} (plain : ∀ w ∈ v :: items, w.Plain)
    (each : ∀ w ∈ v :: items, ReadBack w) (level outer fuel : Nat) (after : List Char)
    (acc : List Value) (enough : (prettyChars level v ++ prettyItems level items).length < fuel) :
    readItems frontCode fuel (prettyChars level v ++
      (prettyItems level items ++ (newline outer ++ ']' :: after))) acc =
      .ok (.list (acc.reverse ++ v :: items), after) := by
  induction items generalizing v fuel acc with
  | nil =>
      obtain ⟨fuel, rfl⟩ : ∃ n, fuel = n + 1 := ⟨fuel - 1, by omega⟩
      have item := each v List.mem_cons_self level fuel (newline outer ++ ']' :: after)
        (by simp only [List.length_append] at enough; omega)
      have closed : skipBlanks (newline outer ++ ']' :: after) = ']' :: after := by
        rw [skipBlanks_newline, skipBlanks_cons (by decide)]
      rw [prettyItems, List.nil_append, readItems_item acc item, closed, ← List.reverse_cons]
      rfl
  | cons w items ih =>
      obtain ⟨fuel, rfl⟩ : ∃ n, fuel = n + 1 := ⟨fuel - 1, by omega⟩
      have item := each v List.mem_cons_self level fuel
        (prettyItems level (w :: items) ++ (newline outer ++ ']' :: after))
        (by simp only [List.length_append] at enough; omega)
      have separated : skipBlanks (prettyItems level (w :: items) ++
          (newline outer ++ ']' :: after)) =
          ',' :: (newline level ++ (prettyChars level w ++
          (prettyItems level items ++ (newline outer ++ ']' :: after)))) := by
        rw [prettyItems, List.cons_append, skipBlanks_cons (by decide), List.append_assoc,
          List.append_assoc]
      have next : skipBlanks (newline level ++
          (prettyChars level w ++ (prettyItems level items ++ (newline outer ++ ']' :: after)))) =
          prettyChars level w ++ (prettyItems level items ++
          (newline outer ++ ']' :: after)) := by
        rw [skipBlanks_newline, skipBlanks_pretty
          (plain w (List.mem_cons_of_mem _ List.mem_cons_self))]
      have others := ih (fun u member => plain u (List.mem_cons_of_mem _ member))
        (fun u member => each u (List.mem_cons_of_mem _ member)) fuel (v :: acc)
        (by simp only [prettyItems, List.length_append, List.length_cons] at enough ⊢; omega)
      rw [readItems_item acc item, separated]
      show readItems frontCode fuel (skipBlanks _) (v :: acc) = _
      rw [next, others, List.reverse_cons, List.append_assoc]
      rfl

/-- The value of an entry is read from behind the blank that follows its name. -/
theorem ReadBack.behind_space {v : Value} (readsBack : ReadBack v) (plain : v.Plain)
    (level fuel : Nat) (enough : (prettyChars level v).length ≤ fuel) (rest : List Char) :
    readValue frontCode fuel (skipBlanks (' ' :: (prettyChars level v ++ rest))) =
      .ok (v, rest) := by
  rw [skipBlanks_space, skipBlanks_pretty plain]
  exact readsBack level fuel rest enough

theorem readEntries_pretty {name : String} {v : Value} {entries : Entries}
    (plain : ∀ entry ∈ (name, v) :: entries, entry.2.Plain)
    (each : ∀ entry ∈ (name, v) :: entries, ReadBack entry.2) (level outer fuel : Nat)
    (after : List Char) (acc : Entries)
    (distinct : ((acc ++ (name, v) :: entries).map Prod.fst).Nodup)
    (enough : (prettyChars level v ++ prettyEntries level entries).length < fuel) :
    readEntries frontCode fuel (textChars name ++ ':' :: ' ' :: (prettyChars level v ++
        (prettyEntries level entries ++ (newline outer ++ '\x7d' :: after)))) acc =
      .ok (.object (acc ++ (name, v) :: entries), after) := by
  induction entries generalizing name v fuel acc with
  | nil =>
      obtain ⟨fuel, rfl⟩ : ∃ n, fuel = n + 1 := ⟨fuel - 1, by omega⟩
      have fresh : name ∉ acc.map Prod.fst := Entries.not_mem_of_nodup distinct
      have readsBack : ReadBack v := each _ List.mem_cons_self
      have value := readsBack.behind_space (plain _ List.mem_cons_self) level fuel
        (by simp only [List.length_append] at enough; omega) (newline outer ++ '\x7d' :: after)
      have closed : skipBlanks (newline outer ++ '\x7d' :: after) = '\x7d' :: after := by
        rw [skipBlanks_newline, skipBlanks_cons (by decide)]
      rw [prettyEntries, List.nil_append, readEntries_entry name acc value, closed,
        Entries.put_of_not_mem v fresh]
      rfl
  | cons entry entries ih =>
      obtain ⟨fuel, rfl⟩ : ∃ n, fuel = n + 1 := ⟨fuel - 1, by omega⟩
      obtain ⟨next, w⟩ := entry
      have fresh : name ∉ acc.map Prod.fst := Entries.not_mem_of_nodup distinct
      have readsBack : ReadBack v := each _ List.mem_cons_self
      have value := readsBack.behind_space (plain _ List.mem_cons_self) level fuel
        (by simp only [List.length_append] at enough; omega)
        (prettyEntries level ((next, w) :: entries) ++ (newline outer ++ '\x7d' :: after))
      have separated : skipBlanks (prettyEntries level ((next, w) :: entries) ++
          (newline outer ++ '\x7d' :: after)) =
          ',' :: (newline level ++ (textChars next ++
          ':' :: ' ' :: (prettyChars level w ++
          (prettyEntries level entries ++ (newline outer ++ '\x7d' :: after))))) := by
        rw [prettyEntries, List.cons_append, skipBlanks_cons (by decide)]
        simp only [List.append_assoc, List.cons_append]
      have others := ih (fun u member => plain u (List.mem_cons_of_mem _ member))
        (fun u member => each u (List.mem_cons_of_mem _ member)) fuel (acc ++ [(name, v)])
        (by rwa [List.append_assoc])
        (by simp only [prettyEntries, List.length_append, List.length_cons] at enough ⊢; omega)
      rw [readEntries_entry name acc value, separated, Entries.put_of_not_mem v fresh]
      show readEntries frontCode fuel (skipBlanks _) (acc ++ [(name, v)]) = _
      rw [skipBlanks_newline, skipBlanks_textChars, others, List.append_assoc]
      rfl

theorem length_prettyChars_pos {v : Value} (plain : v.Plain) (level : Nat) :
    0 < (prettyChars level v).length := by
  obtain ⟨c, cs, begins, -⟩ := plain.exists_prettyChars level
  rw [begins]
  exact Nat.succ_pos _

theorem readBack_list {items : List Value} (plain : ∀ v ∈ items, v.Plain)
    (each : ∀ v ∈ items, ReadBack v) :
    ReadBack (.list items) := by
  intro level fuel rest enough
  obtain ⟨fuel, rfl⟩ : ∃ n, fuel = n + 1 :=
    ⟨fuel - 1, by have := length_prettyChars_pos (.list plain) level; omega⟩
  cases items with
  | nil => rfl
  | cons v items =>
      obtain ⟨c, cs, begins, visible, notClosed, -⟩ :=
        (plain v List.mem_cons_self).exists_prettyChars (level + 1)
      have chars : prettyChars level (.list (v :: items)) ++ rest =
          '[' :: (newline (level + 1) ++
          (prettyChars (level + 1) v ++ (prettyItems (level + 1) items ++
          (newline level ++ ']' :: rest)))) := by
        simp [prettyChars]
      have first : skipBlanks (newline (level + 1) ++ (prettyChars (level + 1) v ++
          (prettyItems (level + 1) items ++ (newline level ++ ']' :: rest)))) =
          c :: (cs ++ (prettyItems (level + 1) items ++ (newline level ++ ']' :: rest))) := by
        rw [skipBlanks_newline, begins, List.cons_append, skipBlanks_cons visible]
      rw [chars, readValue_list notClosed first, ← List.cons_append, ← begins]
      refine readItems_pretty plain each (level + 1) level fuel rest [] ?_
      simp only [prettyChars, List.length_append, List.length_cons] at enough ⊢
      omega

theorem readBack_object {entries : Entries} (distinct : (entries.map Prod.fst).Nodup)
    (plain : ∀ entry ∈ entries, entry.2.Plain) (each : ∀ entry ∈ entries, ReadBack entry.2) :
    ReadBack (.object entries) := by
  intro level fuel rest enough
  obtain ⟨fuel, rfl⟩ : ∃ n, fuel = n + 1 :=
    ⟨fuel - 1, by have := length_prettyChars_pos (.object distinct plain) level; omega⟩
  cases entries with
  | nil => rfl
  | cons entry entries =>
      obtain ⟨name, v⟩ := entry
      have chars : prettyChars level (.object ((name, v) :: entries)) ++ rest =
          '\x7b' :: (newline (level + 1) ++
          (textChars name ++ ':' :: ' ' ::
          (prettyChars (level + 1) v ++ (prettyEntries (level + 1) entries ++
          (newline level ++ '\x7d' :: rest))))) := by
        simp [prettyChars]
      have first := (skipBlanks_newline (level + 1) _).trans (skipBlanks_textChars name
        (':' :: ' ' :: (prettyChars (level + 1) v ++ (prettyEntries (level + 1) entries ++
          (newline level ++ '\x7d' :: rest)))))
      rw [chars, readValue_object (by decide) first]
      refine readEntries_pretty plain each (level + 1) level fuel rest [] distinct ?_
      simp only [prettyChars, List.length_append, List.length_cons] at enough ⊢
      omega

/-- A plain value is read off the front of whatever follows it. -/
theorem readBack_of_plain {v : Value} (plain : v.Plain) : ReadBack v := by
  induction plain with
  | null =>
      intro level fuel rest enough
      obtain ⟨fuel, rfl⟩ : ∃ n, fuel = n + 1 :=
        ⟨fuel - 1, by have := length_prettyChars_pos .null level; omega⟩
      rfl
  | bool b =>
      intro level fuel rest enough
      obtain ⟨fuel, rfl⟩ : ∃ n, fuel = n + 1 :=
        ⟨fuel - 1, by have := length_prettyChars_pos (.bool b) level; omega⟩
      cases b <;> rfl
  | text s =>
      intro level fuel rest enough
      obtain ⟨fuel, rfl⟩ : ∃ n, fuel = n + 1 :=
        ⟨fuel - 1, by have := length_prettyChars_pos (.text s) level; omega⟩
      exact readValue_text fuel s rest
  | list plain each => exact readBack_list plain each
  | object distinct plain each => exact readBack_object distinct plain each

theorem readUnmarked_pretty {v : Value} (plain : v.Plain) :
    readUnmarked frontCode (pretty v) = .ok v := by
  have whole : readAll frontCode (prettyChars 0 v) = .ok v := by
    have value := readBack_of_plain plain 0 (2 * (prettyChars 0 v).length + 2) [] (by omega)
    have front := skipBlanks_pretty plain 0 []
    rw [List.append_nil] at value front
    rw [readAll, front, value]
    rfl
  rw [readUnmarked, pretty, String.toList_ofList]
  simp only [whole]

/-- A plain value is what its pretty text is read as. -/
theorem read_pretty {v : Value} (plain : v.Plain) : read (pretty v) = .ok v := by
  obtain ⟨c, cs, begins, -, -, unmarked⟩ := plain.exists_prettyChars 0
  have first : (pretty v).toList.head? ≠ some '\ufeff' := by
    rw [pretty, String.toList_ofList, begins]
    exact fun same => unmarked (Option.some.inj same)
  rw [read, if_neg first, readUnmarked_pretty plain]

theorem readCoded_pretty {v : Value} (plain : v.Plain) :
    readCoded (Value.codesOf (pretty v)) = .ok v := by
  rw [readCoded, if_pos (Value.isValidChar_codesOf (pretty v)), Value.nameOfCodes_codesOf]
  exact readUnmarked_pretty plain

/-- A body that holds a plain object is read as the object. -/
theorem readBody_pretty {name : String} {v : Value} {entries : Entries}
    (plain : (Value.object ((name, v) :: entries)).Plain) :
    readBody (Text.Utf8.encode (pretty (.object ((name, v) :: entries)))) =
      .ok (.object ((name, v) :: entries)) := by
  have begins : ∃ rest, Text.Utf8.encode (pretty (.object ((name, v) :: entries))) =
      0x7b :: 0x0a :: rest := by
    rw [Text.Utf8.encode_eq_flatMap, pretty, String.toList_ofList, prettyChars]
    exact ⟨_, rfl⟩
  have utf8 : Text.Encoding.detect (Text.Utf8.encode (pretty (.object ((name, v) :: entries)))) =
      .utf8 false := by
    obtain ⟨rest, begins⟩ := begins
    rw [begins]
    rcases rest with _ | ⟨c, _ | ⟨d, rest⟩⟩ <;> rfl
  have decoded : Text.decodeBody (Text.Utf8.encode (pretty (.object ((name, v) :: entries)))) =
      .ok (Value.codesOf (pretty (.object ((name, v) :: entries)))) := by
    rw [Text.decodeBody, utf8]
    exact Text.Utf8.decodeCodes_encode _
  rw [readBody, decoded]
  simp only [readCoded_pretty plain]

/-- A surrogate that stands alone is the same text, whether it is spelled in a body or escaped. -/
example : readBody [0x22, 0xed, 0xa0, 0x80, 0x22] = .ok (.brokenText [0xd800]) ∧
    readBody (Text.Utf8.encode "\"\\ud800\"") = .ok (.brokenText [0xd800]) := by
  constructor <;> rfl

/-! ## Line ends -/

theorem return_not_mem_newline (level : Nat) : '\r' ∉ newline level := by
  simp only [newline, List.mem_cons, List.mem_replicate, not_or, not_and]
  exact ⟨by decide, fun _ => by decide⟩

theorem return_not_mem_prettyItems {items : List Value} {level : Nat}
    (each : ∀ v ∈ items, '\r' ∉ prettyChars level v) : '\r' ∉ prettyItems level items := by
  induction items with
  | nil => exact List.not_mem_nil
  | cons v items ih =>
      have others := ih fun w member => each w (List.mem_cons_of_mem _ member)
      simp only [prettyItems, List.mem_cons, List.mem_append, not_or]
      exact ⟨by decide, ⟨return_not_mem_newline level, each v List.mem_cons_self⟩, others⟩

theorem return_not_mem_prettyEntries {entries : Entries} {level : Nat}
    (each : ∀ entry ∈ entries, '\r' ∉ prettyChars level entry.2) :
    '\r' ∉ prettyEntries level entries := by
  induction entries with
  | nil => exact List.not_mem_nil
  | cons entry entries ih =>
      have others := ih fun other member => each other (List.mem_cons_of_mem _ member)
      simp only [prettyEntries, List.mem_cons, List.mem_append, not_or]
      exact ⟨by decide, ⟨return_not_mem_newline level, return_not_mem_textChars entry.1,
        by decide, by decide, each entry List.mem_cons_self⟩, others⟩

/-- No carriage return stands in a pretty text, whatever its texts hold. -/
theorem return_not_mem_prettyChars {v : Value} (plain : v.Plain) (level : Nat) :
    '\r' ∉ prettyChars level v := by
  induction plain generalizing level with
  | null =>
      show '\r' ∉ "null".toList
      decide
  | bool b =>
      cases b with
      | true =>
          show '\r' ∉ "true".toList
          decide
      | false =>
          show '\r' ∉ "false".toList
          decide
  | text s => exact return_not_mem_textChars s
  | @list items _ each =>
      cases items with
      | nil =>
          show '\r' ∉ ['[', ']']
          decide
      | cons v items =>
          have others := return_not_mem_prettyItems fun w member =>
            each w (List.mem_cons_of_mem _ member) (level + 1)
          simp only [prettyChars, List.mem_cons, List.mem_append, List.not_mem_nil,
            or_false, not_or]
          exact ⟨by decide, ⟨⟨⟨return_not_mem_newline (level + 1),
            each v List.mem_cons_self (level + 1)⟩, others⟩, return_not_mem_newline level⟩,
            by decide⟩
  | @object entries _ _ each =>
      cases entries with
      | nil =>
          show '\r' ∉ ['\x7b', '\x7d']
          decide
      | cons entry entries =>
          have others := return_not_mem_prettyEntries fun other member =>
            each other (List.mem_cons_of_mem _ member) (level + 1)
          simp only [prettyChars, List.mem_cons, List.mem_append, List.not_mem_nil,
            or_false, not_or]
          exact ⟨by decide, ⟨⟨⟨return_not_mem_newline (level + 1),
            return_not_mem_textChars entry.1, by decide, by decide,
            each entry List.mem_cons_self (level + 1)⟩, others⟩, return_not_mem_newline level⟩,
            by decide⟩

end Json

end SchemaBaseline
