import SchemaBaseline.Proofs.Yaml.Rounds
import SchemaBaseline.Yaml.Writer

/-!
# The tokens of what is written

`valueTokens` lists the tokens of a value behind a name; `tokensOf_document` says that the text of
an object is cut into the tokens of its entries. The induction is on the value (`Faithful`):
behind each part the lexer awaits whatever the next line begins with, and the blocks that end
before that line count as closed. So the end of an object is told by the line behind it, however
many objects end there.
-/

namespace SchemaBaseline.Yaml

open Lexer

/-! ## Values that are written in full -/

/-- Values that are read again as they were written, behind a name indented by `indent`: nulls,
flags, texts, lists of objects, and objects with distinct plain names. -/
inductive Faithful : Nat → Value → Prop
  | null {indent : Nat} : Faithful indent .null
  | bool {indent : Nat} (b : Bool) : Faithful indent (.bool b)
  | text {indent : Nat} {s : String} (keeps : Keeps (indent + indentStep) s.toList) :
    Faithful indent (.text s)
  | list {indent : Nat} {items : List Value}
    (records : ∀ v ∈ items, ∃ entries, v = .object entries)
    (each : ∀ v ∈ items, Faithful indent v) : Faithful indent (.list items)
  | object {indent : Nat} {entries : Entries} (full : entries ≠ [])
    (distinct : (entries.map Prod.fst).Nodup)
    (names : ∀ entry ∈ entries, isPlainName entry.1.toList = true)
    (each : ∀ entry ∈ entries, Faithful (indent + indentStep) entry.2) :
    Faithful indent (.object entries)

/-- A scalar that is no text. -/
def wordToken (word : String) : Token :=
  .scalar (codesOf word.toList) true

mutual

/-- The tokens of a value behind a name. -/
def valueTokens : Value → List Token
  | .bool true => [wordToken "true"]
  | .bool false => [wordToken "false"]
  | .text s => [.scalar (codesOf s.toList) (fitsPlain s.toList)]
  | .list [] => [.flowSequenceStart, .flowSequenceEnd]
  | .list (v :: rest) => .blockEntry :: (valueTokens v ++ itemTokens rest)
  | .object entries => .blockMappingStart :: (entryTokens entries ++ [.blockEnd])
  | _ => [wordToken "null"]

/-- The tokens of the items of a list. -/
def itemTokens : List Value → List Token
  | [] => []
  | v :: rest => .blockEntry :: (valueTokens v ++ itemTokens rest)

/-- The tokens of the entries of an object. -/
def entryTokens : List (String × Value) → List Token
  | [] => []
  | (name, v) :: rest =>
    .key :: .scalar (codesOf name.toList) true :: .value :: (valueTokens v ++ entryTokens rest)

end

/-! ## Lines -/

section Lines

variable {name : String} {cs : List Char}

theorem nameChars_eq (isName : isPlainName name.toList = true) :
    nameChars name = name.toList ++ [':'] := by
  have plain := fitsPlain_of_isPlainName isName
  simp [nameChars, scalarChars, Style.of, plain]

theorem opensLine_name (isName : isPlainName name.toList = true) (rest : List Char) :
    OpensLine (name.toList ++ rest) := by
  obtain ⟨c, more, same⟩ :=
    List.exists_cons_of_ne_nil (fitsPlain_of (fitsPlain_of_isPlainName isName)).ne_nil
  have sign : isNameSign c = true :=
    isNameSign_of_mem isName (by rw [same]; exact List.mem_cons_self)
  have other : ∀ {d : Char}, isNameSign d = false → c ≠ d := ne_of_isNameSign sign
  have noDash : c ≠ '-' := other (by decide)
  have noPoint : c ≠ '.' := other (by decide)
  rw [same, List.cons_append]
  refine ⟨opensToken_cons (not_blankOrEnd_of_isNameSign sign) (other (by decide))
    (other (by decide)), ?_, ?_⟩
  · simp [List.isPrefixOf, noDash.symm]
  · simp [List.isPrefixOf, noPoint.symm]

theorem opensLine_item (rest : List Char) : OpensLine ('-' :: ' ' :: rest) :=
  ⟨opensToken_cons (by decide) (by decide) (by decide), rfl, rfl⟩

theorem exists_blank_entryValueChars (indent column : Nat) (v : Value) :
    ∃ b more, entryValueChars indent column v = b :: more ∧ isBlankOrEnd b = true := by
  unfold entryValueChars
  split
  · exact ⟨' ', _, rfl, by decide⟩
  · exact ⟨'\n', _, rfl, by decide⟩
  · exact ⟨' ', _, rfl, by decide⟩
  · exact ⟨'\n', _, rfl, by decide⟩
  · exact ⟨' ', _, rfl, by decide⟩

end Lines

/-! ## Outlines behind a value -/

theorem Outline.indent_openMapping {o : Outline} {column : Nat} (within : o.indent ≤ column) :
    (o.openMapping column).indent = column := by
  unfold openMapping
  split
  · rfl
  · omega

theorem Outline.openMapping_of_eq {o : Outline} {column : Nat} (same : o.indent = column) :
    o.openMapping column = o :=
  if_neg (by omega)

/-- A mapping that was opened is closed before a line that is less indented. -/
theorem Outline.close_openMapping {o : Outline} {column k : Nat} (within : o.indent < column)
    (outside : k < column) (tokens : List Token) :
    ((o.openMapping column).add tokens).close k =
      (o.add (.blockMappingStart :: (tokens ++ [.blockEnd]))).close k := by
  have closed : (k : Int) < column := by omega
  rw [openMapping, if_pos within, add, close_inner closed]
  simp [add]

/-! ## Runs -/

section Lexes

variable {x : Lexer} {o : Outline} {column k : Nat} {cs tail : List Char}

/-- A value is cut into its tokens, wherever it stands behind a name. -/
def LexesValue (indent : Nat) (v : Value) : Prop :=
  ∀ {x : Lexer} {o : Outline} {column k : Nat} {tail : List Char},
    Stands x (entryValueChars indent column v ++ (newLine k ++ tail)) o → x.nameAllowed = false →
      o.indent = indent →
    indent < x.cursor.column → k ≤ indent → OpensLine tail →
    ∃ y, Runs x y ∧ Awaits y k true tail ((o.add (valueTokens v)).close k)

/-- Entries are cut into their tokens, from the name of the first one on. -/
def LexesEntries (indent : Nat) : List (String × Value) → Prop
  | [] => False
  | (name, v) :: rest => ∀ {x : Lexer} {o : Outline} {k : Nat} {tail : List Char},
    Awaits x indent true (nameChars name ++
      (entryValueChars indent (columnBehind indent name) v ++
      (moreEntries indent rest ++ (newLine k ++ tail)))) o → o.indent ≤ indent → k ≤ indent →
        OpensLine tail →
    ∃ y, Runs x y ∧ Awaits y k true tail
      (((o.openMapping indent).add (entryTokens ((name, v) :: rest))).close k)

/-- A lexer before a blank awaits, within the line, what is behind it. -/
theorem awaits_behind_blank {indent : Nat} (stands : Stands x (' ' :: cs) o)
    (within : o.indent = indent) (inside : indent ≤ x.cursor.column) (opens : OpensToken cs) :
    Awaits x (x.cursor.column + 1) x.nameAllowed cs o := by
  have awaits := awaits_of_spaces (k := 1) stands opens
  rwa [Outline.close_of_le (by omega)] at awaits

/-- What is behind a scalar that stands plain is awaited where the scalar ends. -/
theorem awaits_here (stands : Stands x cs o) (allowed : x.nameAllowed = true)
    (here : x.cursor.column = k) (opens : OpensToken cs) : Awaits x k true cs (o.close k) := by
  have awaits := awaits_of_spaces (k := 0) stands opens
  rwa [allowed, Nat.add_zero, here] at awaits

/-- A round that takes one token and leaves no candidate is a run. -/
theorem runs_of_stands {y : Lexer} {o' : Outline} {allowed : Bool}
    (awaits : Awaits x column allowed cs o) (token : x.ready.lexHead = .ok y)
    (stands : Stands y tail o') (shorter : tail.length < cs.length) : Runs x y := by
  refine .single (round_of_lexHead awaits token stands.unfinished
    (dropStale_of_noCandidates stands.candidates) ?_)
  rw [stands.rest]
  exact shorter

theorem run_plain {text : List Char} {indent more column' : Nat} (plain : StandsPlain text)
    (stands : Stands x (' ' :: (foldedChars false (indent + more) none column' text ++
      (newLine k ++ tail))) o)
    (notAllowed : x.nameAllowed = false) (within : o.indent = indent)
    (inside : indent < x.cursor.column) (deeper : 0 < more) (shallow : k ≤ indent)
    (opens : OpensLine tail) :
    ∃ y, Runs x y ∧ Awaits y k true tail ((o.add [.scalar (codesOf text) true]).close k) := by
  obtain ⟨c, rest, written, first, visible⟩ :=
    @foldedChars_head (indent + more) text plain.words none column'
  have opens' : OpensToken (foldedChars false (indent + more) none column' text ++
      (newLine k ++ tail)) := by
    obtain ⟨text', rfl⟩ := List.head?_eq_some_iff.mp first
    have noSign := (plain.noSign c text' rfl).1
    rw [written]
    refine opensToken_cons visible ?_ (plain.words.isWide_of_head first).2
    rintro rfl
    exact absurd noSign (by decide)
  have awaits := awaits_behind_blank stands within (Nat.le_of_lt inside) opens'
  have inside' : indent < x.ready.cursor.column := by
    rw [awaits.column_eq]
    omega
  obtain ⟨y, token, stands', allowed, here⟩ :=
    lexHead_of_plain plain awaits.stands (awaits.allowed_eq.trans notAllowed) within
      (Nat.lt_add_of_pos_right deeper) shallow opens inside'
  refine ⟨y, runs_of_stands awaits token stands' ?_,
    awaits_here stands' allowed here opens.toOpensToken⟩
  rw [written]
  simp only [List.length_append, List.length_cons]
  omega

theorem run_quoted {quote : Char} {written text : List Char} {indent : Nat}
    (isQuote : IsQuote quote) (spells : Spells quote written text)
    (stands : Stands x (' ' :: (quote :: (written ++ [quote]) ++ (newLine k ++ tail))) o)
    (notAllowed : x.nameAllowed = false) (within : o.indent = indent)
    (inside : indent < x.cursor.column) (opens : OpensLine tail) :
    ∃ y, Runs x y ∧ Awaits y k true tail ((o.add [.scalar (codesOf text) false]).close k) := by
  have opens' : OpensToken (quote :: (written ++ [quote]) ++ (newLine k ++ tail)) := by
    rcases isQuote with rfl | rfl <;> exact opensToken_cons (by decide) (by decide) (by decide)
  have awaits := awaits_behind_blank stands within (Nat.le_of_lt inside) opens'
  have before : Stands x.ready (quote :: (written ++ quote :: (newLine k ++ tail))) o := by
    have stands' := awaits.stands
    simpa using stands'
  have closed : (newLine k ++ tail).head? ≠ some '\'' := by
    rw [newLine_append]
    exact fun same => absurd (Option.some.inj same) (by decide)
  obtain ⟨y, token, stands'⟩ :=
    lexHead_of_spells isQuote before (awaits.allowed_eq.trans notAllowed) spells closed
  refine ⟨y, runs_of_stands awaits token stands' ?_, awaits_of_newLine stands' opens.toOpensToken⟩
  simp only [List.length_append, List.length_cons]
  omega

theorem run_brackets {indent : Nat}
    (stands : Stands x (' ' :: '[' :: ']' :: (newLine k ++ tail)) o)
    (notAllowed : x.nameAllowed = false) (within : o.indent = indent)
    (inside : indent < x.cursor.column) (opens : OpensLine tail) :
    ∃ y, Runs x y ∧ Awaits y k true tail
      ((o.add [.flowSequenceStart, .flowSequenceEnd]).close k) := by
  have awaits := awaits_behind_blank stands within (Nat.le_of_lt inside)
    (opensToken_cons (by decide) (by decide) (by decide))
  obtain ⟨y, z, token, unfinished, fresh, rest, round, stands'⟩ :=
    brackets_rounds awaits.stands (awaits.allowed_eq.trans notAllowed)
  refine ⟨z, .head (round_of_lexHead awaits token unfinished fresh ?_) (.single round),
    awaits_of_newLine stands' opens.toOpensToken⟩
  rw [rest]
  exact Nat.lt_succ_self _

end Lexes

/-! ## Scalars -/

theorem isWord_of_all {word : List Char} (full : word ≠ [])
    (signs : ∀ c ∈ word, isNameSign c = true) : IsWord word where
  nonempty := full
  visible := fun c member => not_blankOrEnd_of_isNameSign (signs c member)
  wide := fun c member => isWide_of_isNameSign (signs c member)
  noColon := fun same => absurd (signs ':' (List.mem_of_getLast? same)) (by decide)

theorem standsPlain_of_all {word : List Char} (full : word ≠ [])
    (signs : ∀ c ∈ word, isNameSign c = true) :
    StandsPlain word where
  words := .last (isWord_of_all full signs)
  noSign := by
    rintro c rest rfl
    have sign := signs c List.mem_cons_self
    have other : ∀ {d : Char}, isNameSign d = false → c ≠ d := ne_of_isNameSign sign
    refine ⟨isLeadingSign_of_isNameSign sign, ?_⟩
    rintro (same | same | same) <;> exact absurd same (other (by decide))

theorem foldedChars_of_all {word : List Char} (signs : ∀ c ∈ word, isNameSign c = true)
    (indent column : Nat) :
    foldedChars false indent none column word = word := by
  obtain ⟨before, column', written⟩ := @foldedChars_word indent word
    (fun c member => not_blankOrEnd_of_isNameSign (signs c member)) [] none column
  simpa [foldedChars] using written

/-- A word for a value that is no text stands plain. -/
theorem lexes_word {indent : Nat} {v : Value} (word : String) (full : word.toList ≠ [])
    (all : word.toList.all isNameSign = true)
    (written : ∀ column, entryValueChars indent column v = ' ' :: word.toList)
    (token : valueTokens v = [wordToken word]) : LexesValue indent v := by
  intro x o column k tail stands notAllowed within inside shallow opens
  have signs : ∀ c ∈ word.toList, isNameSign c = true := List.all_eq_true.mp all
  have folded := foldedChars_of_all signs (indent + indentStep) (column + 1)
  rw [written, ← folded] at stands
  rw [token]
  exact run_plain (standsPlain_of_all full signs) stands notAllowed within inside
    (by decide) shallow opens

theorem entryValueChars_text (indent column : Nat) (s : String) :
    entryValueChars indent column (.text s) =
      ' ' :: scalarChars false (indent + indentStep) (column + 1) s.toList := by
  simp only [entryValueChars, atomChars]

theorem lexes_text {indent : Nat} {s : String} (keeps : Keeps (indent + indentStep) s.toList) :
    LexesValue indent (.text s) := by
  intro x o column k tail stands notAllowed within inside shallow opens
  rw [entryValueChars_text] at stands
  rw [valueTokens]
  rcases plain : fitsPlain s.toList with _ | _
  · obtain ⟨quote, written, isQuote, same, spells⟩ :=
      exists_spells (Nat.lt_add_left indent (by decide)) keeps plain (column + 1)
    rw [same] at stands
    exact run_quoted isQuote spells stands notAllowed within inside opens
  · rw [scalarChars_plain _ _ plain] at stands
    exact run_plain (fitsPlain_of plain).standsPlain stands notAllowed within inside
      (by decide) shallow opens

/-! ## Collections -/

/-- One entry: its name, the colon, and its value. -/
theorem run_entry {indent k : Nat} {name : String} {v : Value} {x : Lexer} {o : Outline}
    {tail : List Char} (isName : isPlainName name.toList = true) (lexes : LexesValue indent v)
    (awaits : Awaits x indent true
      (nameChars name ++ (entryValueChars indent (columnBehind indent name) v ++
        (newLine k ++ tail))) o)
    (within : o.indent ≤ indent) (shallow : k ≤ indent) (opens : OpensLine tail) :
    ∃ y, Runs x y ∧ Awaits y k true tail (((o.openMapping indent).add
      (.key :: .scalar (codesOf name.toList) true :: .value :: valueTokens v)).close k) := by
  obtain ⟨b, more, begins, blank⟩ :=
    exists_blank_entryValueChars indent (columnBehind indent name) v
  have before : Stands x.ready (name.toList ++ ':' :: b :: (more ++ (newLine k ++ tail))) o := by
    have stands := awaits.stands
    rw [begins, nameChars_eq isName] at stands
    simpa using stands
  obtain ⟨y, z, token, unfinished, fresh, rest, round, stands, notAllowed, column⟩ :=
    name_rounds isName blank before awaits.allowed_eq (by rw [awaits.column_eq]; exact within)
  rw [awaits.column_eq] at stands column
  have first : Round x y := by
    refine round_of_lexHead awaits token unfinished fresh ?_
    have full := List.length_pos_iff.mpr (fitsPlain_of (fitsPlain_of_isPlainName isName)).ne_nil
    rw [rest, begins, nameChars_eq isName]
    simp only [List.length_append, List.length_cons, List.length_nil]
    omega
  rw [← List.cons_append, ← begins] at stands
  obtain ⟨u, runs, awaits'⟩ :=
    lexes stands notAllowed (Outline.indent_openMapping within) (by omega) shallow opens
  rw [Outline.add_add] at awaits'
  exact ⟨u, .head first (.head round runs), awaits'⟩

/-- Entries are taken one after the other; the first one opens the mapping, unless it is open
already. -/
theorem lexes_entries {indent : Nat} {name : String} {v : Value} {rest : List (String × Value)}
    (names : ∀ entry ∈ (name, v) :: rest, isPlainName entry.1.toList = true)
    (each : ∀ entry ∈ (name, v) :: rest, LexesValue indent entry.2) :
    LexesEntries indent ((name, v) :: rest) := by
  have isName : isPlainName name.toList = true := names (name, v) List.mem_cons_self
  have lexes : LexesValue indent v := each (name, v) List.mem_cons_self
  induction rest generalizing name v with
  | nil =>
      intro x o k tail awaits within shallow opens
      rw [moreEntries, List.nil_append] at awaits
      rw [entryTokens, entryTokens, List.append_nil]
      exact run_entry isName lexes awaits within shallow opens
  | cons entry rest ih =>
      obtain ⟨next, w⟩ := entry
      intro x o k tail awaits within shallow opens
      have isNext : isPlainName next.toList = true :=
        names (next, w) (List.mem_cons_of_mem _ List.mem_cons_self)
      have lexesNext : LexesValue indent w :=
        each (next, w) (List.mem_cons_of_mem _ List.mem_cons_self)
      have before : Awaits x indent true
          (nameChars name ++ (entryValueChars indent (columnBehind indent name) v ++
          (newLine indent ++ (nameChars next ++
          (entryValueChars indent (columnBehind indent next) w ++
          (moreEntries indent rest ++ (newLine k ++ tail))))))) o := by
        rw [moreEntries] at awaits
        simpa using awaits
      have opensNext : OpensLine (nameChars next ++
          (entryValueChars indent (columnBehind indent next) w ++
          (moreEntries indent rest ++ (newLine k ++ tail)))) := by
        rw [nameChars_eq isNext, List.append_assoc]
        exact opensLine_name isNext _
      obtain ⟨y, runs, awaits'⟩ := run_entry isName lexes before within (Nat.le_refl _) opensNext
      have same : ∀ tokens, ((o.openMapping indent).add tokens).indent = indent := fun _ =>
        Outline.indent_openMapping within
      rw [Outline.close_of_le (Int.le_of_eq (same _))] at awaits'
      obtain ⟨z, later, awaits''⟩ := ih (fun e member => names e (List.mem_cons_of_mem _ member))
        (fun e member => each e (List.mem_cons_of_mem _ member)) isNext lexesNext awaits'
        (Int.le_of_eq (same _)) shallow opens
      rw [Outline.openMapping_of_eq (same _), Outline.add_add] at awaits''
      refine ⟨z, runs.trans later, ?_⟩
      rw [entryTokens]
      simpa using awaits''

/-- The entries of an object, whose end is told by a line that is less indented. -/
theorem run_record {indent k : Nat} {name : String} {v : Value} {rest : List (String × Value)}
    {x : Lexer} {o : Outline} {tail : List Char}
    (lexes : LexesEntries (indent + indentStep) ((name, v) :: rest))
    (awaits : Awaits x (indent + indentStep) true
      (nameChars name ++ (entryValueChars (indent + indentStep)
        (columnBehind (indent + indentStep) name) v ++
          (moreEntries (indent + indentStep) rest ++ (newLine k ++ tail)))) o)
    (within : o.indent = indent) (shallow : k ≤ indent) (opens : OpensLine tail) :
    ∃ y, Runs x y ∧ Awaits y k true tail
      ((o.add (valueTokens (.object ((name, v) :: rest)))).close k) := by
  have step : indentStep = 2 := rfl
  obtain ⟨y, runs, awaits'⟩ := lexes awaits (by omega) (by omega) opens
  rw [Outline.close_openMapping (by omega) (by omega)] at awaits'
  exact ⟨y, runs, awaits'⟩

theorem lexes_object {indent : Nat} {name : String} {v : Value} {rest : List (String × Value)}
    (isName : isPlainName name.toList = true)
    (lexes : LexesEntries (indent + indentStep) ((name, v) :: rest)) :
    LexesValue indent (.object ((name, v) :: rest)) := by
  intro x o column k tail stands notAllowed within inside shallow opens
  have step : indentStep = 2 := rfl
  rw [entryValueChars] at stands
  simp only [List.append_assoc] at stands
  have opensName : OpensToken (nameChars name ++
      (entryValueChars (indent + indentStep) (columnBehind (indent + indentStep) name) v ++
        (moreEntries (indent + indentStep) rest ++ (newLine k ++ tail)))) := by
    rw [nameChars_eq isName, List.append_assoc]
    exact (opensLine_name isName _).toOpensToken
  have awaits := awaits_of_newLine stands opensName
  rw [Outline.close_of_le (by omega)] at awaits
  exact run_record lexes awaits within shallow opens

/-- The items of a list are objects that are cut into their tokens. -/
def LexesRecord (indent : Nat) (v : Value) : Prop :=
  ∃ name w rest, v = .object ((name, w) :: rest) ∧ isPlainName name.toList = true ∧
    LexesEntries (indent + indentStep) ((name, w) :: rest)

/-- One item: its minus sign and its object. -/
theorem run_item {indent k : Nat} {v : Value} {x : Lexer} {o : Outline} {tail : List Char}
    (lexes : LexesRecord indent v)
    (awaits : Awaits x indent true (itemChars indent v ++ (newLine k ++ tail)) o)
    (within : o.indent = indent) (shallow : k ≤ indent) (opens : OpensLine tail) :
    ∃ y, Runs x y ∧ Awaits y k true tail ((o.add (.blockEntry :: valueTokens v)).close k) := by
  obtain ⟨name, w, rest, rfl, isName, lexes⟩ := lexes
  rw [itemChars] at awaits
  simp only [List.cons_append, List.append_assoc] at awaits
  obtain ⟨y, token, stands, allowed, column⟩ :=
    lexHead_of_entry awaits.stands awaits.allowed_eq (by rw [awaits.column_eq, within])
  have first := runs_of_stands awaits token stands (Nat.lt_succ_self _)
  have opensName : OpensToken (nameChars name ++
      (entryValueChars (indent + indentStep) (columnBehind (indent + indentStep) name) w ++
        (moreEntries (indent + indentStep) rest ++ (newLine k ++ tail)))) := by
    rw [nameChars_eq isName, List.append_assoc]
    exact (opensLine_name isName _).toOpensToken
  rw [awaits.column_eq] at column
  have behind := awaits_behind_blank stands within (by omega) opensName
  rw [column, allowed] at behind
  obtain ⟨z, runs, awaits'⟩ := run_record lexes behind within shallow opens
  rw [Outline.add_add] at awaits'
  exact ⟨z, first.trans runs, awaits'⟩

theorem exists_itemChars {indent : Nat} {v : Value} (lexes : LexesRecord indent v) :
    ∃ more, itemChars indent v = '-' :: ' ' :: more := by
  obtain ⟨name, w, rest, rfl, -, -⟩ := lexes
  exact ⟨_, by rw [itemChars]; rfl⟩

theorem run_items {indent k : Nat} {v : Value} {rest : List Value} {x : Lexer} {o : Outline}
    {tail : List Char} (each : ∀ w ∈ v :: rest, LexesRecord indent w)
    (awaits : Awaits x indent true
      (itemChars indent v ++ (moreItems indent rest ++ (newLine k ++ tail))) o)
    (within : o.indent = indent) (shallow : k ≤ indent) (opens : OpensLine tail) :
    ∃ y, Runs x y ∧ Awaits y k true tail ((o.add (itemTokens (v :: rest))).close k) := by
  induction rest generalizing v x o with
  | nil =>
      rw [moreItems, List.nil_append] at awaits
      rw [itemTokens, itemTokens, List.append_nil]
      exact run_item (each v List.mem_cons_self) awaits within shallow opens
  | cons w rest ih =>
      have lexesNext : LexesRecord indent w := each w (List.mem_cons_of_mem _ List.mem_cons_self)
      rw [moreItems] at awaits
      simp only [List.append_assoc] at awaits
      obtain ⟨more, begins⟩ := exists_itemChars lexesNext
      have opensNext :
          OpensLine (itemChars indent w ++ (moreItems indent rest ++ (newLine k ++ tail))) := by
        rw [begins]
        exact opensLine_item _
      obtain ⟨y, runs, awaits'⟩ :=
        run_item (each v List.mem_cons_self) awaits within (Nat.le_refl _) opensNext
      have same : ∀ tokens, (o.add tokens).indent = indent := fun _ => within
      rw [Outline.close_of_le (Int.le_of_eq (same _))] at awaits'
      obtain ⟨z, later, awaits''⟩ :=
        ih (fun e member => each e (List.mem_cons_of_mem _ member)) awaits' (same _)
      refine ⟨z, runs.trans later, ?_⟩
      rw [itemTokens]
      rw [Outline.add_add] at awaits''
      simpa using awaits''

theorem lexes_list {indent : Nat} {items : List Value}
    (each : ∀ v ∈ items, LexesRecord indent v) :
    LexesValue indent (.list items) := by
  intro x o column k tail stands notAllowed within inside shallow opens
  rcases items with _ | ⟨v, rest⟩
  · rw [entryValueChars] at stands
    exact run_brackets stands notAllowed within inside opens
  · rw [entryValueChars] at stands
    simp only [List.append_assoc] at stands
    obtain ⟨more, begins⟩ := exists_itemChars (each v List.mem_cons_self)
    have opensItem :
        OpensToken (itemChars indent v ++ (moreItems indent rest ++ (newLine k ++ tail))) := by
      rw [begins]
      exact (opensLine_item _).toOpensToken
    have awaits := awaits_of_newLine stands opensItem
    rw [Outline.close_of_le (Int.le_of_eq within)] at awaits
    have same : valueTokens (.list (v :: rest)) = itemTokens (v :: rest) := by
      rw [valueTokens, itemTokens]
    rw [same]
    exact run_items each awaits within shallow opens

/-! ## All values -/

/-- What is shown of each value: behind a name it is cut into its tokens, and if it is an object
it may also be an item. -/
theorem Faithful.lexes {indent : Nat} {v : Value} (faithful : Faithful indent v) :
    LexesValue indent v ∧ ∀ entries, v = .object entries → LexesRecord indent v := by
  induction faithful with
  | null =>
      exact ⟨lexes_word "null" (by decide) (by decide)
        (fun _ => by simp [entryValueChars, atomChars]) (by simp [valueTokens]),
        fun _ same => nomatch same⟩
  | bool b =>
      refine ⟨?_, fun _ same => nomatch same⟩
      cases b with
      | true =>
          exact lexes_word "true" (by decide) (by decide)
            (fun _ => by simp [entryValueChars, atomChars]) (by simp [valueTokens])
      | false =>
          exact lexes_word "false" (by decide) (by decide)
            (fun _ => by simp [entryValueChars, atomChars]) (by simp [valueTokens])
  | text keeps => exact ⟨lexes_text keeps, fun _ same => nomatch same⟩
  | list records each ih =>
      refine ⟨lexes_list fun v member => ?_, fun _ same => nomatch same⟩
      obtain ⟨entries, same⟩ := records v member
      exact (ih v member).2 entries same
  | @object indent entries full distinct names each ih =>
      obtain ⟨⟨name, v⟩, rest, rfl⟩ := List.exists_cons_of_ne_nil full
      have isName : isPlainName name.toList = true := names (name, v) List.mem_cons_self
      have lexes : LexesEntries (indent + indentStep) ((name, v) :: rest) :=
        lexes_entries names fun entry member => (ih entry member).1
      exact ⟨lexes_object isName lexes, fun _ _ => ⟨name, v, rest, rfl, isName, lexes⟩⟩

/-- The text of an object is cut into the tokens of its entries. -/
theorem tokensOf_document {entries : Entries} (full : entries ≠ [])
    (names : ∀ entry ∈ entries, isPlainName entry.1.toList = true)
    (each : ∀ entry ∈ entries, Faithful 0 entry.2) :
    ∃ placed, tokensOf (documentChars (.object entries) ++ ['\n']) = (placed, none) ∧
      placed.map Placed.token = .blockMappingStart ::
        (entryTokens entries ++ [.blockEnd, .streamEnd]) := by
  obtain ⟨⟨name, v⟩, rest, rfl⟩ := List.exists_cons_of_ne_nil full
  have isName : isPlainName name.toList = true := names (name, v) List.mem_cons_self
  have lexes : LexesEntries 0 ((name, v) :: rest) :=
    lexes_entries names fun entry member => (each entry member).lexes.1
  have written : documentChars (.object ((name, v) :: rest)) ++ ['\n'] =
      nameChars name ++ (entryValueChars 0 (columnBehind 0 name) v ++
      (moreEntries 0 rest ++ (newLine 0 ++ []))) := by
    simp [documentChars, newLine]
  generalize documentChars (.object ((name, v) :: rest)) ++ ['\n'] = cs at written
  have stands : Stands (Lexer.start cs) cs ⟨-1, [], []⟩ :=
    ⟨rfl, rfl, rfl, rfl, rfl, rfl, Nat.le_refl _⟩
  have opensName : OpensToken cs := by
    rw [written, nameChars_eq isName, List.append_assoc]
    exact (opensLine_name isName _).toOpensToken
  have awaits := awaits_here (k := 0) stands rfl rfl opensName
  rw [Outline.close_of_le (by decide), written] at awaits
  obtain ⟨y, runs, awaits'⟩ := lexes awaits (by decide) (Nat.le_refl _) opensLine_nil
  have before : (((⟨-1, [], []⟩ : Outline).openMapping 0).add
      (entryTokens ((name, v) :: rest))).close (0 : Nat) =
      ⟨0, [-1], .blockMappingStart :: entryTokens ((name, v) :: rest)⟩ :=
    Outline.close_of_le (show (0 : Int) ≤ 0 from Int.le_refl 0)
  rw [before] at awaits'
  obtain ⟨z, token, finished, tokens⟩ := lexHead_of_end awaits'.stands
  obtain ⟨fuel, settled, enough, same⟩ := lex_of_runs runs (Nat.lt_succ_self _) 0
  obtain ⟨fuel, rfl⟩ : ∃ n, fuel = n + 1 := ⟨fuel - 1, by omega⟩
  rw [lex_succ fuel settled y, lexToken_eq awaits'.fresh, token] at same
  simp only [finished, if_true] at same
  refine ⟨z.tokens.reverse, ?_, ?_⟩
  · rw [← written] at same
    exact same
  · rw [tokens, Outline.close_inner (by decide)]
    simp [Outline.close, Outline.closeFrom]

end SchemaBaseline.Yaml
