import Mathlib.Data.List.TakeWhile
import SchemaBaseline.Json.Reader
import SchemaBaseline.Proofs.Sdl.Text

/-!
# Strings in schema texts

Descriptions are written as block strings, reasons of deprecation as string literals. This module
reads both as a reader of the language does, by what closes them, and says which of them come
back.

Inside a block string the writer escapes three quotes in a row, from left to right. It does not
look at the quotes that close the string, and so what stands at the end of a description can run
into them: quotes that are not used up by threes close the string too early, and a backslash
escapes the quotes that should close it. `descriptionLines_eq_block` says that these are the only
descriptions that do not come back (`EndsApart`).

Inside a literal the writer escapes every backslash and every quote, so that a literal always ends
where it should. It leaves the ends of lines as they are, though a literal has to stay on one
line. `endsDeprecated_literal` says that reasons of several lines are the only ones that do not
come back.
-/

namespace SchemaBaseline.Sdl

/-! ## Reading block strings -/

/-- Reads a block string behind its opening quotes: gives what it holds, escapes and all, and what
comes behind the closing quotes. -/
def closeBlock : List Char → Option (List Char × List Char)
  | '\\' :: '"' :: '"' :: '"' :: rest =>
    (closeBlock rest).map fun read => ('\\' :: '"' :: '"' :: '"' :: read.1, read.2)
  | '"' :: '"' :: '"' :: rest => some ([], rest)
  | c :: rest => (closeBlock rest).map fun read => (c :: read.1, read.2)
  | [] => none

/-- Reads a block string at the front of a text. -/
def readBlock : List Char → Option (List Char × List Char)
  | '"' :: '"' :: '"' :: rest => closeBlock rest
  | _ => none

/-- What a block string stands for, from what it holds. -/
def unescapeBlock : List Char → List Char
  | '\\' :: '"' :: '"' :: '"' :: rest => '"' :: '"' :: '"' :: unescapeBlock rest
  | c :: rest => c :: unescapeBlock rest
  | [] => []

/-- The number of quotes at the end of a text. -/
def quotesAtEnd (text : List Char) : Nat :=
  (text.reverse.takeWhile (· == '"')).length

/-- The quotes at the end of a text come in threes, and if there are none, there is no backslash
at the end either. -/
def EndsApart (text : List Char) : Prop :=
  quotesAtEnd text % 3 = 0 ∧ (quotesAtEnd text = 0 → text.getLast? ≠ some '\\')

instance (text : List Char) : Decidable (EndsApart text) :=
  inferInstanceAs (Decidable (_ ∧ (_ → _)))

/-- Three quotes in a row at the front. -/
def BeginsTriple (text : List Char) : Prop :=
  ∃ rest, text = '"' :: '"' :: '"' :: rest

variable {c : Char} {text rest behind : List Char}

/-! ## Ends of texts -/

theorem quotesAtEnd_cons (c : Char) (rest : List Char) :
    quotesAtEnd (c :: rest) = if (c :: rest).all (· == '"') then rest.length + 1
    else quotesAtEnd rest := by
  have whole : (rest.reverse.takeWhile (· == '"')).length = rest.reverse.length ↔
      rest.all (· == '"') = true := by
    rw [(List.takeWhile_sublist _).length_eq, List.takeWhile_eq_self_iff, List.all_eq_true]
    simp only [List.mem_reverse]
  unfold quotesAtEnd
  rw [List.reverse_cons, List.takeWhile_append, List.all_cons]
  by_cases quotes : rest.all (· == '"') = true
  · rw [if_pos (whole.mpr quotes), whole.mpr quotes]
    by_cases quote : c = '"' <;> simp [quote, quotes]
  · rw [if_neg (whole.not.mpr quotes)]
    simp [quotes]

/-- Three quotes in front make no difference to how a text ends. -/
theorem endsApart_triple : EndsApart ('"' :: '"' :: '"' :: rest) ↔ EndsApart rest := by
  cases rest with
  | nil => decide
  | cons c rest =>
    have last : ('"' :: '"' :: '"' :: c :: rest).getLast? = (c :: rest).getLast? := by simp
    by_cases quotes : (c :: rest).all (· == '"') = true
    · simp [EndsApart, quotesAtEnd_cons, quotes, last]
      omega
    · simp [EndsApart, quotesAtEnd_cons, quotes, last]

/-- Whether a text ends apart is told by what comes behind its first character, unless there are
two quotes at most or a backslash alone. -/
theorem endsApart_cons (plain : ¬ BeginsTriple (c :: rest)) :
    EndsApart (c :: rest) ↔ EndsApart rest ∧ ¬ (c = '"' ∧ (rest = [] ∨ rest = ['"'])) ∧
      ¬ (c = '\\' ∧ rest = []) := by
  cases rest with
  | nil =>
    by_cases quote : c = '"'
    · subst quote
      decide
    by_cases backslash : c = '\\'
    · subst backslash
      decide
    simp [EndsApart, quotesAtEnd, quote, backslash]
  | cons d rest =>
    have last : (c :: d :: rest).getLast? = (d :: rest).getLast? := List.getLast?_cons_cons
    by_cases quotes : (c :: d :: rest).all (· == '"') = true
    · -- Two quotes and no more, since three would be escaped.
      simp only [List.all_cons, Bool.and_eq_true, beq_iff_eq] at quotes
      obtain ⟨rfl, rfl, quotes⟩ := quotes
      obtain rfl : rest = [] := by
        cases rest with
        | nil => rfl
        | cons e rest =>
          simp only [List.all_cons, Bool.and_eq_true, beq_iff_eq] at quotes
          obtain ⟨rfl, -⟩ := quotes
          exact absurd ⟨rest, rfl⟩ plain
      decide
    · have same : quotesAtEnd (c :: d :: rest) = quotesAtEnd (d :: rest) := by
        rw [quotesAtEnd_cons, if_neg quotes]
      have alike : EndsApart (c :: d :: rest) ↔ EndsApart (d :: rest) := by
        rw [EndsApart, EndsApart, same, last]
      have notTwo : ¬ (c = '"' ∧ (d :: rest = [] ∨ d :: rest = ['"'])) := by
        rintro ⟨rfl, none | one⟩
        · cases none
        · rw [one] at quotes
          exact quotes rfl
      rw [alike]
      exact (and_iff_left ⟨notTwo, fun alone => List.cons_ne_nil d rest alone.2⟩).symm

/-! ## Escaped texts -/

theorem escapeBlock_cons (plain : ¬ BeginsTriple (c :: rest)) :
    escapeBlock (c :: rest) = c :: escapeBlock rest := by
  rw [escapeBlock]
  rintro more rfl rfl
  exact plain ⟨more, rfl⟩

/-- A quote comes at the front of what is written only from a quote at the front of the text that
is not followed by two more, or from behind the text. -/
theorem quote_of_escapeBlock {after z : List Char}
    (begins : escapeBlock text ++ after = '"' :: z) :
    text = [] ∧ after = '"' :: z ∨ ∃ rest, text = '"' :: rest ∧ ¬ BeginsTriple text ∧
      escapeBlock rest ++ after = z := by
  cases text with
  | nil => exact .inl ⟨rfl, begins⟩
  | cons c rest =>
    by_cases triple : BeginsTriple (c :: rest)
    · obtain ⟨more, same⟩ := triple
      rw [same, escapeBlock] at begins
      cases (List.cons.inj begins).1
    · rw [escapeBlock_cons triple] at begins
      obtain ⟨rfl, written⟩ := List.cons.inj begins
      exact .inr ⟨rest, rfl, triple, written⟩

/-- Nothing that is written begins with three quotes, unless they come from behind the text. -/
theorem short_of_triple_escapeBlock {after : List Char}
    (begins : BeginsTriple (escapeBlock text ++ after)) :
    text = [] ∨ text = ['"'] ∨ text = ['"', '"'] := by
  obtain ⟨z, begins⟩ := begins
  obtain ⟨rfl, -⟩ | ⟨rest, rfl, plain, begins⟩ := quote_of_escapeBlock begins
  · exact .inl rfl
  obtain ⟨rfl, -⟩ | ⟨rest, rfl, -, begins⟩ := quote_of_escapeBlock begins
  · exact .inr (.inl rfl)
  obtain ⟨rfl, -⟩ | ⟨rest, rfl, -, -⟩ := quote_of_escapeBlock begins
  · exact .inr (.inr rfl)
  · exact absurd ⟨rest, rfl⟩ plain

theorem unescapeBlock_escapeBlock (text : List Char) :
    unescapeBlock (escapeBlock text) = text := by
  fun_induction escapeBlock text with
  | case1 rest ih => rw [unescapeBlock, ih]
  | case2 c rest plain ih =>
    rw [unescapeBlock, ih]
    intro more _ escaped
    have begins : BeginsTriple (escapeBlock rest ++ []) :=
      ⟨more, by rw [List.append_nil, escaped]⟩
    obtain rfl | rfl | rfl := short_of_triple_escapeBlock begins <;> simp [escapeBlock] at escaped
  | case3 => rfl

/-! ## Where block strings close -/

theorem closeBlock_cons {out : List Char} (unclosed : ¬ BeginsTriple (c :: out))
    (unescaped : ¬ (c = '\\' ∧ BeginsTriple out)) :
    closeBlock (c :: out) = (closeBlock out).map fun read => (c :: read.1, read.2) := by
  rw [closeBlock]
  · rintro more rfl rfl
    exact unescaped ⟨rfl, more, rfl⟩
  · rintro more rfl rfl
    exact unclosed ⟨more, rfl⟩

theorem not_beginsTriple (single : ∀ more, c = '"' → rest = '"' :: '"' :: more → False) :
    ¬ BeginsTriple (c :: rest) := by
  rintro ⟨more, same⟩
  obtain ⟨quote, quotes⟩ := List.cons.inj same
  exact single more quote quotes

/-- In a text that ends apart no character is taken for a part of the closing quotes or of an
escape that the writer did not write. -/
theorem plain_of_endsApart (plain : ¬ BeginsTriple (c :: rest)) (apart : EndsApart (c :: rest))
    (after : List Char) :
    ¬ BeginsTriple (c :: (escapeBlock rest ++ after)) ∧
      ¬ (c = '\\' ∧ BeginsTriple (escapeBlock rest ++ after)) := by
  constructor
  · intro closes
    rw [← List.cons_append, ← escapeBlock_cons plain] at closes
    obtain same | same | same := short_of_triple_escapeBlock closes
    · cases same
    · rw [same] at apart
      exact absurd apart (by decide)
    · rw [same] at apart
      exact absurd apart (by decide)
  · rintro ⟨rfl, escapes⟩
    obtain rfl | rfl | rfl :=
      short_of_triple_escapeBlock escapes <;> exact absurd apart (by decide)

/-- A text that ends apart is closed by the quotes behind it, whatever comes after them. -/
theorem closeBlock_escapeBlock (apart : EndsApart text) (behind : List Char) :
    closeBlock (escapeBlock text ++ '"' :: '"' :: '"' :: behind) =
      some (escapeBlock text, behind) := by
  fun_induction escapeBlock text with
  | case1 rest ih =>
    simp only [List.cons_append, closeBlock, ih (endsApart_triple.mp apart), Option.map_some]
  | case2 c rest single ih =>
    have plain := not_beginsTriple single
    obtain ⟨unclosed, unescaped⟩ := plain_of_endsApart plain apart ('"' :: '"' :: '"' :: behind)
    rw [List.cons_append, closeBlock_cons unclosed unescaped,
      ih ((endsApart_cons plain).mp apart).1, Option.map_some]
  | case3 => rfl

/-- Any other text is closed too early, so that quotes are left over, or not at all. -/
theorem closeBlock_escapeBlock_ne (torn : ¬ EndsApart text) (raw : List Char) :
    closeBlock (escapeBlock text ++ ['"', '"', '"']) ≠ some (raw, []) := by
  fun_induction escapeBlock text generalizing raw with
  | case1 rest ih =>
    simp only [List.cons_append, closeBlock]
    intro read
    obtain ⟨⟨raw, left⟩, readRest, same⟩ := Option.map_eq_some_iff.mp read
    obtain ⟨-, rfl⟩ := Prod.mk.inj same
    exact ih (endsApart_triple.not.mp torn) raw readRest
  | case2 c rest single ih =>
    have plain := not_beginsTriple single
    rw [List.cons_append]
    by_cases early : BeginsTriple (c :: (escapeBlock rest ++ ['"', '"', '"']))
    · obtain ⟨left, same⟩ := early
      have nonempty : left ≠ [] := by
        rintro rfl
        simpa using congrArg List.length same
      simp [same, closeBlock, nonempty]
    by_cases late : c = '\\' ∧ BeginsTriple (escapeBlock rest ++ ['"', '"', '"'])
    · obtain ⟨rfl, escapes⟩ := late
      obtain rfl | rfl | rfl :=
        short_of_triple_escapeBlock escapes <;> simp [escapeBlock, closeBlock]
    rw [closeBlock_cons early late]
    intro read
    obtain ⟨⟨raw, left⟩, readRest, same⟩ := Option.map_eq_some_iff.mp read
    obtain ⟨-, rfl⟩ := Prod.mk.inj same
    refine ih (fun apart => torn ((endsApart_cons plain).mpr ⟨apart, ?_, ?_⟩)) raw readRest
    · rintro ⟨rfl, rfl | rfl⟩
      · exact early ⟨['"'], rfl⟩
      · exact early ⟨['"', '"'], rfl⟩
    · rintro ⟨rfl, rfl⟩
      exact late ⟨rfl, [], rfl⟩
  | case3 => exact absurd (by decide) torn

/-! ## Descriptions -/

/-- What is written for a description that is not empty comes, behind the indentation, in quotes
of a block string. If the description ends apart, this is one block string, whatever comes behind
it, and it stands for the description; otherwise it is no block string with nothing left over. -/
theorem descriptionLines_eq_block (indent : String) {text : String} (nonempty : text ≠ "") :
    ∃ token : String, descriptionLines indent (some text) = [indent ++ token] ∧
      (EndsApart text.toList → ∀ behind, ∃ raw,
        readBlock (token.toList ++ behind) = some (raw, behind) ∧
          unescapeBlock raw = text.toList) ∧
      (¬ EndsApart text.toList → ∀ raw, readBlock token.toList ≠ some (raw, [])) := by
  have written (behind : List Char) :
      readBlock
          (("\"\"\"" ++ String.ofList (escapeBlock text.toList) ++ "\"\"\"").toList ++ behind) =
        closeBlock (escapeBlock text.toList ++ '"' :: '"' :: '"' :: behind) := by
    simp [readBlock]
  refine ⟨"\"\"\"" ++ String.ofList (escapeBlock text.toList) ++ "\"\"\"", ?_,
    fun apart behind => ?_, fun torn raw => ?_⟩
  · have shown : text.isEmpty = false := by simpa using nonempty
    simp only [descriptionLines, shown, Bool.false_eq_true, if_false, String.append_assoc]
  · rw [written]
    exact ⟨_, closeBlock_escapeBlock apart behind, unescapeBlock_escapeBlock text.toList⟩
  · have read := written []
    rw [List.append_nil] at read
    rw [read]
    exact closeBlock_escapeBlock_ne torn raw

/-- A backslash and two quotes in the middle and three quotes at the end come back, also with a
line feed and a further block string behind them. -/
theorem descriptionLines_eq_block_stop :
    let text := "say \\\"\" or \"\"\"stop\"\"\""
    let behind := "\n\"\"\"more\"\"\"".toList
    text ≠ "" ∧ EndsApart text.toList ∧ ∃ token : String,
      descriptionLines "  " (some text) = ["  " ++ token] ∧
      ∃ raw, readBlock (token.toList ++ behind) = some (raw, behind) ∧
        unescapeBlock raw = text.toList := by
  intro text behind
  have nonempty : text ≠ "" := by decide
  have apart : EndsApart text.toList := by decide
  obtain ⟨token, written, reads, -⟩ := descriptionLines_eq_block "  " nonempty
  exact ⟨nonempty, apart, token, written, reads apart behind⟩

/-- Of four quotes the first three are escaped, and the fourth runs into the closing ones: the
block string ends a quote too early. The last three could have been escaped instead. -/
theorem readBlock_fourQuotes :
    let text := "\"\"\"\""
    let token := "\"\"\"\\\"\"\"\"\"\"\""
    let better := "\"\"\"\"\\\"\"\"\"\"\""
    descriptionLines "" (some text) = [token] ∧
      readBlock token.toList = some ("\\\"\"\"".toList, ['"']) ∧
      readBlock better.toList = some ("\"\\\"\"\"".toList, []) ∧
      unescapeBlock "\"\\\"\"\"".toList = text.toList := by
  decide

/-! ## Reading string literals -/

/-- Whether a character ends a line. -/
def isLineEnd (c : Char) : Bool :=
  c == '\n' || c == '\r'

/-- Reads a string literal behind its opening quote: gives what it stands for and what comes
behind its closing quote. A backslash and the character behind it stand for one character; escapes
by a code, which are never written here, are not read. A line cannot end inside. -/
def closeLiteral : List Char → Option (List Char × List Char)
  | '"' :: rest => some ([], rest)
  | '\\' :: c :: rest =>
    match Json.shortEscape? c with
    | some plain => (closeLiteral rest).map fun read => (plain :: read.1, read.2)
    | none => none
  | c :: rest =>
    if isLineEnd c then none else (closeLiteral rest).map fun read => (c :: read.1, read.2)
  | [] => none

/-- Reads a string literal at the front of a text. Three quotes open a block string instead. -/
def readLiteral : List Char → Option (List Char × List Char)
  | '"' :: '"' :: '"' :: _ => none
  | '"' :: rest => closeLiteral rest
  | _ => none

theorem closeLiteral_cons {out : List Char} (quote : c ≠ '"') (backslash : c ≠ '\\')
    (inside : isLineEnd c = false) :
    closeLiteral (c :: out) = (closeLiteral out).map fun read => (c :: read.1, read.2) := by
  rw [closeLiteral]
  · rw [inside, if_neg Bool.false_ne_true]
  · exact quote
  · exact fun _ _ same _ => backslash same

/-- An escaped text is closed by the quote behind it, unless a line ends in it; then it is not
read at all. -/
theorem closeLiteral_escapeLiteral (text behind : List Char) :
    closeLiteral (escapeLiteral text ++ '"' :: behind) = if text.any isLineEnd then none
    else some (text, behind) := by
  induction text with
  | nil => rfl
  | cons c rest ih =>
    rw [escapeLiteral, List.flatMap_cons, ← escapeLiteral, List.append_assoc, List.any_cons]
    by_cases special : c = '\\' ∨ c = '"'
    · have read : closeLiteral ('\\' :: c :: (escapeLiteral rest ++ '"' :: behind)) =
          (closeLiteral (escapeLiteral rest ++ '"' :: behind)).map fun read =>
          (c :: read.1, read.2) := by
        obtain rfl | rfl := special <;> rfl
      have inside : isLineEnd c = false := by obtain rfl | rfl := special <;> rfl
      have escaped : (if c = '\\' || c = '"' then ['\\', c] else [c]) = ['\\', c] := by
        simp [special]
      rw [escaped, List.cons_append, List.singleton_append, read, ih, inside, Bool.false_or]
      split <;> rfl
    · have plain : (if c = '\\' || c = '"' then ['\\', c] else [c]) = [c] := by simp [special]
      obtain ⟨backslash, quote⟩ := not_or.mp special
      rw [plain, List.singleton_append]
      cases ends : isLineEnd c with
      | false =>
        rw [closeLiteral_cons quote backslash ends, ih, Bool.false_or]
        split <;> rfl
      | true =>
        rw [closeLiteral, ends, if_pos rfl, Bool.true_or, if_pos rfl]
        · exact quote
        · exact fun _ _ same _ => backslash same

/-- No literal is written that begins like a block string. -/
theorem readLiteral_escapeLiteral (text behind : List Char) :
    readLiteral ('"' :: (escapeLiteral text ++ '"' :: ')' :: behind)) =
      if text.any isLineEnd then none else some (text, ')' :: behind) := by
  rw [readLiteral, closeLiteral_escapeLiteral]
  intro more same
  cases text with
  | nil => cases (List.cons.inj (List.cons.inj same).2).1
  | cons c rest =>
    rw [escapeLiteral, List.flatMap_cons, ← escapeLiteral] at same
    by_cases special : c = '\\' ∨ c = '"'
    · simp [special] at same
    · simp [special] at same
      exact special (.inr same.1)

/-! ## Deprecations -/

/-- The last of some lines ends in the mark of a deprecation with a literal. -/
def EndsDeprecated (lines : List String) (literal : String) : Prop :=
  ∃ before front, lines = before ++ [front ++ " @deprecated(reason: " ++ literal ++ ")"]

/-- For each reason there is one text that stands in the mark of every deprecated field and value
with this reason. If no line ends in the reason, the text is one string literal, up to the
parenthesis that closes the mark, and it stands for the reason; otherwise it is not the beginning
of a literal. -/
theorem endsDeprecated_literal (reason : Option String) :
    ∃ literal : String,
      (∀ field lines, field.isDeprecated = true → field.deprecationReason = reason →
        fieldLines field = .ok lines →
        EndsDeprecated lines literal) ∧
      (∀ value : EnumValue, value.isDeprecated = true → value.deprecationReason = reason →
        EndsDeprecated (enumValueLines value) literal) ∧
      ((∀ c ∈ (reason.getD "").toList, isLineEnd c = false) → ∀ behind,
        readLiteral (literal.toList ++ ')' :: behind) =
          some ((reason.getD "").toList, ')' :: behind)) ∧
      ((∃ c ∈ (reason.getD "").toList, isLineEnd c = true) →
        ∀ behind, readLiteral (literal.toList ++ ')' :: behind) = none) := by
  have marked (front : String) : front ++ deprecation true reason =
      front ++ " @deprecated(reason: " ++
      ("\"" ++ String.ofList (escapeLiteral (reason.getD "").toList) ++ "\"") ++ ")" :=
    String.toList_inj.mp (by simp [deprecation])
  have read (behind : List Char) :
      readLiteral (("\"" ++ String.ofList (escapeLiteral (reason.getD "").toList) ++
          "\"").toList ++ ')' :: behind) =
        if (reason.getD "").toList.any isLineEnd then none
        else some ((reason.getD "").toList, ')' :: behind) := by
    rw [← readLiteral_escapeLiteral]
    simp
  refine ⟨"\"" ++ String.ofList (escapeLiteral (reason.getD "").toList) ++ "\"", ?_, ?_,
    fun within behind => ?_, fun ends behind => ?_⟩
  · intro field lines deprecated given ok
    rw [fieldLines] at ok
    cases args : each inputValue field.args with
    | error e =>
      rw [args] at ok
      cases ok
    | ok args' =>
      cases type : field.type.canonical with
      | error e =>
        rw [args, type] at ok
        cases ok
      | ok type' =>
        rw [args, type, deprecated, given] at ok
        obtain rfl := Except.ok.inj ok
        exact ⟨_, _, by rw [marked]⟩
  · intro value deprecated given
    rw [enumValueLines, deprecated, given, marked]
    exact ⟨_, _, rfl⟩
  · rw [read, if_neg]
    simpa using within
  · rw [read, if_pos (List.any_eq_true.mpr ends)]

/-- A line feed in a reason is written as it is, where a literal cannot hold it. Escaped it would
come back. -/
theorem readLiteral_twoLines :
    let value : EnumValue := ⟨"RED", none, true, some "gone\nsoon"⟩
    let literal := "\"gone\nsoon\")"
    let better := "\"gone\\nsoon\")"
    enumValueLines value = ["  RED @deprecated(reason: " ++ literal] ∧
      readLiteral literal.toList = none ∧
      readLiteral better.toList = some ("gone\nsoon".toList, [')']) := by
  decide

end SchemaBaseline.Sdl
