import SchemaBaseline.Proofs.Results
import SchemaBaseline.Proofs.Schema.Spelling
import SchemaBaseline.Proofs.Text.Trimmed
import SchemaBaseline.Schema.Spelling

/-!
# What is read as a reference

`TypeRef.Spells` is the grammar of spellings: a name, a spelling with a mark behind it, or a
spelling in brackets, each with blanks on both sides. `TypeRef.parse_eq_ok_iff_spells` says that
reading follows it: a text is read as a reference just if it spells it, and what is written for
the reference is the text without the blanks outside its name. `TypeRef.parse_canonical` is the
way back: what is written for lists and marks around a name is read as that reference.

Reading looks at the two ends of a text only, so the grammar has to be unambiguous from outside:
the last visible character tells a mark from a bracket, and a name has neither at its ends
(`peel_mark`, `peel_brackets`, `IsName.peel`).
-/

namespace SchemaBaseline.TypeRef

open Text

/-- What may stand for a name in a spelling: it is not empty, there is no bracket, mark or space
in it, and no blank at its ends. -/
structure IsName (cs : List Char) : Prop where
  nonempty : cs ≠ []
  clear : cs.any endsName = false
  trimmed : Trimmed cs

instance (cs : List Char) : Decidable (IsName cs) :=
  decidable_of_iff (cs ≠ [] ∧ cs.any endsName = false ∧ Trimmed cs)
    ⟨fun ⟨nonempty, clear, trimmed⟩ => ⟨nonempty, clear, trimmed⟩,
      fun ⟨nonempty, clear, trimmed⟩ => ⟨nonempty, clear, trimmed⟩⟩

/-- The texts that spell a reference, whatever blanks stand between their parts. -/
inductive Spells : List Char → TypeRef → Prop
  | name {before name after : List Char} : Blanks before → IsName name → Blanks after →
      Spells (before ++ name ++ after) (named (String.ofList name))
  | mark {before text after : List Char} {ref : TypeRef} :
    Blanks before → Spells text ref → Blanks after →
      Spells (before ++ text ++ '!' :: after) (nonNull ref)
  | brackets {before text after : List Char} {ref : TypeRef} :
    Blanks before → Spells text ref → Blanks after →
      Spells (before ++ '[' :: text ++ ']' :: after) (listOf ref)

/-- References made of lists and non-null marks alone, around a name. -/
inductive Over (name : String) : TypeRef → Prop
  | named : Over name (.named name)
  | nonNull {inner : TypeRef} : Over name inner → Over name (.nonNull inner)
  | listOf {inner : TypeRef} : Over name inner → Over name (.listOf inner)

variable {cs inner text : List Char} {name : String} {ref : TypeRef}

/-! ## Lists, marks and names -/

section

variable (name : String) (inner : TypeRef)

@[simp] theorem namedType_named : (named name).namedType = name := rfl
@[simp] theorem namedType_nonNull : (nonNull inner).namedType = inner.namedType := rfl
@[simp] theorem namedType_listOf : (listOf inner).namedType = inner.namedType := rfl

@[simp] theorem spelling_named : (named name).spelling = name.toList := rfl
@[simp] theorem spelling_nonNull : (nonNull inner).spelling = inner.spelling ++ ['!'] := rfl
@[simp] theorem spelling_listOf : (listOf inner).spelling = '[' :: inner.spelling ++ [']'] := rfl

@[simp] theorem depth_named : (named name).depth = 1 := rfl
@[simp] theorem depth_nonNull : (nonNull inner).depth = inner.depth + 1 := rfl
@[simp] theorem depth_listOf : (listOf inner).depth = inner.depth + 1 := rfl

end

/-! ## Taking off the outermost wrapper -/

theorem peel_mark (inner : List Char) : peel (inner ++ ['!']) = .nonNull inner := by
  simp [peel]

theorem peel_brackets (inner : List Char) : peel ('[' :: inner ++ [']']) = .list inner := by
  rw [peel, List.getLast?_concat, List.dropLast_concat]
  rfl

theorem eq_of_peel_nonNull (peeled : peel cs = .nonNull inner) : cs = inner ++ ['!'] := by
  unfold peel at peeled
  split at peeled
  next marked =>
    cases peeled
    obtain ⟨front, rfl⟩ := List.getLast?_eq_some_iff.mp marked
    rw [List.dropLast_concat]
  next => split at peeled <;> cases peeled

theorem eq_of_peel_list (peeled : peel cs = .list inner) : cs = '[' :: inner ++ [']'] := by
  unfold peel at peeled
  split at peeled
  next => cases peeled
  next =>
    split at peeled
    next bracketed =>
      cases peeled
      rw [Bool.and_eq_true, decide_eq_true_eq, decide_eq_true_eq] at bracketed
      obtain ⟨opened, closed⟩ := bracketed
      obtain ⟨front, rfl⟩ := List.getLast?_eq_some_iff.mp closed
      cases front with
      | nil => cases opened
      | cons c front =>
          obtain rfl : c = '[' := Option.some.inj opened
          rw [List.dropLast_concat, List.tail_cons]
    next => cases peeled

theorem IsName.not_endsName (isName : IsName cs) {c : Char} (member : c ∈ cs) :
    endsName c = false := by
  simpa using List.any_eq_false.mp isName.clear c member

theorem IsName.peel (isName : IsName cs) : peel cs = .plain := by
  cases peeled : TypeRef.peel cs with
  | nonNull inner =>
      have mark : endsName '!' = false :=
        isName.not_endsName (by simp [eq_of_peel_nonNull peeled])
      exact absurd mark (by decide)
  | list inner =>
      have bracket : endsName ']' = false :=
        isName.not_endsName (by simp [eq_of_peel_list peeled])
      exact absurd bracket (by decide)
  | plain => rfl

/-! ## Reading, one wrapper at a time -/

theorem parseChars_eq (text : List Char) :
    parseChars text = match peel (stripChars text) with
      | .nonNull inner => (parseChars inner).map nonNull
      | .list inner => (parseChars inner).map listOf
      | .plain =>
        if (stripChars text).isEmpty || (stripChars text).any endsName then
          .error ⟨String.ofList (stripChars text)⟩
        else .ok (named (String.ofList (stripChars text))) := by
  rw [parseChars]
  split <;> simp_all

theorem parseChars_mark (stripped : stripChars text = inner ++ ['!']) :
    parseChars text = (parseChars inner).map nonNull := by
  rw [parseChars_eq, stripped, peel_mark]

theorem parseChars_brackets (stripped : stripChars text = '[' :: inner ++ [']']) :
    parseChars text = (parseChars inner).map listOf := by
  rw [parseChars_eq, stripped, peel_brackets]

theorem parseChars_name (stripped : stripChars text = cs) (isName : IsName cs) :
    parseChars text = .ok (named (String.ofList cs)) := by
  rw [parseChars_eq, stripped, isName.peel]
  simp [isName.nonempty, isName.clear]

/-- Blanks in front make no difference. -/
theorem parseChars_dropWhile (text : List Char) :
    parseChars (text.dropWhile isBlank) = parseChars text := by
  rw [parseChars_eq, parseChars_eq text, stripChars_dropWhile]

/-- What spells a reference is read as this reference. -/
theorem Spells.parseChars_eq_ok (spells : Spells text ref) : parseChars text = .ok ref := by
  induction spells with
  | name blanks isName blanks' =>
    exact parseChars_name (stripChars_of_blanks blanks isName.trimmed blanks') isName
  | @mark before text after ref blanks _ blanks' ih =>
      -- Reading drops the blanks in front of the mark's text together with those in front of the
      -- whole.
      have stripped :
          stripChars (before ++ text ++ '!' :: after) = text.dropWhile isBlank ++ ['!'] :=
        stripChars_concat (by decide) blanks text blanks'
      rw [parseChars_mark stripped, parseChars_dropWhile, ih]
      rfl
  | @brackets before text after ref blanks _ blanks' ih =>
      have trimmed : Trimmed ('[' :: text ++ [']']) :=
        ⟨startsOutside_cons.mpr (by decide), by simp; decide⟩
      have stripped :
          stripChars (before ++ '[' :: text ++ ']' :: after) = '[' :: text ++ [']'] := by
        have cut : before ++ '[' :: text ++ ']' :: after = before ++ ('[' :: text ++ [']']) ++
            after := by simp
        rw [cut]
        exact stripChars_of_blanks blanks trimmed blanks'
      rw [parseChars_brackets stripped, ih]
      rfl

/-- Around what trimming leaves of a text there are only blanks. -/
theorem exists_blanks_of_stripChars (stripped : stripChars text = cs) :
    ∃ before after, Blanks before ∧ Blanks after ∧ text = before ++ cs ++ after := by
  subst stripped
  exact exists_blanks_stripChars text

/-- A text without wrappers that is no name spells nothing. -/
theorem not_spells_of_plain (trimmed : Trimmed cs) (plain : peel cs = .plain)
    (unnamed : (cs.isEmpty || cs.any endsName) = true) :
    ¬ Spells cs ref := by
  intro spells
  have read : parseChars cs = .ok ref := spells.parseChars_eq_ok
  rw [parseChars_eq, stripChars_eq_self_iff.mpr trimmed, plain] at read
  simp [unnamed] at read

/-- Reading gives a reference that the text spells, or complains of a part of the text that spells
nothing. -/
theorem gives_parseChars (text : List Char) :
    Gives (fun e => e.part.toList <:+: text ∧ ∀ ref, ¬ Spells e.part.toList ref) (Spells text)
      (parseChars text) := by
  fun_induction parseChars text with
  | case1 text trimmed inner peeled ih =>
      obtain ⟨before, after, blanks, blanks', split⟩ :=
        exists_blanks_of_stripChars (eq_of_peel_nonNull peeled)
      have within : inner <:+: text := ⟨before, '!' :: after, by simp [split]⟩
      refine Gives.imp (ih.map fun ref spells => ?_) (fun e ⟨part, nothing⟩ =>
        ⟨part.trans within, nothing⟩) fun _ spells => spells
      have marked : Spells (before ++ inner ++ '!' :: after) (nonNull ref) :=
        .mark blanks spells blanks'
      simpa [split] using marked
  | case2 text trimmed inner peeled ih =>
      obtain ⟨before, after, blanks, blanks', split⟩ :=
        exists_blanks_of_stripChars (eq_of_peel_list peeled)
      have within : inner <:+: text := ⟨before ++ ['['], ']' :: after, by simp [split]⟩
      refine Gives.imp (ih.map fun ref spells => ?_) (fun e ⟨part, nothing⟩ =>
        ⟨part.trans within, nothing⟩) fun _ spells => spells
      have bracketed : Spells (before ++ '[' :: inner ++ ']' :: after) (listOf ref) :=
        .brackets blanks spells blanks'
      simpa [split] using bracketed
  | case3 text trimmed plain unnamed =>
      obtain ⟨before, after, -, -, split⟩ := exists_blanks_stripChars text
      rw [Gives, String.toList_ofList]
      exact ⟨⟨before, after, split.symm⟩,
        fun _ => not_spells_of_plain (trimmed_stripChars text) plain unnamed⟩
  | case4 text trimmed plain named =>
      obtain ⟨before, after, blanks, blanks', split⟩ := exists_blanks_stripChars text
      simp only [Bool.or_eq_true, not_or, Bool.not_eq_true, List.isEmpty_eq_false_iff] at named
      rw [Gives, split]
      exact .name blanks ⟨named.1, named.2, trimmed_stripChars text⟩ blanks'

/-! ## Without blanks -/

/-- A text without the blanks outside a name in it. Around the name there are only blanks,
brackets and marks. -/
def IsBare (name text bare : List Char) : Prop :=
  ∃ before after, text = before ++ name ++ after ∧
    (∀ c ∈ before ++ after, isBlank c = true ∨ endsName c = true) ∧
    bare = before.filter (fun c => !isBlank c) ++ name ++ after.filter (fun c => !isBlank c)

/-- Blanks, brackets and marks may be put around what a text is without its blanks. -/
theorem IsBare.append {name text bare before after : List Char} (bareText : IsBare name text bare)
    (around : ∀ c ∈ before ++ after, isBlank c = true ∨ endsName c = true) :
    IsBare name (before ++ text ++ after)
      (before.filter (fun c => !isBlank c) ++ bare ++ after.filter fun c => !isBlank c) := by
  obtain ⟨front, back, rfl, outside, rfl⟩ := bareText
  refine ⟨before ++ front, back ++ after,
    by simp only [List.append_assoc], fun c member => ?_, ?_⟩
  · simp only [List.mem_append] at member around outside
    rcases member with (member | member) | member | member
    · exact around c (.inl member)
    · exact outside c (.inl member)
    · exact outside c (.inr member)
    · exact around c (.inr member)
  · simp only [List.filter_append, List.append_assoc]

theorem Spells.isName (spells : Spells text ref) : IsName ref.namedType.toList := by
  induction spells with
  | name _ isName _ => simpa using isName
  | mark _ _ _ ih => exact ih
  | brackets _ _ _ ih => exact ih

theorem Spells.wellFormed (spells : Spells text ref) : ref.WellFormed := by
  induction spells with
  | name _ isName _ => exact .named (by simpa using isName.nonempty)
  | mark _ _ _ ih => exact .wrap rfl ih
  | brackets _ _ _ ih => exact .wrap rfl ih

/-- What is written for a reference is what spells it, without the blanks. -/
theorem Spells.isBare (spells : Spells text ref) :
    IsBare ref.namedType.toList text ref.spelling := by
  induction spells with
  | @name before name after blanks isName blanks' =>
      refine ⟨before, after, by simp, fun c member => .inl ?_, ?_⟩
      · exact blanks.append blanks' c member
      · simp [blanks.filter_not, blanks'.filter_not]
  | @mark before text after ref blanks _ blanks' ih =>
      have around : ∀ c ∈ before ++ '!' :: after, isBlank c = true ∨ endsName c = true :=
        List.forall_mem_append.mpr ⟨fun c member => .inl (blanks c member),
          List.forall_mem_cons.mpr ⟨.inr rfl, fun c member => .inl (blanks' c member)⟩⟩
      have visible : isBlank '!' = false := by decide
      simpa [blanks.filter_not, blanks'.filter_not, visible] using ih.append around
  | @brackets before text after ref blanks _ blanks' ih =>
      have around :
          ∀ c ∈ (before ++ ['[']) ++ ']' :: after, isBlank c = true ∨ endsName c = true := by
        simp only [List.forall_mem_append, List.forall_mem_cons]
        exact ⟨⟨fun c member => .inl (blanks c member), .inr rfl, List.forall_mem_nil _⟩,
          .inr rfl, fun c member => .inl (blanks' c member)⟩
      have visible : isBlank '[' = false ∧ isBlank ']' = false := by decide
      simpa [blanks.filter_not, blanks'.filter_not, visible] using ih.append around

/-! ## References made of lists and marks -/

theorem Over.spells (isName : IsName name.toList) (built : Over name ref) :
    Spells ref.spelling ref := by
  induction built with
  | named => simpa using Spells.name .nil isName .nil
  | nonNull _ ih => exact .mark .nil ih .nil
  | listOf _ ih => exact .brackets .nil ih .nil

theorem Over.depth_eq (isName : IsName name.toList) (built : Over name ref) :
    ref.depth = 1 + (ref.spelling.count '[' + ref.spelling.count '!') := by
  induction built with
  | named =>
      have absent {c : Char} (ends : endsName c = true) : name.toList.count c = 0 :=
        List.count_eq_zero.mpr fun member =>
          Bool.false_ne_true ((isName.not_endsName member).symm.trans ends)
      rw [depth_named, spelling_named, absent rfl, absent rfl]
  | nonNull _ ih =>
      simp [ih]
      omega
  | listOf _ ih =>
      simp [ih]
      omega

/-- What is written for lists and marks around a name, in any order and any number, is read as the
same reference. Every bracket that is opened and every mark stands for one level of it. -/
theorem parse_canonical (isName : IsName name.toList) (built : Over name ref) :
    ∃ text, ref.canonical = .ok text ∧ parse text = .ok ref ∧
      ref.depth = 1 + (text.toList.count '[' + text.toList.count '!') := by
  have spells : Spells ref.spelling ref := built.spells isName
  refine ⟨String.ofList ref.spelling, spells.wellFormed.canonical_eq, ?_, ?_⟩
  · rw [parse, String.toList_ofList]
    exact spells.parseChars_eq_ok
  · rw [String.toList_ofList]
    exact built.depth_eq isName

/-- A list with two marks, in a list that may be absent, over a name with a tab in it. -/
theorem parse_canonical_tabbed :
    let ref := listOf (nonNull (nonNull (listOf (named "Book\tTitle"))))
    IsName "Book\tTitle".toList ∧ Over "Book\tTitle" ref ∧
      ∃ text, ref.canonical = .ok text ∧ parse text = .ok ref ∧
        ref.depth = 1 + (text.toList.count '[' + text.toList.count '!') := by
  intro ref
  have isName : IsName "Book\tTitle".toList := by decide
  have built : Over "Book\tTitle" ref := .listOf (.nonNull (.nonNull (.listOf .named)))
  exact ⟨isName, built, parse_canonical isName built⟩

/-! ## Reading -/

/-- A text is read as the reference that it spells. What is written for the reference is the text
without the blanks outside the name. A text that spells no reference is refused, and the complaint
quotes a part of it that spells none either. -/
theorem parse_eq_ok_iff_spells (text : String) :
    (∀ ref, parse text = .ok ref ↔ Spells text.toList ref) ∧
    (∀ ref, Spells text.toList ref →
      ∃ bare, ref.canonical = .ok bare ∧ IsName ref.namedType.toList ∧
        IsBare ref.namedType.toList text.toList bare.toList) ∧
    ((∀ ref, ¬ Spells text.toList ref) →
      ∃ e, parse text = .error e ∧ e.part.toList <:+: text.toList ∧
        ∀ ref, ¬ Spells e.part.toList ref) := by
  have gives := gives_parseChars text.toList
  refine ⟨fun ref => ⟨gives.ok, Spells.parseChars_eq_ok⟩, fun ref spells => ?_, fun nothing => ?_⟩
  · refine ⟨String.ofList ref.spelling, spells.wellFormed.canonical_eq, spells.isName, ?_⟩
    rw [String.toList_ofList]
    exact spells.isBare
  · cases read : parse text with
    | ok ref => exact absurd (gives.ok read) (nothing ref)
    | error e => exact ⟨e, rfl, gives.error read⟩

/-- A spelling with blanks around its parts, and a text that lacks the last bracket. -/
theorem parse_eq_ok_iff_spells_spaced :
    let ref := listOf (nonNull (named "Book"))
    Spells "\t[ Book\u00a0!] ".toList ref ∧ parse "\t[ Book\u00a0!] " = .ok ref ∧
      (∃ bare, ref.canonical = .ok bare ∧ IsName "Book".toList ∧
        IsBare "Book".toList "\t[ Book\u00a0!] ".toList bare.toList) ∧
      (∀ ref, ¬ Spells "[Book".toList ref) ∧ ∃ e, parse "[Book" = .error e := by
  intro ref
  have name : Spells "Book\u00a0".toList (named "Book") :=
    @Spells.name [] "Book".toList _ .nil (by decide) (.singleton (by decide))
  have mark : Spells " Book\u00a0!".toList (nonNull (named "Book")) :=
    @Spells.mark [' '] _ [] _ (.singleton (by decide)) name .nil
  have spells : Spells "\t[ Book\u00a0!] ".toList ref :=
    @Spells.brackets ['\t'] _ [' '] _ (.singleton (by decide)) mark (.singleton (by decide))
  have nothing : ∀ ref, ¬ Spells "[Book".toList ref :=
    fun _ => not_spells_of_plain (by decide) rfl rfl
  obtain ⟨read, written, -⟩ := parse_eq_ok_iff_spells "\t[ Book\u00a0!] "
  obtain ⟨-, -, refused⟩ := parse_eq_ok_iff_spells "[Book"
  obtain ⟨e, complaint, -⟩ := refused nothing
  exact ⟨spells, (read ref).mpr spells, written ref spells, nothing, e, complaint⟩

end SchemaBaseline.TypeRef
