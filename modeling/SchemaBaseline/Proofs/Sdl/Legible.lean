import SchemaBaseline.Proofs.Schema.RoundTrip
import SchemaBaseline.Proofs.Sdl.Shown
import SchemaBaseline.Proofs.Text.Legible

/-!
# A schema text tells the schema

The text of a simple schema can be read in one way only. Every part is legible (`Text.Legible`):
from its text and whatever comes after it one can tell what is shown of the part and where it
ends. This holds of names, which end before the first other character; of references, which end
before the first character that is neither part of a name nor a mark; of reasons, in which
whatever they are about every quote is escaped; and of all that is put together from these.

`Snapshot.sdl_eq_sdl_iff` is the conclusion: of snapshots with the same heading the texts agree
just if the same is shown of them.
-/

namespace SchemaBaseline.Sdl

open Text (Legible StartsOutside legible_run startsOutside_cons)

/-! ## Names and references -/

/-- A name ends where something comes that no name is made of. -/
theorem eq_of_name_append {name name' : String} {x y : List Char} (named : isName name = true)
    (named' : isName name' = true) (outside : StartsOutside isNameChar x)
    (outside' : StartsOutside isNameChar y) (same : name.toList ++ x = name'.toList ++ y) :
    name = name' ∧ x = y := by
  obtain ⟨letters, rest⟩ :=
    legible_run isNameChar (isNameChar_of_mem named)
      (isNameChar_of_mem named') outside outside' same
  exact ⟨String.toList_inj.mp letters, rest⟩

/-- A name does not begin like something that begins with another sort of character. -/
theorem name_ne {name : String} (named : isName name = true) {c : Char}
    (other : isNameChar c = false) (x y : List Char) :
    name.toList ++ x ≠ c :: y := by
  obtain ⟨d, rest, spelled, inside⟩ := exists_toList_eq_cons named
  rw [spelled]
  rintro same
  obtain ⟨rfl, -⟩ := List.cons.inj same
  rw [inside] at other
  cases other

/-- Whether a character may stand at the end of a reference. -/
def endsRef (c : Char) : Bool :=
  isNameChar c || c == ']' || c == '!'

/-- The characters of the marks behind the name. -/
def isClosing (c : Char) : Bool :=
  c == ']' || c == '!'

theorem isClosing_closingMark (kind : RefKind) : isClosing (TypeRef.closingMark kind) = true := by
  cases kind <;> rfl

theorem isNameChar_closingMark (kind : RefKind) :
    isNameChar (TypeRef.closingMark kind) = false := by
  cases kind <;> rfl

/-- What comes after a name in a spelling is no longer part of the name. -/
theorem startsOutside_closing {kinds : List RefKind} {x : List Char}
    (outside : StartsOutside endsRef x) :
    StartsOutside isNameChar (kinds.map TypeRef.closingMark ++ x) := by
  cases kinds with
  | nil => exact outside.mono fun c within => by simp [endsRef, within]
  | cons kind kinds => exact startsOutside_cons.mpr (isNameChar_closingMark kind)

/-- A reference to a type with a name of the language. -/
def RefFits (ref : TypeRef) : Prop :=
  ref.WellFormed ∧ isName ref.namedType = true

theorem legible_spelling :
    Legible TypeRef.spelling TypeRef.shown RefFits (StartsOutside endsRef) := by
  intro a b x y ⟨wf, named⟩ ⟨wf', named'⟩ outside outside' same
  rw [TypeRef.spelling_eq, TypeRef.spelling_eq] at same
  simp only [List.append_assoc] at same
  have brackets (kinds : List RefKind) : ∀ c ∈ TypeRef.openingMarks kinds, (c == '[') = true := by
    simp [TypeRef.openingMarks]
  have noBracket {name : String} (named : isName name = true) (z : List Char) :
      StartsOutside (· == '[') (name.toList ++ z) := by
    obtain ⟨c, rest, spelled, inside⟩ := exists_toList_eq_cons named
    rw [spelled, List.cons_append, startsOutside_cons, beq_eq_false_iff_ne]
    rintro rfl
    cases inside
  have closing (kinds : List RefKind) :
      ∀ c ∈ kinds.map TypeRef.closingMark, isClosing c = true := by
    simp [isClosing_closingMark]
  have noClosing {z : List Char} (outside : StartsOutside endsRef z) :
      StartsOutside isClosing z :=
    outside.mono fun c within => by simpa [isClosing, endsRef, or_assoc] using Or.inr within
  obtain ⟨-, same⟩ :=
    legible_run (· == '[') (brackets _) (brackets _) (noBracket named _) (noBracket named' _) same
  obtain ⟨name, same⟩ :=
    eq_of_name_append named named' (startsOutside_closing outside)
      (startsOutside_closing outside') same
  obtain ⟨marks, rest⟩ :=
    legible_run isClosing (closing _) (closing _) (noClosing outside) (noClosing outside') same
  have kinds : a.wrappers.reverse = b.wrappers.reverse :=
    TypeRef.map_closingMark_inj (fun kind member => wf.isWrapper_of_mem kind
      (List.mem_reverse.mp member))
      (fun kind member => wf'.isWrapper_of_mem kind (List.mem_reverse.mp member)) marks
  exact ⟨by rw [TypeRef.shown, TypeRef.shown, List.reverse_inj.mp kinds, name], rest⟩

/-! ## Deprecations -/

/-- A literal ends at its first quote that is not escaped. -/
theorem legible_literal :
    Legible (fun cs => escapeLiteral cs ++ ['"']) id (fun _ => True) fun _ => True := by
  have escaped : Legible (fun c => if c = '\\' || c = '"' then ['\\', c] else [c]) id
      (fun _ => True) fun _ => True := by
    intro c d x y _ _ _ _ same
    by_cases special : c = '\\' ∨ c = '"' <;> by_cases special' : d = '\\' ∨ d = '"' <;> grind
  have unended (c : Char) (x y : List Char) :
      (if c = '\\' || c = '"' then ['\\', c] else [c]) ++ x ≠ ['"'] ++ y := by
    by_cases special : c = '\\' ∨ c = '"' <;> simp_all
  have run :=
    escaped.items ['"'] (fun _ _ _ => trivial) (fun _ => trivial) fun c x y _ => unended c x y
  intro cs ds x y _ _ _ _ same
  obtain ⟨told, rest⟩ := run (fun _ _ => trivial) (fun _ _ => trivial) trivial trivial same
  exact ⟨by simpa using told, rest⟩

/-- Whether something is deprecated, and for what reason. -/
def shownDeprecation (d : Bool × Option String) : Bool × Option String :=
  (d.1, shownReason d.1 d.2)

theorem eq_of_shownDeprecation {b b' : Bool} {reason reason' : Option String}
    (same : shownDeprecation (b, reason) = shownDeprecation (b', reason')) :
    b = b' ∧ shownReason b reason = shownReason b' reason' :=
  Prod.mk.inj same

/-- The mark of a deprecation, which only something deprecated has, up to the end of the line. -/
def deprecationText (d : Bool × Option String) : List Char :=
  (deprecation d.1 d.2).toList ++ ['\n']

theorem deprecationText_false (reason : Option String) (x : List Char) :
    deprecationText (false, reason) ++ x = '\n' :: x := by
  simp [deprecationText, deprecation]

theorem deprecationText_true (reason : Option String) (x : List Char) :
    deprecationText (true, reason) ++ x =
      " @deprecated(reason: \"".toList ++
        (escapeLiteral (reason.getD "").toList ++ ['"'] ++ (")\n".toList ++ x)) := by
  simp [deprecationText, deprecation]

theorem legible_deprecation :
    Legible deprecationText shownDeprecation (fun _ => True) fun _ => True := by
  rintro ⟨deprecated, reason⟩ ⟨deprecated', reason'⟩ x y _ _ _ _ same
  cases deprecated <;> cases deprecated'
  · rw [deprecationText_false, deprecationText_false] at same
    exact ⟨rfl, (List.cons.inj same).2⟩
  · rw [deprecationText_false, deprecationText_true] at same
    simp at same
  · rw [deprecationText_false, deprecationText_true] at same
    simp at same
  · rw [deprecationText_true, deprecationText_true] at same
    obtain ⟨letters, rest⟩ :=
      legible_literal trivial trivial trivial trivial (List.append_cancel_left same)
    have told : reason.getD "" = reason'.getD "" := String.toList_inj.mp letters
    exact ⟨by simp [shownDeprecation, shownReason, told], List.append_cancel_left rest⟩

/-- A mark of deprecation, or the end of the line, cannot be taken for a part of a name or a
reference. -/
theorem startsOutside_deprecationText {inside : Char → Bool} (blank : inside ' ' = false)
    (newline : inside '\n' = false) (d : Bool × Option String) (x : List Char) :
    StartsOutside inside (deprecationText d ++ x) := by
  obtain ⟨_ | _, reason⟩ := d
  · rw [deprecationText_false]
    exact startsOutside_cons.mpr newline
  · rw [deprecationText_true]
    exact startsOutside_cons.mpr blank

/-! ## Arguments and fields -/

/-- A text begins outside a class if its first character does. -/
theorem startsOutside_text {inside : Char → Bool} {text : String} {c : Char} {rest : List Char}
    (begins : text.toList = c :: rest) (outside : inside c = false) (x : List Char) :
    StartsOutside inside (text.toList ++ x) := by
  rw [begins]
  exact startsOutside_cons.mpr outside

/-- A simple argument or input field with a well-formed type. -/
def InputFits (v : InputValue) : Prop :=
  v.Simple ∧ v.type.WellFormed

theorem inputValueText_eq {v : InputValue} (simple : v.Simple) (x : List Char) :
    inputValueText v ++ x = v.name.toList ++ (": ".toList ++ (v.type.spelling ++ x)) := by
  obtain ⟨-, -, -, noDefault⟩ := simple
  rw [inputValueText, defaultText_eq_nil noDefault, List.append_nil, List.append_assoc,
    List.append_assoc]

theorem legible_inputValue :
    Legible inputValueText InputValue.shown InputFits (StartsOutside endsRef) := by
  intro v w x y ⟨simple, wf⟩ ⟨simple', wf'⟩ outside outside' same
  rw [inputValueText_eq simple, inputValueText_eq simple'] at same
  obtain ⟨named, typeNamed, -⟩ := simple
  obtain ⟨named', typeNamed', -⟩ := simple'
  obtain ⟨name, same⟩ :=
    eq_of_name_append named named' (startsOutside_text rfl rfl _)
      (startsOutside_text rfl rfl _) same
  obtain ⟨type, rest⟩ :=
    legible_spelling ⟨wf, typeNamed⟩ ⟨wf', typeNamed'⟩ outside outside'
      (List.append_cancel_left same)
  exact ⟨by rw [InputValue.shown, InputValue.shown, name, type], rest⟩

theorem argsText_cons (arg : InputValue) (args : List InputValue) (x : List Char) :
    argsText (arg :: args) ++ ": ".toList ++ x =
      "(".toList ++ (", ".toList.intercalate ((arg :: args).map inputValueText) ++ ")".toList ++
        (": ".toList ++ x)) := by
  simp [argsText]

/-- Arguments end at the colon in front of the type of their field. -/
theorem legible_args :
    Legible (fun args => argsText args ++ ": ".toList) (List.map InputValue.shown)
      (fun args => ∀ arg ∈ args, InputFits arg)
      fun _ => True := by
  have begun (v : InputValue) (x y : List Char) (fits : InputFits v) :
      inputValueText v ++ x ≠ ")".toList ++ y := by
    rw [inputValueText_eq fits.1]
    exact name_ne fits.1.1 (c := ')') rfl _ _
  have list := legible_inputValue.joined ", ".toList ")".toList (startsOutside_text rfl rfl)
    (startsOutside_text rfl rfl) (by simp) begun
  intro args others x y fit fit' _ _ same
  cases args with
  | nil =>
    cases others with
    | nil => exact ⟨rfl, List.append_cancel_left same⟩
    | cons w others =>
      rw [argsText_cons] at same
      simp [argsText] at same
  | cons v args =>
    rw [argsText_cons] at same
    cases others with
    | nil => simp [argsText] at same
    | cons w others =>
      rw [argsText_cons] at same
      obtain ⟨told, rest⟩ := list fit fit' trivial trivial (List.append_cancel_left same)
      exact ⟨told, List.append_cancel_left rest⟩

/-- A simple field with well-formed types. -/
def FieldFits (field : FieldDef) : Prop :=
  field.Simple ∧ field.WellFormed

theorem FieldFits.args {field : FieldDef} (fits : FieldFits field) :
    ∀ arg ∈ field.args, InputFits arg :=
  fun arg member => ⟨fits.1.2.2.2 arg member, fits.2.2 arg member⟩

theorem fieldText_eq {field : FieldDef} (simple : field.Simple) (x : List Char) :
    fieldText field ++ x = "  ".toList ++
      (field.name.toList ++ (argsText field.args ++ ": ".toList ++
      (field.type.spelling ++ (deprecationText (field.isDeprecated, field.deprecationReason) ++
        x)))) := by
  obtain ⟨-, -, undescribed, -⟩ := simple
  rw [fieldText, descriptionLines_eq_nil undescribed, deprecationText]
  simp only [linesText_nil, List.nil_append, List.append_assoc]

theorem legible_field : Legible fieldText FieldDef.shown FieldFits fun _ => True := by
  intro f g x y fits fits' _ _ same
  rw [fieldText_eq fits.1, fieldText_eq fits'.1] at same
  have afterName (args : List InputValue) (z : List Char) :
      StartsOutside isNameChar (argsText args ++ ": ".toList ++ z) := by
    cases args with
    | nil => exact startsOutside_text rfl rfl z
    | cons arg args =>
      rw [argsText_cons]
      exact startsOutside_text rfl rfl _
  obtain ⟨name, same⟩ :=
    eq_of_name_append fits.1.1 fits'.1.1 (afterName _ _) (afterName _ _)
      (List.append_cancel_left same)
  obtain ⟨args, same⟩ := legible_args fits.args fits'.args trivial trivial same
  obtain ⟨type, same⟩ := legible_spelling ⟨fits.2.1, fits.1.2.1⟩ ⟨fits'.2.1, fits'.1.2.1⟩
    (startsOutside_deprecationText rfl rfl _ _) (startsOutside_deprecationText rfl rfl _ _) same
  obtain ⟨deprecated, rest⟩ := legible_deprecation trivial trivial trivial trivial same
  obtain ⟨isDeprecated, reason⟩ := eq_of_shownDeprecation deprecated
  exact ⟨by rw [FieldDef.shown, FieldDef.shown, name, args, type, reason, isDeprecated], rest⟩

theorem enumValueText_eq {value : EnumValue} (simple : value.Simple) (x : List Char) :
    enumValueText value ++ x =
      "  ".toList ++ (value.name.toList ++
        (deprecationText (value.isDeprecated, value.deprecationReason) ++ x)) := by
  rw [enumValueText, descriptionLines_eq_nil simple.2, deprecationText]
  simp only [linesText_nil, List.nil_append, List.append_assoc]

theorem legible_enumValue :
    Legible enumValueText EnumValue.shown EnumValue.Simple fun _ => True := by
  intro v w x y simple simple' _ _ same
  rw [enumValueText_eq simple, enumValueText_eq simple'] at same
  obtain ⟨name, same⟩ :=
    eq_of_name_append simple.1 simple'.1 (startsOutside_deprecationText rfl rfl _ _)
      (startsOutside_deprecationText rfl rfl _ _) (List.append_cancel_left same)
  obtain ⟨deprecated, rest⟩ := legible_deprecation trivial trivial trivial trivial same
  obtain ⟨isDeprecated, reason⟩ := eq_of_shownDeprecation deprecated
  exact ⟨by rw [EnumValue.shown, EnumValue.shown, name, reason, isDeprecated], rest⟩

theorem inputFieldText_eq {field : InputValue} (simple : field.Simple) (x : List Char) :
    inputFieldText field ++ x = "  ".toList ++ (inputValueText field ++ ("\n".toList ++ x)) := by
  obtain ⟨-, -, undescribed, -⟩ := simple
  rw [inputFieldText, descriptionLines_eq_nil undescribed]
  simp

theorem legible_inputField : Legible inputFieldText InputValue.shown InputFits fun _ => True := by
  intro v w x y fits fits' _ _ same
  rw [inputFieldText_eq fits.1, inputFieldText_eq fits'.1] at same
  obtain ⟨told, rest⟩ :=
    legible_inputValue fits fits' (startsOutside_text rfl rfl x) (startsOutside_text rfl rfl y)
      (List.append_cancel_left same)
  exact ⟨told, List.append_cancel_left rest⟩

/-! ## Types -/

/-- Parts that are indented, up to the brace that closes their block. -/
theorem legible_parts {α β : Type} {text : α → List Char} {shown : α → β} {fits : α → Prop}
    (each : Legible text shown fits fun _ => True)
    (indented : ∀ a x, fits a → ∃ z, text a ++ x = ' ' :: z) :
    Legible (fun parts => parts.flatMap text ++ "\x7d\n".toList) (List.map shown)
      (fun parts => ∀ part ∈ parts, fits part)
      fun _ => True := by
  refine each.items _ (fun _ _ _ => trivial) (fun _ => trivial) fun a x y fit same => ?_
  obtain ⟨z, begins⟩ := indented a x fit
  rw [begins] at same
  simp at same

theorem blockText_append {α : Type} (text : α → List Char) (parts : List α) (x : List Char) :
    blockText text parts ++ x = " \x7b\n".toList ++
      (parts.flatMap text ++ "\x7d\n".toList ++ x) := by
  rw [blockText, List.append_assoc, List.append_assoc, List.append_assoc]

theorem legible_block {α β : Type} {text : α → List Char} {shown : α → β} {fits : α → Prop}
    (each : Legible text shown fits fun _ => True)
    (indented : ∀ a x, fits a → ∃ z, text a ++ x = ' ' :: z) :
    Legible (blockText text) (List.map shown) (fun parts => ∀ part ∈ parts, fits part) fun _ =>
      True := by
  intro parts others x y fit fit' _ _ same
  rw [blockText_append, blockText_append] at same
  exact legible_parts each indented fit fit' trivial trivial (List.append_cancel_left same)

/-- Names of interfaces or members, up to something that can neither belong to a name nor begin a
separator. -/
theorem legible_names (separator stop : String) {c d : Char} {tail rest : List Char}
    (separates : separator.toList = c :: tail) (stops : stop.toList = d :: rest)
    (outside : isNameChar c = false) (outside' : isNameChar d = false)
    (apart : ∀ x y, separator.toList ++ x ≠ stop.toList ++ y) :
    Legible (fun refs => namesText separator refs ++ stop.toList) (List.map TypeRef.shownName)
      (fun refs => ∀ ref ∈ refs, isName ref.namedType = true) fun _ => True := by
  have each : Legible (fun ref : TypeRef => ref.namedType.toList) TypeRef.shownName
      (fun ref => isName ref.namedType = true) (StartsOutside isNameChar) := by
    intro a b x y named named' follows follows' same
    obtain ⟨name, rest⟩ := eq_of_name_append named named' follows follows' same
    exact ⟨congrArg TypeRef.named name, rest⟩
  refine each.joined _ _ (startsOutside_text separates outside)
    (startsOutside_text stops outside') apart fun ref x y named => ?_
  rw [stops]
  exact name_ne named outside' _ _

/-- Interfaces end at the brace that opens the block. -/
theorem legible_implements :
    Legible (fun refs => implementsText refs ++ " \x7b\n".toList) (List.map TypeRef.shownName)
      (fun refs => ∀ ref ∈ refs, isName ref.namedType = true) fun _ => True := by
  have names := legible_names " & " " \x7b\n" rfl rfl rfl rfl (by simp)
  have some (ref : TypeRef) (refs : List TypeRef) (z : List Char) :
      implementsText (ref :: refs) ++ " \x7b\n".toList ++ z =
      " implements ".toList ++ (namesText " & " (ref :: refs) ++ " \x7b\n".toList ++ z) := by
    simp [implementsText]
  intro refs others x y named named' _ _ same
  cases refs with
  | nil =>
    cases others with
    | nil => exact ⟨rfl, List.append_cancel_left same⟩
    | cons b others =>
      rw [some] at same
      simp [implementsText] at same
  | cons a refs =>
    rw [some] at same
    cases others with
    | nil => simp [implementsText] at same
    | cons b others =>
      rw [some] at same
      exact names named named' trivial trivial (List.append_cancel_left same)

theorem legible_keyword :
    Legible (fun kind => (keyword kind).toList) id (fun _ => True) fun _ => True := by
  intro kind kind' x y _ _ _ _ same
  cases kind <;> cases kind' <;> simp_all [keyword]

/-- A simple type with well-formed references. -/
def TypeFits (type : NamedType) : Prop :=
  type.Simple ∧ type.WellFormed

namespace TypeFits

variable {type : NamedType}

theorem fields (fits : TypeFits type) : ∀ field ∈ type.fields, FieldFits field :=
  fun field member => ⟨fits.1.fields field member, fits.2.field member⟩

theorem inputFields (fits : TypeFits type) : ∀ field ∈ type.inputFields, InputFits field :=
  fun field member => ⟨fits.1.inputFields field member, fits.2.inputField member⟩

end TypeFits

/-- Of two types of one kind and name, what comes after the name tells all that is shown. -/
theorem shown_eq_of_bodyText {a b : NamedType} {x y : List Char} (fits : TypeFits a)
    (fits' : TypeFits b) (kind : a.kind = b.kind) (name : a.name = b.name)
    (same : bodyText a ++ x = bodyText b ++ y) : a.shown = b.shown ∧ x = y := by
  have indented (f : FieldDef) (z : List Char) (fits : FieldFits f) :
      ∃ rest, fieldText f ++ z = ' ' :: rest :=
    ⟨_, fieldText_eq fits.1 z⟩
  unfold bodyText at same
  unfold NamedType.shown
  rw [kind] at same ⊢
  cases own : b.kind with
  | object =>
    simp only [own, List.append_assoc, blockText_append] at same ⊢
    rw [← List.append_assoc (implementsText a.interfaces),
      ← List.append_assoc (implementsText b.interfaces)] at same
    obtain ⟨interfaces, same⟩ :=
      legible_implements fits.1.interfaces fits'.1.interfaces trivial trivial same
    rw [← List.append_assoc, ← List.append_assoc] at same
    obtain ⟨fields, rest⟩ :=
      legible_parts legible_field indented fits.fields fits'.fields trivial trivial same
    exact ⟨by rw [name, interfaces, fields], rest⟩
  | interface =>
    simp only [own] at same ⊢
    obtain ⟨fields, rest⟩ :=
      legible_block legible_field indented fits.fields fits'.fields trivial trivial same
    exact ⟨by rw [name, fields], rest⟩
  | enum =>
    simp only [own] at same ⊢
    obtain ⟨values, rest⟩ :=
      legible_block legible_enumValue
        (fun v x simple => ⟨_, enumValueText_eq simple x⟩) fits.1.enumValues fits'.1.enumValues
        trivial trivial same
    exact ⟨by rw [name, values], rest⟩
  | inputObject =>
    simp only [own] at same ⊢
    obtain ⟨fields, rest⟩ :=
      legible_block legible_inputField
        (fun v x fits => ⟨_, inputFieldText_eq fits.1 x⟩) fits.inputFields fits'.inputFields
        trivial trivial same
    exact ⟨by rw [name, fields], rest⟩
  | scalar =>
    simp only [own] at same ⊢
    exact ⟨by rw [name], List.append_cancel_left same⟩
  | union =>
    have names := legible_names " | " "\n" rfl rfl rfl rfl (by simp)
    simp only [own, List.append_assoc] at same ⊢
    have members := List.append_cancel_left same
    rw [← List.append_assoc, ← List.append_assoc] at members
    obtain ⟨members, rest⟩ :=
      names fits.1.possibleTypes fits'.1.possibleTypes trivial trivial members
    exact ⟨by rw [name, members], rest⟩

theorem typeText_eq {type : NamedType} (simple : type.Simple) (x : List Char) :
    typeText type ++ x = (keyword type.kind).toList ++
      (type.name.toList ++ (bodyText type ++ '\n' :: x)) := by
  rw [typeText, descriptionLines_eq_nil simple.description, String.toList_append]
  simp only [linesText_nil, List.nil_append, List.append_assoc, List.singleton_append]

/-- The body of a declaration does not go on with the name. -/
theorem startsOutside_bodyText (type : NamedType) (x : List Char) :
    StartsOutside isNameChar (bodyText type ++ x) := by
  have block {α : Type} (text : α → List Char) (parts : List α) (z : List Char) :
      StartsOutside isNameChar (blockText text parts ++ z) := by
    rw [blockText_append]
    exact startsOutside_text rfl rfl _
  unfold bodyText
  cases type.kind with
  | object =>
    cases type.interfaces with
    | nil => exact block _ _ x
    | cons ref refs =>
      simp only [implementsText, List.isEmpty_cons, Bool.false_eq_true, if_false,
        List.append_assoc]
      exact startsOutside_text rfl rfl _
  | interface => exact block _ _ x
  | enum => exact block _ _ x
  | inputObject => exact block _ _ x
  | scalar => exact startsOutside_cons.mpr rfl
  | union =>
    simp only [List.append_assoc]
    exact startsOutside_text rfl rfl _

theorem legible_type : Legible typeText NamedType.shown TypeFits fun _ => True := by
  intro a b x y fits fits' _ _ same
  rw [typeText_eq fits.1, typeText_eq fits'.1] at same
  obtain ⟨kind, same⟩ := legible_keyword trivial trivial trivial trivial same
  obtain ⟨name, same⟩ :=
    eq_of_name_append fits.1.name fits'.1.name (startsOutside_bodyText a _)
      (startsOutside_bodyText b _) same
  obtain ⟨told, rest⟩ := shown_eq_of_bodyText fits fits' kind name same
  exact ⟨told, (List.cons.inj rest).2⟩

/-- Types end where the block of the root operation types begins. -/
theorem legible_types :
    Legible (fun types => types.flatMap typeText ++ "schema \x7b\n".toList)
      (List.map NamedType.shown)
      (fun types => ∀ type ∈ types, TypeFits type) fun _ => True := by
  refine legible_type.items _ (fun _ _ _ => trivial) (fun _ => trivial)
    fun type x y fits same => ?_
  rw [typeText_eq fits.1] at same
  cases kind : type.kind <;> simp [kind, keyword] at same

/-! ## Root operation types -/

/-- What a root operation type has in front of its name. -/
def rootLabel (operation : String) : List Char :=
  ("  " ++ operation ++ ": ").toList

theorem linesText_rootLine_some (operation : String) {name : String} (named : isName name = true)
    (x : List Char) :
    linesText (rootLine operation (some name)) ++ x =
      rootLabel operation ++ (name.toList ++ '\n' :: x) := by
  have nonempty : name ≠ "" := by
    rintro rfl
    cases named
  simp [rootLine, rootLabel, nonempty]

/-- Whether or not there is a root operation type is told by what comes where its line would
be. -/
theorem legible_root (operation : String) :
    Legible (fun name => linesText (rootLine operation name)) id (fun name => ∀ n, name = some n →
      isName n = true)
      (fun x => ¬ rootLabel operation <+: x) := by
  intro name name' x y named named' other other' same
  cases name with
  | none =>
    cases name' with
    | none => exact ⟨rfl, same⟩
    | some n' =>
      rw [linesText_rootLine_some operation (named' n' rfl)] at same
      exact absurd ⟨_, same.symm⟩ other
  | some n =>
    rw [linesText_rootLine_some operation (named n rfl)] at same
    cases name' with
    | none => exact absurd ⟨_, same⟩ other'
    | some n' =>
      rw [linesText_rootLine_some operation (named' n' rfl)] at same
      obtain ⟨told, rest⟩ :=
        eq_of_name_append (named n rfl) (named' n' rfl) (startsOutside_cons.mpr rfl)
          (startsOutside_cons.mpr rfl) (List.append_cancel_left same)
      exact ⟨congrArg some told, (List.cons.inj rest).2⟩

/-- A line of a root operation type is not taken for one of another operation. -/
theorem not_isPrefixOf_rootLine {operation other : String} {name : Option String}
    (named : ∀ n, name = some n → isName n = true)
    (apart : ∀ x, ¬ rootLabel operation <+: rootLabel other ++ x) {x : List Char}
    (later : ¬ rootLabel operation <+: x) :
    ¬ rootLabel operation <+: linesText (rootLine other name) ++ x := by
  cases name with
  | none => exact later
  | some n =>
    rw [linesText_rootLine_some other (named n rfl)]
    exact apart _

theorem linesText_rootLines (schema : Schema) :
    linesText (rootLines schema) = "schema \x7b\n".toList ++
      (linesText (rootLine "query" schema.queryType) ++
      (linesText (rootLine "mutation" schema.mutationType) ++
        (linesText (rootLine "subscription" schema.subscriptionType) ++ "\x7d\n".toList))) := by
  simp [rootLines]

/-- The lines of the root operation types tell which there are. -/
theorem roots_eq_of_linesText {a b : Schema} (simple : a.Simple) (simple' : b.Simple)
    (same : linesText (rootLine "query" a.queryType) ++
      (linesText (rootLine "mutation" a.mutationType) ++
        (linesText (rootLine "subscription" a.subscriptionType) ++ "\x7d\n".toList)) =
      linesText (rootLine "query" b.queryType) ++
        (linesText (rootLine "mutation" b.mutationType) ++
        (linesText (rootLine "subscription" b.subscriptionType) ++ "\x7d\n".toList))) :
    a.queryType = b.queryType ∧ a.mutationType = b.mutationType ∧
      a.subscriptionType = b.subscriptionType := by
  have ended (operation : String) : ¬ rootLabel operation <+: "\x7d\n".toList := by
    simp [rootLabel]
  have afterMutation {schema : Schema} (simple : schema.Simple) :
      ¬ rootLabel "mutation" <+: linesText (rootLine "subscription" schema.subscriptionType) ++
      "\x7d\n".toList :=
    not_isPrefixOf_rootLine simple.subscriptionType (by simp [rootLabel]) (ended _)
  have afterQuery {schema : Schema} (simple : schema.Simple) :
      ¬ rootLabel "query" <+: linesText (rootLine "mutation" schema.mutationType) ++
        (linesText (rootLine "subscription" schema.subscriptionType) ++ "\x7d\n".toList) :=
    not_isPrefixOf_rootLine simple.mutationType (by simp [rootLabel])
      (not_isPrefixOf_rootLine simple.subscriptionType (by simp [rootLabel]) (ended _))
  obtain ⟨query, same⟩ :=
    legible_root "query" simple.queryType simple'.queryType (afterQuery simple)
      (afterQuery simple') same
  obtain ⟨mutation, same⟩ :=
    legible_root "mutation" simple.mutationType simple'.mutationType (afterMutation simple)
      (afterMutation simple') same
  obtain ⟨subscription, -⟩ :=
    legible_root "subscription" simple.subscriptionType simple'.subscriptionType (ended _)
      (ended _) same
  exact ⟨query, mutation, subscription⟩

end SchemaBaseline.Sdl

namespace SchemaBaseline

open Sdl

/-- The types of a loaded simple schema that are printed. -/
theorem Snapshot.Loaded.typeFits {s : Snapshot} (loaded : s.Loaded) (simple : s.schema.Simple) :
    ∀ type ∈ s.schema.types.filter fun type => !type.isInternal, TypeFits type := by
  intro type member
  have stored := (List.mem_filter.mp member).1
  exact ⟨simple.types type stored, fun ref refMember =>
    loaded.sound.refs_wellFormed ref (List.mem_flatMap.mpr ⟨type, stored, refMember⟩)⟩

/-- Two loaded simple snapshots of one source, with one information, fetched at one time, have the
same text just if the same is shown of their schemas. -/
theorem Snapshot.sdl_eq_sdl_iff {s t : Snapshot} (loaded : s.Loaded) (loaded' : t.Loaded)
    (simple : s.schema.Simple) (simple' : t.schema.Simple) (source : s.source = t.source)
    (info : s.info = t.info) (time : s.fetchedAt = t.fetchedAt) :
    s.sdl = t.sdl ↔ s.schema.shown = t.schema.shown := by
  have heading : headerLines s = headerLines t := by simp only [headerLines, source, info, time]
  rw [sdl_eq loaded.sound.refs_wellFormed, sdl_eq loaded'.sound.refs_wellFormed, Except.ok.injEq,
    String.ofList_inj]
  constructor
  · intro same
    rw [sdlText, sdlText, heading, List.append_assoc, List.append_assoc, linesText_rootLines,
      linesText_rootLines, ← List.append_assoc (List.flatMap _ _),
      ← List.append_assoc (List.flatMap _ _)] at same
    obtain ⟨types, same⟩ :=
      legible_types (loaded.typeFits simple) (loaded'.typeFits simple') trivial trivial
        (List.append_cancel_left same)
    obtain ⟨query, mutation, subscription⟩ := roots_eq_of_linesText simple simple' same
    rw [Schema.shown, Schema.shown, types, query, mutation, subscription]
  · intro same
    rw [sdlText_eq_shown simple, sdlText_eq_shown simple', heading, same]

/-- No reason is written as an empty one, and the label of a wrapper and an internal type are not
written at all; a reason that reads like the end of its type and a further one is told apart from
both. -/
theorem Snapshot.sdl_eq_sdl_iff_reasons :
    let books (label reason : Option String) : NamedType :=
      ⟨.object, "Query", none, [⟨"books", none, [⟨"first", none, .named "Int", none⟩],
        .wrap .list label (.named "Book"), true, reason⟩], [], [], [], []⟩
    let hidden : NamedType := ⟨.scalar, "__Hidden", none, [], [], [], [], []⟩
    let snapshot (types : List NamedType) : Snapshot :=
      ⟨⟨some "Query", none, none, types⟩, default, "", ""⟩
    let s := snapshot [books none none]
    let t := snapshot [hidden, books (some "Shelf") (some "")]
    let u := snapshot [books none (some "\")\n\x7d\n\nscalar Date\n")]
    (s.Loaded ∧ t.Loaded ∧ u.Loaded) ∧ (s.schema.Simple ∧ t.schema.Simple ∧ u.schema.Simple) ∧
      s.sdl = t.sdl ∧ s.sdl ≠ u.sdl := by
  intro books hidden snapshot s t u
  have loadedS : s.Loaded := Snapshot.loaded_of_sound (by decide) (by decide)
  have loadedT : t.Loaded := Snapshot.loaded_of_sound (by decide) (by decide)
  have loadedU : u.Loaded := Snapshot.loaded_of_sound (by decide) (by decide)
  have simpleBooks (label reason : Option String) : (books label reason).Simple := by
    constructor <;> simp [books, FieldDef.Simple, InputValue.Simple, TypeRef.namedType] <;> decide
  have simpleHidden : hidden.Simple := by constructor <;> decide
  have simple {types : List NamedType} (each : ∀ type ∈ types, type.Simple) :
      (snapshot types).schema.Simple :=
    ⟨fun name same => Option.some.inj same ▸ by decide,
      fun name same => (Option.some_ne_none name same.symm).elim,
      fun name same => (Option.some_ne_none name same.symm).elim, each⟩
  have simpleS : s.schema.Simple := simple (by simpa using simpleBooks _ _)
  have simpleT : t.schema.Simple := simple (by simpa using ⟨simpleHidden, simpleBooks _ _⟩)
  have simpleU : u.schema.Simple := simple (by simpa using simpleBooks _ _)
  refine ⟨⟨loadedS, loadedT, loadedU⟩, ⟨simpleS, simpleT, simpleU⟩, ?_, fun same => ?_⟩
  · exact (sdl_eq_sdl_iff loadedS loadedT simpleS simpleT rfl rfl rfl).mpr (by decide)
  · exact absurd ((sdl_eq_sdl_iff loadedS loadedU simpleS simpleU rfl rfl rfl).mp same)
      (by decide)

end SchemaBaseline
