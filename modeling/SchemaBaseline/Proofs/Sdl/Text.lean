import SchemaBaseline.Proofs.Compat.Compatible
import SchemaBaseline.Proofs.Schema.Spelling
import SchemaBaseline.Sdl.Render

/-!
# Schema texts in characters

Printing goes by lines and may meet a malformed reference at each of them. Where all references
are well formed it never does, and then the text of a schema is put together from the texts of its
parts alone: `Snapshot.sdl_eq` gives it as one list of characters, with `fieldText`, `typeText`
and the like for what each part adds.
-/

namespace SchemaBaseline.Sdl

open TypeRef (Malformed)

variable {α β : Type}

/-! ## Lines -/

/-- Lines one after the other, each with a line feed at its end. -/
def linesText (lines : List String) : List Char :=
  lines.flatMap fun line => line.toList ++ ['\n']

@[simp]
theorem linesText_nil : linesText [] = [] :=
  rfl

@[simp]
theorem linesText_cons (line : String) (lines : List String) :
    linesText (line :: lines) = line.toList ++ '\n' :: linesText lines := by
  simp [linesText]

@[simp]
theorem linesText_append (first second : List String) :
    linesText (first ++ second) = linesText first ++ linesText second :=
  List.flatMap_append

theorem linesText_flatten (parts : List (List String)) :
    linesText parts.flatten = parts.flatMap linesText := by
  induction parts with
  | nil => rfl
  | cons first rest ih => rw [List.flatten_cons, linesText_append, ih, List.flatMap_cons]

/-- Joined lines, with a line feed after the last one. -/
theorem toList_joined {lines : List String} (nonempty : lines ≠ []) :
    (joined "\n" lines ++ "\n").toList = linesText lines := by
  induction lines with
  | nil => exact absurd rfl nonempty
  | cons line rest ih =>
    cases rest with
    | nil => simp [joined]
    | cons next rest =>
      have later := ih (List.cons_ne_nil next rest)
      simp only [joined, String.toList_append, String.intercalate_cons_cons, linesText_cons line]
        at later ⊢
      rw [List.append_assoc, later]
      simp

/-! ## Prints -/

/-- Printing comes to lines with this text. -/
def Prints (r : Lines) (text : List Char) : Prop :=
  ∃ lines, r = .ok lines ∧ linesText lines = text

theorem Prints.congr {r : Lines} {text text' : List Char} (prints : Prints r text)
    (same : text = text') : Prints r text' :=
  same ▸ prints

/-- What is printed part by part has the texts of the parts. -/
theorem prints_each {print : α → Lines} {text : α → List Char} {parts : List α}
    (each : ∀ part ∈ parts, Prints (print part) (text part)) :
    ∃ lines, Sdl.each print parts = .ok lines ∧ lines.flatMap linesText = parts.flatMap text := by
  induction parts with
  | nil => exact ⟨[], rfl, rfl⟩
  | cons part rest ih =>
    obtain ⟨first, firstOk, firstText⟩ := each part List.mem_cons_self
    obtain ⟨others, othersOk, othersText⟩ :=
      ih fun other member => each other (List.mem_cons_of_mem part member)
    refine ⟨first :: others, ?_, ?_⟩
    · rw [Sdl.each, firstOk, othersOk]
      rfl
    · rw [List.flatMap_cons, List.flatMap_cons, firstText, othersText]

theorem each_eq_map {print : α → Except Malformed β} {value : α → β} {parts : List α}
    (each : ∀ part ∈ parts, print part = .ok (value part)) :
    Sdl.each print parts = .ok (parts.map value) := by
  induction parts with
  | nil => rfl
  | cons part rest ih =>
    rw [Sdl.each, each part List.mem_cons_self, ih fun other member => each other
      (List.mem_cons_of_mem part member)]
    rfl

/-! ## Fields -/

/-- The text of a default, which an empty one has none of. -/
def defaultText (value : Option String) : List Char :=
  if (value.getD "").isEmpty then [] else " = ".toList ++ (value.getD "").toList

def inputValueText (v : InputValue) : List Char :=
  v.name.toList ++ ": ".toList ++ v.type.spelling ++ defaultText v.defaultValue

def argsText (args : List InputValue) : List Char :=
  if args.isEmpty then []
  else "(".toList ++ ", ".toList.intercalate (args.map inputValueText) ++ ")".toList

def fieldText (field : FieldDef) : List Char :=
  linesText (descriptionLines "  " field.description) ++ "  ".toList ++ field.name.toList ++
    argsText field.args ++
    ": ".toList ++ field.type.spelling ++
      (deprecation field.isDeprecated field.deprecationReason).toList ++ ['\n']

def enumValueText (value : EnumValue) : List Char :=
  linesText (descriptionLines "  " value.description) ++ "  ".toList ++ value.name.toList ++
    (deprecation value.isDeprecated value.deprecationReason).toList ++ ['\n']

def inputFieldText (field : InputValue) : List Char :=
  linesText (descriptionLines "  " field.description) ++ "  ".toList ++
    inputValueText field ++ ['\n']

theorem inputValue_eq {v : InputValue} (wf : v.type.WellFormed) :
    inputValue v = .ok (String.ofList (inputValueText v)) := by
  rw [inputValue, wf.canonical_eq]
  refine congrArg Except.ok (String.toList_inj.mp ?_)
  simp only [inputValueText, defaultText, String.toList_append, String.toList_ofList]
  split <;> simp

theorem prints_fieldLines {field : FieldDef} (wf : field.WellFormed) :
    Prints (fieldLines field) (fieldText field) := by
  have args : Sdl.each inputValue field.args =
      .ok (field.args.map fun arg => String.ofList (inputValueText arg)) :=
    each_eq_map fun arg member => inputValue_eq (wf.2 arg member)
  rw [fieldLines, args, wf.1.canonical_eq]
  refine ⟨_, rfl, ?_⟩
  simp only [fieldText, argsText, joined, linesText_append, linesText_cons, linesText_nil,
    String.toList_append, String.toList_ofList, apply_ite String.toList,
    String.toList_intercalate, List.map_map, List.append_assoc]
  simp [Function.comp_def]

theorem linesText_enumValueLines (value : EnumValue) :
    linesText (enumValueLines value) = enumValueText value := by
  simp [enumValueLines, enumValueText]

theorem prints_inputFieldLines {field : InputValue} (wf : field.type.WellFormed) :
    Prints (inputFieldLines field) (inputFieldText field) := by
  rw [inputFieldLines, inputValue_eq wf]
  refine ⟨_, rfl, ?_⟩
  simp [inputFieldText]

/-! ## Types -/

/-- The word that a declaration begins with. -/
def keyword : TypeKind → String
  | .object => "type "
  | .interface => "interface "
  | .enum => "enum "
  | .inputObject => "input "
  | .scalar => "scalar "
  | .union => "union "

/-- Names with a separator between them. -/
def namesText (separator : String) (refs : List TypeRef) : List Char :=
  separator.toList.intercalate (refs.map fun ref => ref.namedType.toList)

def implementsText (interfaces : List TypeRef) : List Char :=
  if interfaces.isEmpty then [] else " implements ".toList ++ namesText " & " interfaces

/-- A block in braces, from the blank in front of it. -/
def blockText (text : α → List Char) (parts : List α) : List Char :=
  " \x7b\n".toList ++ parts.flatMap text ++ "\x7d\n".toList

/-- What comes after the name in the declaration of a type. -/
def bodyText (type : NamedType) : List Char :=
  match type.kind with
  | .object => implementsText type.interfaces ++ blockText fieldText type.fields
  | .interface => blockText fieldText type.fields
  | .enum => blockText enumValueText type.enumValues
  | .inputObject => blockText inputFieldText type.inputFields
  | .scalar => ['\n']
  | .union => " = ".toList ++ namesText " | " type.possibleTypes ++ ['\n']

def typeText (type : NamedType) : List Char :=
  linesText (descriptionLines "" type.description) ++ (keyword type.kind ++ type.name).toList ++
    bodyText type ++ ['\n']

theorem toList_implementsClause (interfaces : List TypeRef) :
    (implementsClause interfaces).toList = implementsText interfaces := by
  unfold implementsClause implementsText namesText joined
  split <;> simp [Function.comp_def]

theorem linesText_block (header : String) (body : List (List String)) {text : α → List Char}
    {parts : List α} (same : body.flatMap linesText = parts.flatMap text) :
    linesText (block header body) = header.toList ++ blockText text parts := by
  rw [block, blockText, ← same, ← linesText_flatten]
  simp

theorem prints_block {print : α → Lines} {text : α → List Char} {parts : List α}
    (each : ∀ part ∈ parts, Prints (print part) (text part)) (header : String) :
    Prints (do let lines ← Sdl.each print parts; .ok (block header lines))
      (header.toList ++ blockText text parts) := by
  obtain ⟨lines, ok, same⟩ := prints_each each
  rw [ok]
  exact ⟨_, rfl, linesText_block header lines same⟩

theorem prints_declaration {type : NamedType} (wf : type.WellFormed) :
    Prints (declaration type) ((keyword type.kind ++ type.name).toList ++ bodyText type) := by
  have fields : ∀ field ∈ type.fields, Prints (fieldLines field) (fieldText field) :=
    fun field member => prints_fieldLines (wf.field member)
  have values : (type.enumValues.map enumValueLines).flatMap linesText =
      type.enumValues.flatMap enumValueText := by
    simp only [List.flatMap_map, linesText_enumValueLines]
  have inputs :
      ∀ field ∈ type.inputFields, Prints (inputFieldLines field) (inputFieldText field) :=
    fun field member => prints_inputFieldLines (wf.inputField member)
  unfold declaration bodyText
  cases type.kind with
  | object =>
    refine (prints_block fields (keyword .object ++ type.name ++
      implementsClause type.interfaces)).congr ?_
    rw [String.toList_append, toList_implementsClause, List.append_assoc]
  | interface => exact prints_block fields (keyword .interface ++ type.name)
  | enum => exact ⟨_, rfl, linesText_block (keyword .enum ++ type.name) _ values⟩
  | inputObject => exact prints_block inputs (keyword .inputObject ++ type.name)
  | scalar =>
    refine ⟨[keyword .scalar ++ type.name], rfl, ?_⟩
    rw [linesText_cons, linesText_nil]
  | union =>
    refine ⟨[keyword .union ++ type.name ++ " = " ++
      joined " | " (type.possibleTypes.map TypeRef.namedType)], rfl, ?_⟩
    simp [namesText, joined, Function.comp_def]

theorem prints_typeLines {type : NamedType} (wf : type.WellFormed) :
    Prints (typeLines type) (typeText type) := by
  obtain ⟨lines, ok, text⟩ := prints_declaration wf
  rw [typeLines, ok]
  refine ⟨_, rfl, ?_⟩
  simp [typeText, text]

end Sdl

open Sdl

/-- The text of a snapshot. -/
def Snapshot.sdlText (s : Snapshot) : List Char :=
  linesText (headerLines s) ++
    (s.schema.types.filter fun type => !type.isInternal).flatMap typeText ++
    linesText (rootLines s.schema)

/-- Where all references are well formed a snapshot is printed, and its text is put together from
those of its parts. -/
theorem Snapshot.sdl_eq {s : Snapshot} (wf : ∀ ref ∈ s.schema.refs, ref.WellFormed) :
    s.sdl = .ok (String.ofList s.sdlText) := by
  have types : ∀ type ∈ s.schema.types.filter fun type => !type.isInternal,
      Prints (typeLines type) (typeText type) := by
    intro type member
    refine prints_typeLines fun ref refMember => wf ref ?_
    exact List.mem_flatMap.mpr ⟨type, (List.mem_filter.mp member).1, refMember⟩
  obtain ⟨lines, ok, same⟩ := prints_each types
  rw [sdl, ok]
  refine congrArg Except.ok (String.toList_inj.mp ?_)
  rw [String.toList_ofList, toList_joined (by simp [headerLines])]
  simp only [linesText_append, linesText_flatten, same, sdlText]

end SchemaBaseline
