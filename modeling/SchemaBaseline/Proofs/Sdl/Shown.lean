import Mathlib.Data.List.Basic
import SchemaBaseline.Proofs.Sdl.Text

/-!
# What a schema text shows

A schema can hold more than its text shows. `Schema.shown` leaves out the rest: types of the
introspection system, children that the kind of their type has no use for, labels of wrappers, all
of an interface or member but its name, and the reason of something that is not deprecated. It is
meant for schemas that are `Schema.Simple`, whose names are names of the language and which have
neither descriptions nor defaults; the text of such a schema is that of what is shown of it
(`typeText_shown`).
-/

namespace SchemaBaseline

/-! ## Names of the language -/

namespace Sdl

/-- Whether a character is an ASCII letter or digit or the underscore. -/
def isNameChar (c : Char) : Bool :=
  c.isAlphanum || c == '_'

/-- Whether a text is a name of the language. -/
def isName (name : String) : Bool :=
  match name.toList with
  | [] => false
  | first :: rest => !first.isDigit && (first :: rest).all isNameChar

theorem isNameChar_of_mem {name : String} (isName : isName name = true) :
    ∀ c ∈ name.toList, isNameChar c = true := by
  unfold Sdl.isName at isName
  split at isName
  · cases isName
  · rename_i first rest spelled
    rw [spelled]
    exact List.all_eq_true.mp (Bool.and_eq_true_iff.mp isName).2

/-- A name begins with a character that names are made of. -/
theorem exists_toList_eq_cons {name : String} (isName : isName name = true) :
    ∃ c rest, name.toList = c :: rest ∧ isNameChar c = true := by
  cases spelled : name.toList with
  | nil => simp [Sdl.isName, spelled] at isName
  | cons c rest => exact ⟨c, rest, rfl, isNameChar_of_mem isName c (spelled ▸ List.mem_cons_self)⟩

end Sdl

open Sdl (isName)

/-! ## Simple schemas -/

/-- All names are names of the language, and neither a description nor a default says anything. -/
def InputValue.Simple (v : InputValue) : Prop :=
  isName v.name = true ∧ isName v.type.namedType = true ∧ v.description.getD "" = "" ∧
    v.defaultValue.getD "" = ""

instance (v : InputValue) : Decidable v.Simple :=
  inferInstanceAs (Decidable (_ ∧ _ ∧ _ ∧ _))

def FieldDef.Simple (field : FieldDef) : Prop :=
  isName field.name = true ∧ isName field.type.namedType = true ∧ field.description.getD "" = "" ∧
    ∀ arg ∈ field.args, arg.Simple

instance (field : FieldDef) : Decidable field.Simple :=
  inferInstanceAs (Decidable (_ ∧ _ ∧ _ ∧ _))

def EnumValue.Simple (value : EnumValue) : Prop :=
  isName value.name = true ∧ value.description.getD "" = ""

instance (value : EnumValue) : Decidable value.Simple :=
  inferInstanceAs (Decidable (_ ∧ _))

structure NamedType.Simple (type : NamedType) : Prop where
  name : isName type.name = true
  description : type.description.getD "" = ""
  fields : ∀ field ∈ type.fields, field.Simple
  inputFields : ∀ field ∈ type.inputFields, field.Simple
  interfaces : ∀ ref ∈ type.interfaces, isName ref.namedType = true
  enumValues : ∀ value ∈ type.enumValues, value.Simple
  possibleTypes : ∀ ref ∈ type.possibleTypes, isName ref.namedType = true

/-- All names in a schema are names of the language, and it has neither descriptions nor
defaults. -/
structure Schema.Simple (schema : Schema) : Prop where
  queryType : ∀ name, schema.queryType = some name → isName name = true
  mutationType : ∀ name, schema.mutationType = some name → isName name = true
  subscriptionType : ∀ name, schema.subscriptionType = some name → isName name = true
  types : ∀ type ∈ schema.types, type.Simple

/-! ## What is shown -/

/-- A reference without the labels of its wrappers. -/
def TypeRef.shown (ref : TypeRef) : TypeRef :=
  .chain (ref.wrappers.map fun kind => (kind, none)) ref.namedType

/-- Of an interface or a member only the name is shown. -/
def TypeRef.shownName (ref : TypeRef) : TypeRef :=
  .named ref.namedType

def InputValue.shown (v : InputValue) : InputValue :=
  ⟨v.name, none, v.type.shown, none⟩

/-- The reason of a deprecation; no reason is shown as an empty one. -/
def shownReason (isDeprecated : Bool) (reason : Option String) : Option String :=
  if isDeprecated then some (reason.getD "") else none

def FieldDef.shown (field : FieldDef) : FieldDef :=
  ⟨field.name, none, field.args.map InputValue.shown, field.type.shown, field.isDeprecated,
    shownReason field.isDeprecated field.deprecationReason⟩

def EnumValue.shown (value : EnumValue) : EnumValue :=
  ⟨value.name, none, value.isDeprecated, shownReason value.isDeprecated value.deprecationReason⟩

/-- A type with the children that its kind shows. -/
def NamedType.shown (type : NamedType) : NamedType :=
  let bare : NamedType := ⟨type.kind, type.name, none, [], [], [], [], []⟩
  match type.kind with
  | .object =>
    { bare with
      fields := type.fields.map FieldDef.shown
      interfaces := type.interfaces.map TypeRef.shownName }
  | .interface => { bare with fields := type.fields.map FieldDef.shown }
  | .enum => { bare with enumValues := type.enumValues.map EnumValue.shown }
  | .inputObject => { bare with inputFields := type.inputFields.map InputValue.shown }
  | .scalar => bare
  | .union => { bare with possibleTypes := type.possibleTypes.map TypeRef.shownName }

/-- A schema with the types that are printed. -/
def Schema.shown (schema : Schema) : Schema :=
  { schema with types := (schema.types.filter fun type => !type.isInternal).map NamedType.shown }

/-! ## Texts are texts of what is shown -/

namespace TypeRef

@[simp]
theorem wrappers_shown (ref : TypeRef) : ref.shown.wrappers = ref.wrappers := by
  rw [shown, wrappers_chain, List.map_map]
  exact List.map_id _

@[simp]
theorem namedType_shown (ref : TypeRef) : ref.shown.namedType = ref.namedType :=
  namedType_chain _ _

@[simp]
theorem spelling_shown (ref : TypeRef) : ref.shown.spelling = ref.spelling := by
  rw [spelling_eq, wrappers_shown, namedType_shown, ← spelling_eq]

end TypeRef

namespace Sdl

/-- A description that says nothing takes no line. -/
theorem descriptionLines_eq_nil {description : Option String} (empty : description.getD "" = "")
    (indent : String) :
    descriptionLines indent description = [] := by
  cases description with
  | none => rfl
  | some text =>
    obtain rfl : text = "" := empty
    rfl

@[simp]
theorem descriptionLines_none (indent : String) : descriptionLines indent none = [] :=
  rfl

theorem defaultText_eq_nil {value : Option String} (empty : value.getD "" = "") :
    defaultText value = [] := by
  simp [defaultText, empty]

@[simp]
theorem defaultText_none : defaultText none = [] :=
  rfl

@[simp]
theorem deprecation_shownReason (isDeprecated : Bool) (reason : Option String) :
    deprecation isDeprecated (shownReason isDeprecated reason) =
      deprecation isDeprecated reason := by
  cases isDeprecated <;> simp [deprecation, shownReason]

theorem inputValueText_shown {v : InputValue} (simple : v.Simple) :
    inputValueText v.shown = inputValueText v := by
  obtain ⟨-, -, -, noDefault⟩ := simple
  simp [inputValueText, InputValue.shown, defaultText_eq_nil noDefault]

theorem argsText_shown {args : List InputValue} (simple : ∀ arg ∈ args, arg.Simple) :
    argsText (args.map InputValue.shown) = argsText args := by
  have texts : args.map (inputValueText ∘ InputValue.shown) = args.map inputValueText :=
    List.map_congr_left fun arg member => inputValueText_shown (simple arg member)
  simp only [argsText, List.isEmpty_map, List.map_map, texts]

theorem fieldText_shown {field : FieldDef} (simple : field.Simple) :
    fieldText field.shown = fieldText field := by
  obtain ⟨-, -, undescribed, args⟩ := simple
  simp only [fieldText, FieldDef.shown, argsText_shown args, TypeRef.spelling_shown,
    deprecation_shownReason, descriptionLines_eq_nil undescribed, descriptionLines_none]

theorem enumValueText_shown {value : EnumValue} (simple : value.Simple) :
    enumValueText value.shown = enumValueText value := by
  simp only [enumValueText, EnumValue.shown, deprecation_shownReason,
    descriptionLines_eq_nil simple.2, descriptionLines_none]

theorem inputFieldText_shown {field : InputValue} (simple : field.Simple) :
    inputFieldText field.shown = inputFieldText field := by
  have undescribed : field.description.getD "" = "" := simple.2.2.1
  have none : field.shown.description = none := rfl
  rw [inputFieldText, inputFieldText, inputValueText_shown simple,
    descriptionLines_eq_nil undescribed, none, descriptionLines_none]

theorem namesText_shownName (separator : String) (refs : List TypeRef) :
    namesText separator (refs.map TypeRef.shownName) = namesText separator refs := by
  rw [namesText, namesText, List.map_map]
  rfl

theorem blockText_map {α : Type} (text : α → List Char) {g : α → α} {parts : List α}
    (same : ∀ part ∈ parts, text (g part) = text part) :
    blockText text (parts.map g) = blockText text parts := by
  rw [blockText, blockText, List.flatMap_map, List.flatMap_congr same]

theorem bodyText_shown {type : NamedType} (simple : type.Simple) :
    bodyText type.shown = bodyText type := by
  have fields :=
    blockText_map fieldText fun field member => fieldText_shown (simple.fields field member)
  have values :=
    blockText_map enumValueText fun value member =>
      enumValueText_shown (simple.enumValues value member)
  have inputs :=
    blockText_map inputFieldText fun field member =>
      inputFieldText_shown (simple.inputFields field member)
  unfold bodyText NamedType.shown
  cases type.kind with
  | object => simp only [implementsText, List.isEmpty_map, namesText_shownName, fields]
  | interface => exact fields
  | enum => exact values
  | inputObject => exact inputs
  | scalar => rfl
  | union => simp only [namesText_shownName]

theorem kind_shown (type : NamedType) : type.shown.kind = type.kind := by
  unfold NamedType.shown
  split <;> rfl

theorem name_shown (type : NamedType) : type.shown.name = type.name := by
  unfold NamedType.shown
  split <;> rfl

theorem description_shown (type : NamedType) : type.shown.description = none := by
  unfold NamedType.shown
  split <;> rfl

theorem typeText_shown {type : NamedType} (simple : type.Simple) :
    typeText type.shown = typeText type := by
  rw [typeText, typeText, kind_shown, name_shown, description_shown, bodyText_shown simple,
    descriptionLines_eq_nil simple.description, descriptionLines_none]

end Sdl

open Sdl

/-- The text of a simple schema is that of what is shown of it. -/
theorem Snapshot.sdlText_eq_shown {s : Snapshot} (simple : s.schema.Simple) :
    s.sdlText = linesText (headerLines s) ++ s.schema.shown.types.flatMap typeText ++
      linesText (rootLines s.schema.shown) := by
  have types : ∀ type ∈ s.schema.types.filter fun type => !type.isInternal, typeText type.shown =
      typeText type :=
    fun type member => typeText_shown (simple.types type (List.mem_filter.mp member).1)
  rw [sdlText, Schema.shown, List.flatMap_map, List.flatMap_congr types]
  rfl

end SchemaBaseline
