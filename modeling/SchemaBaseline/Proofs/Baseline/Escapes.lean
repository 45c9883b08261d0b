import SchemaBaseline.Baseline.Store
import SchemaBaseline.Proofs.Files.Target
import SchemaBaseline.Proofs.Json.Digits
import SchemaBaseline.Proofs.Text.Utf8
import SchemaBaseline.Proofs.Yaml.Misfits

/-!
# How loading a baseline fails

A file that holds no baseline has a `Baseline.Defect`, but not everything that is wrong with a
file is taken for one: `Baseline.Escape` says of each other failure what in the tree it is due to,
and `Baseline.load_cases` that there are no failures beside. Bytes that are no text are one of
them (`Baseline.load_undecodable`).
-/

namespace SchemaBaseline

/-! ## Names that are too long -/

namespace Files.Tree

/-- A path is too long, or one of its components is. -/
def TooLong (path : Path) : Prop :=
  maxPathBytes < path.text.utf8ByteSize ∨ ∃ part ∈ path.parts, maxNameBytes < part.utf8ByteSize

theorem tooLong_of_resolve {tree : Tree} {path : Path}
    (fails : tree.resolve path = .error .nameTooLong) : TooLong path := by
  rcases resolve_error_cases fails with ⟨other, -⟩ | ⟨-, long | long⟩ | fails
  · cases other
  · exact .inl long
  · exact .inr ⟨path.name, Path.name_mem_parts (Nat.zero_lt_of_lt long), long⟩
  · rcases enter_error_cases fails with ⟨-, part, member, long⟩ | other | ⟨other, -⟩
    · exact .inr ⟨part, List.dropLast_subset _ member, long⟩
    · cases other
    · cases other

/-- The only question about a file that has no answer is the one with a name that is too long. -/
theorem tooLong_of_isFile {tree : Tree} {path : Path} {e : FileError}
    (fails : tree.isFile path = .error e) :
    TooLong path ∧ e = ⟨.nameTooLong, path⟩ := by
  unfold isFile test at fails
  split at fails
  · cases fails
  · rename_i unfound
    cases fails
    refine ⟨?_, rfl⟩
    unfold find at unfound
    cases leads : tree.resolve path with
    | error problem =>
        rw [leads] at unfound
        cases unfound
        exact tooLong_of_resolve leads
    | ok place =>
        simp only [leads, bind, Except.bind] at unfound
        split at unfound <;> cases unfound
  · cases fails

end Files.Tree

namespace Baseline

open Files (Path Tree)
open Time (Stamp)

/-! ## What is no defect of a file -/

/-- A file of a text. -/
def HoldsText (tree : Tree) (path : Path) (text : String) : Prop :=
  ∃ bytes, tree.read path = .ok bytes ∧ textOfBytes bytes = .ok text

/-- A failure of loading that is not taken for a defect of the file, and what it is due to. -/
inductive Escape (tree : Tree) (path : Path) : Breakdown → Prop
  /-- The path cannot be asked for. -/
  | tooLong (long : Tree.TooLong path) : Escape tree path (.file ⟨.nameTooLong, path⟩)
  /-- The bytes of the file encode no text. -/
  | noText {bytes : List UInt8} {e : Text.DecodeError} (content : tree.read path = .ok bytes)
    (none : ∀ text, Text.Utf8.encode text ≠ bytes) (offence : Text.Utf8.decode bytes = .error e) :
      Escape tree path (.undecodable e)
  /-- The text of a JSON file holds a run of too many digits. -/
  | longRun {text : String} {count : Nat} (json : formatOf path = .json)
    (content : HoldsText tree path text) (run : Json.LongRun text.toList count) :
    Escape tree path (.badValue (Json.tooManyDigitsMessage count))
  /-- The text of a YAML file writes something that is no value. -/
  | noValue {text : String} {misfit : Yaml.Misfit} (yaml : formatOf path = .yaml)
    (content : HoldsText tree path text) (writes : Yaml.WritesNoValue text.toList misfit) :
    Escape tree path (.misfit misfit)

/-- What loading may fail with. -/
def Accounted (tree : Tree) (path : Path) : LoadFailure → Prop
  | .defect _ => True
  | .broke b => Escape tree path b

section File

variable {tree : Tree} {path : Path}

theorem accounted_of_readText {text : String} (content : HoldsText tree path text) :
    Gives (Accounted tree path) (fun _ => True) (readText (formatOf path) text) := by
  unfold readText
  split
  · rename_i json
    split
    · exact trivial
    · exact trivial
    · exact .longRun json content (Json.longRun_of_read ‹_›)
  · rename_i yaml
    split
    · exact trivial
    · exact trivial
    · exact .noValue yaml content (Yaml.writesNoValue_of_read ‹_›)

theorem accounted_of_ofValue (now : Stamp) (v : Value) :
    Gives (Accounted tree path) (fun _ => True) (ofValue now v) := by
  unfold ofValue
  split
  · split <;> exact trivial
  · exact trivial

theorem accounted_of_ofBytes (now : Stamp) {bytes : List UInt8}
    (content : tree.read path = .ok bytes) :
    Gives (Accounted tree path) (fun _ => True) (ofBytes now (formatOf path) bytes) := by
  unfold ofBytes
  split
  · rename_i b fails
    unfold textOfBytes at fails
    split at fails
    · cases fails
    · rename_i e undecodable
      cases fails
      refine .noText content (fun text same => ?_) undecodable
      rw [← same, Text.Utf8.decode_encode] at undecodable
      cases undecodable
  · rename_i text decodes
    have reads := accounted_of_readText ⟨bytes, content, decodes⟩
    split
    · exact reads.error ‹_›
    · exact accounted_of_ofValue now _

theorem accounted_of_load (now : Stamp) (tree : Tree) (path : Path) :
    Gives (Accounted tree path) (fun _ => True) (load now tree path) := by
  unfold load
  split
  · rename_i fails
    obtain ⟨long, rfl⟩ := Tree.tooLong_of_isFile fails
    exact .tooLong long
  · exact trivial
  · split
    · exact trivial
    · exact accounted_of_ofBytes now ‹_›

end File

/-- Loading gives a snapshot or tells the defect of the file, unless the path is too long, the
bytes are no text, a JSON text holds a run of too many digits, or a YAML text writes something
that is no value. The readers here go down to any depth. Where nested calls are limited, a text
that is nested about a thousand levels deep escapes as well; that limit is no part of what is
said. -/
theorem load_cases (now : Stamp) (tree : Tree) (path : Path) :
    (∃ s, load now tree path = .ok s) ∨ (∃ d, load now tree path = .error (.defect d)) ∨
      ∃ b, load now tree path = .error (.broke b) ∧ Escape tree path b := by
  have accounted := accounted_of_load now tree path
  rcases result : load now tree path with (d | b) | s
  · exact .inr (.inl ⟨d, rfl⟩)
  · exact .inr (.inr ⟨b, rfl, accounted.error result⟩)
  · exact .inl ⟨s, rfl⟩

/-- A byte that begins no character is no defect of its file. -/
theorem load_undecodable :
    let tree : Tree := ⟨[(["s.json"], .file [0xff])]⟩
    load default tree ⟨"", ["s.json"]⟩ =
        .error (.broke (.undecodable ⟨"utf-8", 0, 1, 0xff, .invalidStart⟩)) := by
  rfl

end Baseline

end SchemaBaseline
