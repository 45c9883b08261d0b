import SchemaBaseline.Proofs.Files.Obstacles
import SchemaBaseline.Proofs.Baseline.RoundTrip
import SchemaBaseline.Proofs.Sdl.Text

/-!
# Saving touches one file or none

Baselines and the texts of schemas are stored in the same way: the text is made first, which for a
loaded snapshot cannot fail, and then it is saved (`saveText_stores_or_spares`). `save_confined`
says of both what becomes of the files. After a success the target holds the text, after a failure
no file has been changed or made, and beside that there are at most new directories on the way to
the target. Where only the files count and not the directories, `saveText_sameFile` says it in
short.
-/

namespace SchemaBaseline.Baseline

open Files (Path Place Tree)

variable {tree : Tree} {path : Path} {s : Snapshot}

/-- Storing a text is saving its bytes. -/
theorem saveText_stores_or_spares (rooted : tree.Rooted) (path : Path) (text : String) :
    (∃ stored, saveText tree path text = (stored, .ok ()) ∧
        Tree.Stores path (Text.Utf8.encode text) tree stored) ∨
      ∃ left failure, saveText tree path text = (left, .error failure) ∧
        (path.hasNull = false → ∃ cause, failure = .unsaved ⟨path, cause⟩) ∧
        Tree.Spares path tree left := by
  unfold saveText
  rcases rooted.stores_or_spares path (Text.Utf8.encode text) with
    ⟨stored, saved, stores⟩ | ⟨left, cause, saved, spares, null⟩
  · exact .inl ⟨stored, by rw [saved], stores⟩
  · refine .inr ⟨left, .of path cause, by rw [saved], ?_, spares⟩
    intro whole
    exact ⟨cause, if_neg fun same => Bool.false_ne_true (whole.symm.trans (null same))⟩

/-- A schema that can be printed is stored like any other text. -/
theorem saveSdl_of_ok {text : String} (printed : s.sdl = .ok text) :
    saveSdl tree path s = ((saveText tree path text).1,
      (saveText tree path text).2.mapError .unsaved) := by
  rw [saveSdl, printed]
  rcases saved : saveText tree path text with ⟨left, e | _⟩ <;> simp only [saved] <;> rfl

/-- Storing a text changes no file but the target, and not even that without success. -/
theorem saveText_sameFile (rooted : tree.Rooted) (path : Path) (text : String) :
    (saveText tree path text).1.Rooted ∧ ∀ place, place ≠ path.target ∨
      (saveText tree path text).2 ≠ .ok () →
      Tree.SameFile place tree (saveText tree path text).1 := by
  rcases saveText_stores_or_spares rooted path text with
    ⟨stored, saved, stores⟩ | ⟨left, failure, saved, -, spares⟩
  · rw [saved]
    exact ⟨stores.rooted, fun place beside =>
      stores.sameFile (beside.resolve_right fun failed => failed rfl)⟩
  · rw [saved]
    exact ⟨spares.rooted, fun place _ => spares.sameFile place⟩

/-- A baseline that cannot be stored changes no file. -/
theorem sameFile_of_unsaved (rooted : tree.Rooted) {failure : SaveFailure}
    (failed : (save tree path s).2 = .error failure) (place : Place) :
    Tree.SameFile place tree (save tree path s).1 := by
  refine (saveText_sameFile rooted path _).2 place (.inr fun saved => ?_)
  cases failed.symm.trans saved

theorem saveSdl_sameFile (rooted : tree.Rooted) (path : Path) (s : Snapshot) (place : Place)
    (beside : place ≠ path.target ∨ (saveSdl tree path s).2 ≠ .ok ()) :
    Tree.SameFile place tree (saveSdl tree path s).1 := by
  cases printed : s.sdl with
  | error e =>
    rw [saveSdl, printed]
    exact .refl place tree
  | ok text =>
    rw [saveSdl_of_ok printed] at beside ⊢
    refine (saveText_sameFile rooted path text).2 place
      (beside.imp_right fun failed saved => failed ?_)
    rw [saved]
    rfl

/-- Once the text of a schema has been stored, its target holds it. -/
theorem holds_of_saveSdl (saved : (saveSdl tree path s).2 = .ok ()) :
    ∃ text, s.sdl = .ok text ∧ (saveSdl tree path s).1.Holds path (Text.Utf8.encode text) := by
  cases printed : s.sdl with
  | error e =>
    rw [saveSdl, printed] at saved
    cases saved
  | ok text =>
    rw [saveSdl_of_ok printed, saveText] at saved ⊢
    rcases result : tree.save path (Text.Utf8.encode text) with ⟨new, _ | e⟩
    · exact ⟨text, rfl, .of_save result⟩
    · rw [result] at saved
      cases saved

/-- Storing the text of a schema, with or without success, spares a file with another target. -/
theorem holds_saveSdl_of_target_ne {other : Path} {content : List UInt8}
    (holds : tree.Holds other content) (distinct : other.target ≠ path.target) :
    (saveSdl tree path s).1.Holds other content := by
  rcases fst_saveSdl tree path s with same | ⟨text, same⟩
  · rw [same]
    exact holds
  · rw [same]
    exact holds.save_of_target_ne distinct

end SchemaBaseline.Baseline
