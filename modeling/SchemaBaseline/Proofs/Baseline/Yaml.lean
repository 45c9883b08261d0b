import SchemaBaseline.Proofs.Baseline.RoundTrip
import SchemaBaseline.Proofs.Schema.Faithful

/-!
# Baselines in YAML

A snapshot that was stored in YAML is loaded again if YAML keeps its texts
(`Baseline.load_of_save_yaml`). Not every text is kept: a next-line character in single quotes is
read as a line feed, so `Baseline.load_of_save_nextLine` loads another snapshot than the one that
was saved.
-/

namespace SchemaBaseline.Baseline

open Files (Path Tree)
open Time (Stamp)

/-- The bytes that a snapshot is stored as in YAML hold the snapshot. -/
theorem ofBytes_textOf_yaml (now : Stamp) {s : Snapshot}
    (shallow : ∀ ref ∈ s.schema.refs, ref.depth ≤ maxRefDepth) (sound : s.schema.Sound)
    (blanks : ∀ ref ∈ s.schema.refs, ∀ t ∈ ref.namesBelow 34, KeepsBlanks t)
    (lines : ∀ t ∈ s.texts, KeepsLines t) :
    ofBytes now .yaml (Text.Utf8.encode (textOf .yaml s)) = .ok s := by
  have kept : ∀ ref ∈ s.schema.refs, ref.Kept :=
    fun ref member => ⟨sound.refs_wellFormed ref member, blanks ref member⟩
  obtain ⟨read, feeds⟩ := Snapshot.read_write kept lines
  have value : readText .yaml (textOf .yaml s) = .ok s.toValue := by
    simp only [readText, textOf, read]
  exact ofBytes_of_readText now sound shallow feeds value

/-- A snapshot that was stored in YAML is loaded again, also after other files have been saved, if
no next-line character stands in single quotes and no name that is indented beyond the width of a
line has a blank behind an escape. -/
theorem load_of_save_yaml (now : Stamp) {s : Snapshot} {path : Path} {tree stored later : Tree}
    (sound : s.schema.Sound) (shallow : ∀ ref ∈ s.schema.refs, ref.depth ≤ 200)
    (suffix : path.suffix = ".yaml" ∨ path.suffix = ".yml")
    (lines : ∀ t ∈ s.texts, KeepsLines t)
    (blanks : ∀ ref ∈ s.schema.refs, ∀ t ∈ ref.namesBelow 34, KeepsBlanks t)
    (saved : save tree path s = (stored, .ok ())) (others : SavesElsewhere path stored later) :
    load now later path = .ok s := by
  have yaml : formatOf path = .yaml := by
    rcases suffix with same | same <;> simp [formatOf, same]
  have holds := others.holds (holds_of_save yaml saved)
  rw [load_eq_ofBytes now holds, yaml,
    ofBytes_textOf_yaml now (TypeRef.shallow_of_le shallow) sound blanks lines]

/-- The small schema is loaded from its file after a copy has been saved beside it. -/
theorem load_of_save_yaml_shelf :
    let s : Snapshot := ⟨.shelf, default, "\t yes", "1:30"⟩
    let path : Path := ⟨"", ["shelf.YML"]⟩
    let other : Path := ⟨"", ["copy.json"]⟩
    ∃ stored copied, save .empty path s = (stored, .ok ()) ∧
      save stored other s = (copied, .ok ()) ∧
      SavesElsewhere path stored copied ∧ load default copied path = .ok s := by
  intro s path other
  obtain ⟨stored, copied, saved, beside, others⟩ :=
    @save_beside s "shelf.YML" "copy.json" (fun _ => rfl) (fun _ => rfl) (by decide)
  exact ⟨stored, copied, saved, beside, others, load_of_save_yaml default Schema.shelf_sound
    (by decide) (.inr (by decide)) (by decide +kernel) (by decide +kernel) saved others⟩

/-- A snapshot whose source is a next-line character is saved, and another one is loaded. -/
theorem load_of_save_nextLine :
    let s : Snapshot := ⟨⟨none, none, none, []⟩, default, "\x85", ""⟩
    let path : Path := ⟨"", ["s.yaml"]⟩
    (save .empty path s).2 = .ok () ∧ load default (save .empty path s).1 path =
        .ok { s with source := " " } := by
  decide +kernel

end SchemaBaseline.Baseline
