import SchemaBaseline.Baseline.Store
import SchemaBaseline.Proofs.Files.Save
import SchemaBaseline.Proofs.Schema.Plain
import SchemaBaseline.Proofs.Schema.RoundTrip

/-!
# Baselines in JSON are lossless

Four round trips are put together: a snapshot loads from its value, the value is read from its
pretty text, the text is decoded from its bytes, and the bytes stay in the file while other files
are saved. `Baseline.ofBytes_textOf` is the part that needs no files, `Baseline.SavesElsewhere`
says what other saves are, and `Baseline.load_of_save` is the whole.
-/

namespace SchemaBaseline

/-! ## The text of a snapshot -/

/-- Unifying line ends changes nothing where all of them are line feeds. -/
theorem Text.unifyNewlines_of_not_mem {cs : List Char} (none : '\r' ∉ cs) :
    Text.unifyNewlines cs = cs := by
  fun_induction Text.unifyNewlines cs with
  | case1 => rfl
  | case2 => exact absurd List.mem_cons_self none
  | case3 => exact absurd List.mem_cons_self none
  | case4 c rest _ _ ih => rw [ih fun member => none (List.mem_cons_of_mem _ member)]

namespace Baseline

open Files (Path Tree)
open Time (Stamp)

/-- The bytes of a text hold the snapshot whose value is read from the text. -/
theorem ofBytes_of_readText (now : Stamp) {s : Snapshot} {format : Format} {text : String}
    (sound : s.schema.Sound) (shallow : ∀ ref ∈ s.schema.refs, ref.depth ≤ maxRefDepth)
    (feeds : '\r' ∉ text.toList) (value : readText format text = .ok s.toValue) :
    ofBytes now format (Text.Utf8.encode text) = .ok s := by
  have decoded : textOfBytes (Text.Utf8.encode text) = .ok text := by
    simp only [textOfBytes, Text.Utf8.decode_encode, Text.unifyNewlines_of_not_mem feeds,
      String.ofList_toList]
  have loaded : ofValue now s.toValue = .ok s := by
    have fromValue := Snapshot.load_toValue now sound shallow
    rw [Snapshot.toValue] at fromValue ⊢
    simp only [ofValue, fromValue]
  simp only [ofBytes, decoded, value, loaded]

/-- The bytes that a snapshot is stored as in JSON hold the snapshot. -/
theorem ofBytes_textOf (now : Stamp) {s : Snapshot} (sound : s.schema.Sound)
    (shallow : ∀ ref ∈ s.schema.refs, ref.depth ≤ maxRefDepth) :
    ofBytes now .json (Text.Utf8.encode (textOf .json s)) = .ok s := by
  have plain := s.plain_toValue
  have feeds : '\r' ∉ (textOf .json s).toList := by
    rw [textOf, Json.pretty, String.toList_ofList]
    exact Json.return_not_mem_prettyChars plain 0
  have value : readText .json (textOf .json s) = .ok s.toValue := by
    simp only [readText, textOf, Json.read_pretty plain]
  exact ofBytes_of_readText now sound shallow feeds value

/-! ## The file of a snapshot -/

/-- The first tree becomes the second by saving baselines and schema texts, each time to a file
other than the one that `path` leads to; a save may fail. -/
inductive SavesElsewhere (path : Path) (tree : Tree) : Tree → Prop
  | none : SavesElsewhere path tree tree
  | save {former : Tree} (earlier : SavesElsewhere path tree former) (other : Path) (s : Snapshot)
      (elsewhere : (save former other s).1.resolve other ≠ (save former other s).1.resolve path) :
      SavesElsewhere path tree (save former other s).1
  | saveSdl {former : Tree} (earlier : SavesElsewhere path tree former) (other : Path)
    (s : Snapshot)
      (elsewhere : (saveSdl former other s).1.resolve other ≠
        (saveSdl former other s).1.resolve path) :
      SavesElsewhere path tree (saveSdl former other s).1

theorem fst_saveText (tree : Tree) (path : Path) (text : String) :
    (saveText tree path text).1 = (tree.save path (Text.Utf8.encode text)).1 := by
  unfold saveText
  rcases tree.save path (Text.Utf8.encode text) with ⟨new, _ | e⟩ <;> rfl

/-- Storing the text of a schema either leaves the tree alone or saves some text. -/
theorem fst_saveSdl (tree : Tree) (path : Path) (s : Snapshot) :
    (saveSdl tree path s).1 = tree ∨
      ∃ text, (saveSdl tree path s).1 = (tree.save path (Text.Utf8.encode text)).1 := by
  unfold saveSdl
  cases s.sdl with
  | error e => exact .inl rfl
  | ok text =>
      refine .inr ⟨text, ?_⟩
      rw [← fst_saveText]
      rcases result : saveText tree path text with ⟨new, e | _⟩ <;> simp only [result]

theorem SavesElsewhere.holds {path : Path} {tree later : Tree} {content : List UInt8}
    (saves : SavesElsewhere path tree later) (holds : tree.Holds path content) :
    later.Holds path content := by
  induction saves with
  | none => exact holds
  | @save former _ other s elsewhere ih =>
      rw [Baseline.save, fst_saveText] at elsewhere ⊢
      exact ih.save_elsewhere elsewhere
  | @saveSdl former _ other s elsewhere ih =>
      rcases fst_saveSdl former other s with same | ⟨text, same⟩
      · rw [same]
        exact ih
      · rw [same] at elsewhere ⊢
        exact ih.save_elsewhere elsewhere

section File

variable {s : Snapshot} {path : Path} {tree : Tree}

theorem holds_of_save {stored : Tree} {format : Format} (same : formatOf path = format)
    (saved : save tree path s = (stored, .ok ())) :
    stored.Holds path (Text.Utf8.encode (textOf format s)) := by
  rw [save, same, saveText] at saved
  rcases result : tree.save path (Text.Utf8.encode (textOf format s)) with ⟨new, _ | e⟩
  · rw [result] at saved
    cases saved
    exact .of_save result
  · rw [result] at saved
    cases saved

theorem load_eq_ofBytes (now : Stamp) {content : List UInt8} (holds : tree.Holds path content) :
    load now tree path = ofBytes now (formatOf path) content := by
  simp only [load, holds.isFile, holds.read]

theorem formatOf_eq_json (suffix : path.suffix ≠ ".yaml" ∧ path.suffix ≠ ".yml") :
    formatOf path = .json := by
  simp [formatOf, suffix.1, suffix.2]

theorem load_of_holds (now : Stamp) (sound : s.schema.Sound)
    (shallow : ∀ ref ∈ s.schema.refs, ref.depth ≤ maxRefDepth) (json : formatOf path = .json)
    (holds : tree.Holds path (Text.Utf8.encode (textOf .json s))) :
    load now tree path = .ok s := by
  rw [load_eq_ofBytes now holds, json, ofBytes_textOf now sound shallow]

end File

/-- A snapshot that was stored in JSON is loaded again, also after other files have been saved. -/
theorem load_of_save (now : Stamp) {s : Snapshot} {path : Path} {tree stored later : Tree}
    (sound : s.schema.Sound) (shallow : ∀ ref ∈ s.schema.refs, ref.depth ≤ 200)
    (suffix : path.suffix ≠ ".yaml" ∧ path.suffix ≠ ".yml")
    (saved : save tree path s = (stored, .ok ())) (others : SavesElsewhere path stored later) :
    load now later path = .ok s := by
  have json := formatOf_eq_json suffix
  have holds := others.holds (holds_of_save json saved)
  exact load_of_holds now sound (TypeRef.shallow_of_le shallow) json holds

/-- A snapshot can be saved at the top of an empty tree, and then once more beside. -/
theorem save_beside (s : Snapshot) {name copy : String}
    (leads : ∀ tree : Tree, tree.resolve ⟨"", [name]⟩ = .ok [name])
    (leadsElsewhere : ∀ tree : Tree, tree.resolve ⟨"", [copy]⟩ = .ok [copy])
    (different : name ≠ copy) :
    ∃ stored copied, save .empty ⟨"", [name]⟩ s = (stored, .ok ()) ∧
      save stored ⟨"", [copy]⟩ s = (copied, .ok ()) ∧
      SavesElsewhere ⟨"", [name]⟩ stored copied := by
  have saved : ∀ {tree : Tree} {name : String}, tree.resolve ⟨"", [name]⟩ = .ok [name] →
      tree.get? [name] = none → save tree ⟨"", [name]⟩ s =
      (tree.put [name] (.file (Text.Utf8.encode (textOf (formatOf ⟨"", [name]⟩) s))),
      .ok ()) := by
    intro tree name leads absent
    have notDirectory : tree.get? [name] ≠ some .directory := by
      rw [absent]
      exact fun same => nomatch same
    rw [save, saveText, Tree.save_top _ leads notDirectory]
  have first := saved (leads .empty) rfl
  have absent : (Tree.empty.put [name]
      (.file (Text.Utf8.encode (textOf (formatOf ⟨"", [name]⟩) s)))).get? [copy] = none :=
    Tree.get?_put_of_ne _ _ (by simpa using different.symm)
  generalize Tree.empty.put [name] (.file (Text.Utf8.encode (textOf (formatOf ⟨"", [name]⟩) s))) =
    stored at first absent
  have second := saved (leadsElsewhere stored) absent
  have elsewhere : (save stored ⟨"", [copy]⟩ s).1.resolve ⟨"", [copy]⟩ ≠
      (save stored ⟨"", [copy]⟩ s).1.resolve ⟨"", [name]⟩ := by
    rw [leads, leadsElsewhere]
    intro same
    injection same with same
    injection same with same
    exact different same.symm
  have others : SavesElsewhere ⟨"", [name]⟩ stored (save stored ⟨"", [copy]⟩ s).1 :=
    .save .none _ s elsewhere
  rw [second] at others
  exact ⟨stored, _, first, second, others⟩

/-- The small schema is loaded from its file after a copy has been saved beside it. -/
theorem load_of_save_shelf :
    let s : Snapshot := ⟨.shelf, default, "π", "\r\n"⟩
    let path : Path := ⟨"", ["shelf.json"]⟩
    let other : Path := ⟨"", ["copy.yaml"]⟩
    ∃ stored copied, save .empty path s = (stored, .ok ()) ∧
      save stored other s = (copied, .ok ()) ∧
      SavesElsewhere path stored copied ∧ load default copied path = .ok s := by
  intro s path other
  obtain ⟨stored, copied, saved, beside, others⟩ :=
    @save_beside s "shelf.json" "copy.yaml" (fun _ => rfl) (fun _ => rfl) (by decide)
  exact ⟨stored, copied, saved, beside, others,
    load_of_save default Schema.shelf_sound (by decide) (by decide) saved others⟩

end Baseline

end SchemaBaseline
