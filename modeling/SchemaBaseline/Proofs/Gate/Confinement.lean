import SchemaBaseline.Proofs.Baseline.RoundTrip
import SchemaBaseline.Proofs.Gate.Opening
import SchemaBaseline.Proofs.Gate.Origin

/-!
# A gate spares what is stored

The only thing that a gate ever does to the files is to store a baseline where there was none.
`Stored` says when that has happened: loading failed because the file holds no baseline, the
server answered, and the run was not cancelled before it came to its end. `confined_after` draws
the conclusions for existing files. One that changes is the one that the first caller's path leads
to; a baseline that loads stays as it is, and so does everything else.

Where a path leads is asked after the run. One that goes up again from a directory that is not
there leads nowhere at first, so that nothing can be loaded from it, but somewhere once the
directory has been made.
-/

namespace SchemaBaseline

open Files (Path Tree)
open Time (Stamp)

namespace Baseline

/-! ## Loading at another time, and after saving -/

theorem ofValue_object_eq_ok_iff {now : Stamp} {entries : Entries} {s : Snapshot} :
    ofValue now (.object entries) = .ok s ↔ Snapshot.load now (.object entries) = .ok s := by
  unfold ofValue
  cases loaded : Snapshot.load now (.object entries) with
  | ok s' => simp only [loaded, Except.ok.injEq, Checked.ok.injEq]
  | bad issues => simp only [loaded, reduceCtorEq]

/-- The time comes in only once the entries of a baseline have been read. -/
theorem exists_entries_of_load {now : Stamp} {tree : Tree} {path : Path} {s : Snapshot}
    (loaded : load now tree path = .ok s) :
    ∃ entries, ∀ other s', load other tree path = .ok s' ↔
      Snapshot.load other (.object entries) = .ok s' := by
  unfold load at loaded
  split at loaded
  · cases loaded
  · cases loaded
  rename_i isStored
  split at loaded
  · cases loaded
  rename_i read
  unfold ofBytes at loaded
  split at loaded
  · cases loaded
  rename_i decoded
  split at loaded
  · cases loaded
  rename_i v value
  have same : ∀ other, load other tree path = ofValue other v := fun other => by
    simp only [load, isStored, read, ofBytes, decoded, value]
  cases v with
  | object entries => exact ⟨entries, fun other s' => by rw [same, ofValue_object_eq_ok_iff]⟩
  | _ => cases loaded

/-- Whether a file holds a baseline is not a question of time. -/
theorem exists_load_of_load {now : Stamp} {tree : Tree} {path : Path} {s : Snapshot}
    (loaded : load now tree path = .ok s) (other : Stamp) :
    ∃ s', load other tree path = .ok s' := by
  obtain ⟨entries, same⟩ := exists_entries_of_load loaded
  obtain ⟨s', loaded'⟩ := Snapshot.exists_load_of_load ((same now s).mp loaded) other
  exact ⟨s', (same other s').mpr loaded'⟩

/-- The schema that is loaded is the same at all times. -/
theorem schema_eq_of_load {now other : Stamp} {tree : Tree} {path : Path} {s s' : Snapshot}
    (loaded : load now tree path = .ok s) (loaded' : load other tree path = .ok s') :
    s'.schema = s.schema := by
  obtain ⟨entries, same⟩ := exists_entries_of_load loaded
  exact Snapshot.schema_eq_of_load ((same now s).mp loaded) ((same other s').mp loaded')

/-- A breakdown has nothing to do with the time. -/
theorem load_eq_broke {now : Stamp} {tree : Tree} {path : Path} {b : Breakdown}
    (loaded : load now tree path = .error (.broke b)) (other : Stamp) :
    load other tree path = .error (.broke b) := by
  have ofValue_ne (v : Value) : ofValue now v ≠ .error (.broke b) := by
    intro broke
    unfold ofValue at broke
    split at broke
    · split at broke <;> cases broke
    · cases broke
  unfold load at loaded ⊢
  split at loaded
  · exact loaded
  · exact loaded
  split at loaded
  · exact loaded
  unfold ofBytes at loaded ⊢
  split at loaded
  · exact loaded
  split at loaded
  · exact loaded
  · exact absurd loaded (ofValue_ne _)

/-- A file that holds no baseline holds none at any other time. -/
theorem exists_defect_of_defect {now : Stamp} {tree : Tree} {path : Path} {defect : Defect}
    (loaded : load now tree path = .error (.defect defect)) (other : Stamp) :
    ∃ defect', load other tree path = .error (.defect defect') := by
  rcases again : load other tree path with (defect' | b) | s
  · exact ⟨defect', rfl⟩
  · cases loaded.symm.trans (load_eq_broke again now)
  · obtain ⟨s', loaded'⟩ := exists_load_of_load again now
    cases loaded.symm.trans loaded'

/-- Saving changes nothing that is elsewhere than where the path leads. -/
theorem get?_save_of_ne {tree : Tree} {path : Path} {s : Snapshot} {place : Files.Place}
    {node : Files.Node} (found : tree.get? place = some node)
    (elsewhere : (save tree path s).1.resolve path ≠ .ok place) :
    (save tree path s).1.get? place = some node := by
  rw [save, fst_saveText] at elsewhere ⊢
  exact Tree.get?_save_of_ne found elsewhere

theorem load_save (now : Stamp) {tree : Tree} {path : Path} {s : Snapshot} (loaded : s.Loaded)
    (suffix : path.suffix ≠ ".yaml" ∧ path.suffix ≠ ".yml")
    (saved : (save tree path s).2 = .ok ()) :
    load now (save tree path s).1 path = .ok s := by
  have json := formatOf_eq_json suffix
  have whole : save tree path s = ((save tree path s).1, .ok ()) := by rw [← saved]
  exact load_of_holds now loaded.sound loaded.shallow json (holds_of_save json whole)

end Baseline

namespace Gate

variable {mode : Mode} {tree here : Tree} {log : List LogEntry} {history : History} {run : Run}
    {path : Path} {actual : Snapshot}

/-- The run has stored what the server answered, or has tried to, since there was no baseline at
the path. -/
structure Stored (tree : Tree) (history : History) (run : Run) (here : Tree) (path : Path)
    (actual : Snapshot) : Prop where
  unloadable : ∃ now defect, (now, .startRun) ∈ history ∧ Baseline.load now tree path =
    .error (.defect defect)
  answered : ∃ now, (now, .acquired (.ok actual)) ∈ history
  completed : run = .ended path (Core.endOfSaving (Baseline.save tree path actual).2)
  written : here = (Baseline.save tree path actual).1

/-- Nothing else is ever done to the files. -/
theorem Origin.untouched_or_stored (origin : Origin tree history run here) :
    (here = tree ∧ ∀ path, run ≠ .ended path (.completed none)) ∨
      ∃ path actual, Stored tree history run here path actual := by
  cases origin with
  | stored path actual asked now answered =>
    obtain ⟨start, started, defect, unloadable⟩ := asked
    exact .inr ⟨path, actual, ⟨start, defect, started, unloadable⟩, ⟨now, answered⟩, rfl, rfl⟩
  | idle | created | acquiring | unreadable | compared | incomparable | refused | failed
  | cancelled =>
    exact .inl ⟨rfl, fun _ same => by cases same⟩

namespace Stored

theorem path_eq (stored : Stored tree history run here path actual) {other : Path}
    (mine : run.path? = some other) :
    path = other := by
  rw [stored.completed] at mine
  exact Option.some.inj mine

theorem load_ne_ok (stored : Stored tree history run here path actual) (time : Stamp)
    (known : Snapshot) :
    Baseline.load time tree path ≠ .ok known := by
  intro loaded
  obtain ⟨now, defect, -, unloadable⟩ := stored.unloadable
  -- The run has loaded at a time of its own.
  obtain ⟨known', loaded'⟩ := Baseline.exists_load_of_load loaded now
  cases unloadable.symm.trans loaded'

theorem get?_of_ne (stored : Stored tree history run here path actual) {place : Files.Place}
    {node : Files.Node} (found : tree.get? place = some node)
    (elsewhere : here.resolve path ≠ .ok place) : here.get? place = some node := by
  obtain rfl := stored.written
  exact Baseline.get?_save_of_ne found elsewhere

theorem load_eq_ok (stored : Stored tree history run here path actual) (loaded : actual.Loaded)
    (suffix : path.suffix ≠ ".yaml" ∧ path.suffix ≠ ".yml")
    (saved : (Baseline.save tree path actual).2 = .ok ()) (now : Stamp) :
    Baseline.load now here path = .ok actual := by
  rw [stored.written]
  exact Baseline.load_save now loaded suffix saved

end Stored

/-- Whatever happens at a gate, in whatever order. Without a run nothing is done. A run has the
path that the first caller has brought, and everything that all callers share, the files among it,
is as if no one else had come. The files stay as they are if a baseline can be loaded from that
path, and indeed unless the run has stored what the server answered; in that case nothing that was
there changes except where the path leads, and from there the same is loaded again. -/
theorem confined_after (mode : Mode) (tree : Tree) (log : List LogEntry) (history : History) :
    let start := Site.mk (.fresh mode) tree log
    let s := start.after history
    (s.gate.run.path? = none → s.core = start.core) ∧
      ∀ path, s.gate.run.path? = some path →
        (∃ earlier now n c later, history = earlier ++ (now, .begin n) :: later ∧
          Opening start earlier n c ∧ c.path = path ∧
          s.core = (start.after (c.alone now later)).core) ∧
        (∀ time known, Baseline.load time tree path = .ok known → s.tree = tree) ∧
        ((s.tree = tree ∧ s.gate.run ≠ .ended path (.completed none)) ∨
          ∃ actual, Stored tree history s.gate.run s.tree path actual ∧
            (∀ place content, tree.get? place = some (.file content) →
              s.tree.get? place ≠ some (.file content) →
              s.tree.resolve path = .ok place) ∧
            ((Baseline.save tree path actual).2 = .ok () → path.suffix ≠ ".yaml" ∧
              path.suffix ≠ ".yml" → actual.Loaded →
              ∀ time, Baseline.load time s.tree path = .ok actual)) := by
  intro start s
  have origin : Origin tree history s.gate.run s.tree := Site.origin_after mode tree log history
  constructor
  · intro nobody
    have idle : s.core.run = .none := Run.path?_eq_none_iff.mp nobody
    exact core_of_idle idle
  · intro path mine
    have under : s.core.run ≠ .none := fun idle => by
      cases (Run.path?_eq_none_iff.mpr idle).symm.trans mine
    refine ⟨?_, ?_, ?_⟩
    · have active := active_of_run under
      obtain ⟨earlier, now, n, c, later, rfl, opening⟩ := exists_opening under
      have same : c.path = path :=
        Option.some.inj ((opening.path?_eq active now later).symm.trans mine)
      exact ⟨earlier, now, n, c, later, rfl, opening, same, opening.core_eq active now later⟩
    · intro time known loaded
      rcases origin.untouched_or_stored with ⟨untouched, -⟩ | ⟨path', actual, stored⟩
      · exact untouched
      · obtain rfl := stored.path_eq mine
        exact absurd loaded (stored.load_ne_ok time known)
    · rcases origin.untouched_or_stored with ⟨untouched, unstored⟩ | ⟨path', actual, stored⟩
      · exact .inl ⟨untouched, unstored path⟩
      · obtain rfl := stored.path_eq mine
        refine .inr ⟨actual, stored, fun place content found changed => ?_,
          fun saved suffix loaded time =>
          stored.load_eq_ok loaded suffix saved time⟩
        by_contra elsewhere
        exact changed (stored.get?_of_ne found elsewhere)

/-- An empty file holds no baseline: the gate replaces it, and the new baseline can be loaded. A
baseline that a later caller has brought the path of stays out of it. -/
theorem confined_after_mending :
    let path : Path := ⟨"", ["schema.json"]⟩
    let other : Path := ⟨"", ["other.json"]⟩
    let actual : Snapshot := ⟨.shelf, default, "", ""⟩
    let tree : Tree := Tree.empty.put ["schema.json"] (.file [])
    let calls : History :=
      [(default, .call .foreground path), (default, .call .background other), (default, .begin 0),
        (default, .begin 1), (default, .startRun), (default, .acquired (.ok actual))]
    (Baseline.save tree path actual).2 = .ok () ∧ actual.Loaded ∧
      Stored tree calls ((Site.mk (.fresh .warn) tree []).after calls).gate.run
        ((Site.mk (.fresh .warn) tree []).after calls).tree path actual ∧
      ∀ time, Baseline.load time ((Site.mk (.fresh .warn) tree []).after calls).tree path =
          .ok actual := by
  intro path other actual tree calls
  have completed : ((Site.mk (.fresh .warn) tree []).after calls).gate.run =
      .ended path (.completed none) := by
    decide +kernel
  have saved : (Baseline.save tree path actual).2 = .ok () := by
    rw [Baseline.save, Baseline.saveText, Tree.save_top _ rfl (by decide)]
  have loaded : actual.Loaded := Snapshot.loaded_of_sound Schema.shelf_sound Schema.shelf_shallow
  obtain ⟨-, -, ⟨-, unstored⟩ | ⟨answer, stored, -, loads⟩⟩ :=
    (confined_after .warn tree [] calls).2 path (by rw [completed]; rfl)
  · exact absurd completed unstored
  · obtain rfl : answer = actual := by
      obtain ⟨now, answered⟩ := stored.answered
      simp only [calls, List.mem_cons, Prod.mk.injEq, Event.acquired.injEq, Except.ok.injEq,
        reduceCtorEq, and_false, false_or, List.not_mem_nil, or_false] at answered
      exact answered.2
    exact ⟨saved, loaded, stored, loads saved (by decide) loaded⟩

end Gate

end SchemaBaseline
