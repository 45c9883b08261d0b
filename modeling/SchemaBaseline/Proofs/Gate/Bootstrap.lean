import SchemaBaseline.Proofs.Compat.Itself
import SchemaBaseline.Proofs.Gate.Confinement
import SchemaBaseline.Proofs.Gate.Once

/-!
# A gate accepts what a gate has stored

Where there is no baseline a gate makes one, and from then on every other gate compares with it.
`bootstrapped_after` follows two gates at the same path, one after the other: the first stores the
schema of the server, and the second, which loads that, is answered with the same schema and
compares, finds nothing to report and leaves the files alone. That nothing is lost in between is
known of the parts: what is saved is loaded again (`Baseline.load_save`), and a schema without
repeated names is found unchanged beside itself (`Schema.compare_self_of_partsDistinct`).

The parts are put together by `Site.ended_of_served`. If the server has one answer and nobody
shuts the gate down, what a run ends in depends on nothing but what loading comes to (`endOf`),
whoever the callers are.
-/

namespace SchemaBaseline.Gate

open Files (Path Tree)
open Time (Stamp)

/-- The server gives one answer only, and the gate is not shut down. -/
structure History.Serves (history : History) (actual : Snapshot) : Prop where
  answers : ∀ now answer, (now, .acquired answer) ∈ history → answer = .ok actual
  unclosed : ∀ now, (now, .shutdown) ∉ history

/-- What a run ends in with an answer of the server and what it leaves of the files, by what
loading has come to. -/
def endOf (tree : Tree) (path : Path) (actual : Snapshot) :
    Except Baseline.LoadFailure Snapshot → RunEnd × Tree
  | .ok known =>
    match known.compare actual with
    | .ok result => (.completed (some result), tree)
    | .error e => (.broke (.malformedRef e), tree)
  | .error (.defect _) =>
    let saved := Baseline.save tree path actual
    (Core.endOfSaving saved.2, saved.1)
  | .error (.broke b) => (.broke b, tree)

variable {mode : Mode} {tree here : Tree} {log : List LogEntry} {history : History} {path : Path}
    {actual : Snapshot}

theorem History.Serves.append {later : History} (served : history.Serves actual)
    (servedLater : later.Serves actual) :
    History.Serves (history ++ later) actual where
  answers now answer answered :=
    (List.mem_append.mp answered).elim (served.answers now answer)
      (servedLater.answers now answer)
  unclosed now closed :=
    (List.mem_append.mp closed).elim (served.unclosed now) (servedLater.unclosed now)

/-- A run that the server has served ends in what loading leads to. -/
theorem Origin.of_served {outcome : RunEnd}
    (origin : Origin tree history (.ended path outcome) here) (served : history.Serves actual) :
    ∃ now, (outcome, here) = endOf tree path actual (Baseline.load now tree path) := by
  cases origin with
  | unreadable _ b now _ loaded => exact ⟨now, by rw [loaded, endOf]⟩
  | compared _ known answer result asked time answered comparison =>
    obtain ⟨now, -, loaded⟩ := asked
    obtain rfl := Except.ok.inj (served.answers time _ answered)
    have loaded : Baseline.load now tree path = .ok known := loaded
    exact ⟨now, by simp only [loaded, endOf, comparison]⟩
  | incomparable _ known answer e asked time answered comparison =>
    obtain ⟨now, -, loaded⟩ := asked
    obtain rfl := Except.ok.inj (served.answers time _ answered)
    have loaded : Baseline.load now tree path = .ok known := loaded
    exact ⟨now, by simp only [loaded, endOf, comparison]⟩
  | stored _ answer asked time answered =>
    obtain ⟨now, -, defect, loaded⟩ := asked
    obtain rfl := Except.ok.inj (served.answers time _ answered)
    exact ⟨now, by rw [loaded, endOf]⟩
  | refused _ _ _ _ time answered => cases served.answers time _ answered
  | failed _ _ _ _ time answered => cases served.answers time _ answered
  | cancelled _ time e cause happened =>
    rcases cause with rfl | rfl
    · exact absurd happened (served.unclosed time)
    · cases served.answers time _ happened

/-! ## A run that is let on ends -/

theorem Core.exists_answer_ended (c : Core) (now : Stamp) (path : Path)
    (expected : Option Snapshot) (answer : Acquired) :
    ∃ outcome, (c.answer now path expected answer).run = .ended path outcome := by
  rcases answer with (message | b | _) | actual
  · exact ⟨_, rfl⟩
  · exact ⟨_, rfl⟩
  · exact ⟨_, rfl⟩
  · cases expected with
    | none => exact ⟨_, (c.createBaseline_eq now path actual).1⟩
    | some known =>
      simp only [Core.answer]
      split <;> exact ⟨_, rfl⟩

/-- The events that a run waits for, with an answer of the server. -/
def turns (start answered : Stamp) (answer : Acquired) : History :=
  [(start, .startRun), (answered, .acquired answer)]

theorem serves_turns (start answered : Stamp) (actual : Snapshot) :
    History.Serves (turns start answered (.ok actual)) actual where
  answers now answer happened := by
    simp only [turns, List.mem_cons, Prod.mk.injEq, reduceCtorEq, and_false, Event.acquired.injEq,
      List.not_mem_nil, or_false, false_or] at happened
    exact happened.2
  unclosed now happened := by simp [turns] at happened

/-- Once there is a run it ends as soon as it is started and answered, if it has not ended
before. -/
theorem Site.exists_turns_ended {s : Site} (mine : s.core.run.path? = some path)
    (start answered : Stamp) (answer : Acquired) :
    ∃ outcome, (s.after (turns start answered answer)).core.run = .ended path outcome := by
  have under : s.core.run ≠ .none := fun idle => by
    rw [idle] at mine
    cases mine
  -- After the start the run waits for the answer, or it has ended.
  have started : (∃ expected, (s.step start .startRun).core.run = .acquiring path expected) ∨
      ∃ outcome, (s.step start .startRun).core.run = .ended path outcome := by
    rw [core_step_of_run under, Core.react]
    cases run : s.core.run with
    | none => exact absurd run under
    | created own =>
      obtain rfl : own = path := Option.some.inj (by rwa [run] at mine)
      simp only [Core.start]
      split
      · exact .inl ⟨_, rfl⟩
      · exact .inl ⟨_, rfl⟩
      · exact .inr ⟨_, rfl⟩
    | acquiring own expected =>
      obtain rfl : own = path := Option.some.inj (by rwa [run] at mine)
      exact .inl ⟨expected, run⟩
    | ended own outcome =>
      obtain rfl : own = path := Option.some.inj (by rwa [run] at mine)
      exact .inr ⟨outcome, run⟩
  rw [turns, after_cons, after_cons, after_nil]
  rcases started with ⟨expected, acquiring⟩ | ⟨outcome, ended⟩
  · have under' : (s.step start .startRun).core.run ≠ .none := by
      rw [acquiring]; exact Run.noConfusion
    rw [core_step_of_run under', Core.react]
    simp only [acquiring]
    exact Core.exists_answer_ended ..
  · exact ⟨outcome, (congrArg Core.run (core_step_of_ended ended answered _)).trans ended⟩

/-- With a server that has one answer, and if nobody shuts the gate down, the run ends in what
loading leads to. -/
theorem Site.ended_of_served (served : history.Serves actual)
    (mine : ((Site.mk (.fresh mode) tree log).after history).core.run.path? = some path)
    (start answered : Stamp) :
    let s :=
      ((Site.mk (.fresh mode) tree log).after history).after (turns start answered (.ok actual))
    ∃ now outcome, s.core.run = .ended path outcome ∧
      (outcome, s.core.tree) = endOf tree path actual (Baseline.load now tree path) ∧
      Stage (.ended path outcome) s.core.progress s.core.tally := by
  intro s
  obtain ⟨outcome, ended⟩ := Site.exists_turns_ended mine start answered (.ok actual)
  have whole :
      s = (Site.mk (.fresh mode) tree log).after (history ++ turns start answered (.ok actual)) :=
    (Site.after_append _ _ _).symm
  have origin :
      Origin tree (history ++ turns start answered (.ok actual)) s.core.run s.core.tree :=
    whole ▸ Site.origin_after mode tree log _
  have stage : Stage s.core.run s.core.progress s.core.tally :=
    whole ▸ (Site.lawful_after (Site.lawful_fresh mode tree log) _).stage
  have ended : s.core.run = .ended path outcome := ended
  rw [ended] at origin stage
  obtain ⟨now, same⟩ := origin.of_served (served.append (serves_turns start answered actual))
  exact ⟨now, outcome, ended, same, stage⟩

/-! ## Two gates, one after the other -/

/-- Where there is no baseline, the first gate makes one of what the server has answered. -/
theorem baselineCreated_of_served {time : Stamp} {defect : Baseline.Defect} {s : Snapshot}
    (unloadable : Baseline.load time tree path = .error (.defect defect))
    (saved : (Baseline.save tree path s).2 = .ok ()) (served : history.Serves s)
    (mine : ((Site.mk (.fresh mode) tree log).after history).core.run.path? = some path)
    (start answered : Stamp) :
    let first :=
      ((Site.mk (.fresh mode) tree log).after history).after (turns start answered (.ok s))
    first.core.run = .ended path (.completed none) ∧
      (∃ ended, first.core.progress = .baselineCreated ended) ∧
      first.core.tree = (Baseline.save tree path s).1 := by
  intro first
  obtain ⟨now, outcome, settled, same, stage⟩ := Site.ended_of_served served mine start answered
  obtain ⟨defect', unloadable'⟩ := Baseline.exists_defect_of_defect unloadable now
  simp only [unloadable', endOf, saved, Core.endOfSaving, Prod.mk.injEq] at same
  obtain ⟨rfl, files⟩ := same
  exact ⟨settled, stage.of_completed_none.1, files⟩

/-- Where a baseline is loaded that is unchanged beside the server's answer, the gate finds
nothing and stores nothing. -/
theorem compared_of_served {known : Snapshot}
    (loaded : ∀ now, Baseline.load now tree path = .ok known)
    (unchanged : known.compare actual = .ok .none) (served : history.Serves actual)
    (mine : ((Site.mk (.fresh mode) tree log).after history).core.run.path? = some path)
    (start answered : Stamp) :
    let second :=
      ((Site.mk (.fresh mode) tree log).after history).after (turns start answered (.ok actual))
    second.core.run = .ended path (.completed (some .none)) ∧
      (∃ ended, second.core.progress = .compared .none ended) ∧
      second.core.tree = tree ∧ second.core.tally.saves = 0 := by
  intro second
  obtain ⟨now, outcome, settled, same, stage⟩ := Site.ended_of_served served mine start answered
  simp only [loaded now, endOf, unchanged, Prod.mk.injEq] at same
  obtain ⟨rfl, files⟩ := same
  obtain ⟨compared, counted⟩ := stage.of_completed_some
  exact ⟨settled, compared, files, by rw [counted]⟩

/-- A first gate, at a path where no JSON baseline can be loaded but one can be saved, is served a
snapshot: as soon as its run is started and answered it has ended and has created the baseline.
Any other gate that is then served the same schema at that path ends with a comparison that finds
nothing, and it has stored nothing. -/
theorem bootstrapped_after {s : Snapshot} (loaded : s.Loaded) (distinct : s.schema.PartsDistinct)
    (suffix : path.suffix ≠ ".yaml" ∧ path.suffix ≠ ".yml") {time : Stamp}
    {defect : Baseline.Defect}
    (unloadable : Baseline.load time tree path = .error (.defect defect))
    (saved : (Baseline.save tree path s).2 = .ok ()) (served : history.Serves s)
    (mine : ((Site.mk (.fresh mode) tree log).after history).gate.run.path? = some path)
    (start answered : Stamp) :
    let first :=
      ((Site.mk (.fresh mode) tree log).after history).after (turns start answered (.ok s))
    first.gate.run = .ended path (.completed none) ∧
      first.gate.progress.status = .baselineCreated ∧
      ∀ (mode' : Mode) (log' : List LogEntry) (history' : History) (actual : Snapshot),
        actual.schema = s.schema → history'.Serves actual →
        ((Site.mk (.fresh mode') first.tree log').after history').gate.run.path? = some path →
        ∀ start' answered' : Stamp,
          let second :=
            ((Site.mk (.fresh mode') first.tree log').after history').after
              (turns start' answered' (.ok actual))
          second.gate.run = .ended path (.completed (some .none)) ∧
            second.gate.progress.status = .valid ∧
            second.gate.progress.result = some .none ∧ second.tree = first.tree ∧
            second.gate.tally.saves = 0 := by
  intro first
  obtain ⟨settled, ⟨ended, created⟩, stored⟩ :=
    baselineCreated_of_served unloadable saved served mine start answered
  have created : first.gate.progress = .baselineCreated ended := created
  have stored : first.tree = (Baseline.save tree path s).1 := stored
  refine ⟨settled, by rw [created], ?_⟩
  intro mode' log' history' actual same served' mine' start' answered' second
  have again (now : Stamp) : Baseline.load now first.tree path = .ok s := by
    rw [stored]
    exact Baseline.load_save now loaded suffix saved
  have unchanged : s.compare actual = .ok .none := by
    rw [Snapshot.compare, same]
    exact Schema.compare_self_of_partsDistinct loaded.sound distinct
  obtain ⟨settled', ⟨ended', compared⟩, untouched, unsaved⟩ :=
    compared_of_served again unchanged served' mine' start' answered'
  have compared : second.gate.progress = .compared .none ended' := compared
  refine ⟨settled', ?_, by rw [compared], untouched, unsaved⟩
  rw [compared]
  rfl

/-- Without any file a gate that warns makes the baseline, and a strict one accepts what another
server answers later. -/
theorem bootstrapped_after_nothing :
    let path : Path := ⟨"", ["schema.json"]⟩
    let s : Snapshot := ⟨.shelf, default, "", ""⟩
    let moved : Snapshot := ⟨.shelf, default, "elsewhere", "2.0"⟩
    let calls : History := [(default, .call .background path), (default, .begin 0)]
    let first :=
      ((Site.mk (.fresh .warn) .empty []).after calls).after (turns default default (.ok s))
    let second :=
      ((Site.mk (.fresh .strict) first.tree []).after calls).after
        (turns default default (.ok moved))
    first.gate.progress.status = .baselineCreated ∧ second.gate.progress.status = .valid ∧
      second.tree = first.tree := by
  intro path s moved calls
  have loaded : s.Loaded := Snapshot.loaded_of_sound Schema.shelf_sound Schema.shelf_shallow
  have unloadable : Baseline.load default .empty path = .error (.defect .notFound) := rfl
  have saved : (Baseline.save .empty path s).2 = .ok () := by
    rw [Baseline.save, Baseline.saveText, Tree.save_top _ rfl (by decide)]
  have served (actual : Snapshot) : calls.Serves actual := ⟨by simp [calls], by simp [calls]⟩
  have mine : ((Site.mk (.fresh .warn) .empty []).after calls).gate.run.path? = some path := rfl
  have mine' (tree : Tree) :
      ((Site.mk (.fresh .strict) tree []).after calls).gate.run.path? = some path := rfl
  obtain ⟨-, created, next⟩ :=
    bootstrapped_after loaded (by decide) (by decide) unloadable saved
      (served s) mine default default
  obtain ⟨-, valid, -, untouched, -⟩ :=
    next .strict [] calls moved rfl (served moved) (mine' _) default default
  exact ⟨created, valid, untouched⟩

end SchemaBaseline.Gate
