import Mathlib.Data.List.Induction
import SchemaBaseline.Proofs.Gate.Move

/-!
# Where the outcome of a run comes from

A run holds what it ended in, and the files hold what it wrote, but neither tells what led there.
`Origin` does: given the files as they were at first and everything that happened, it says for
each state of a run which loading, which answer and which comparison it goes back to, and what has
become of the files. Only a stored baseline has changed them.

`Site.origin_after` shows that every history leaves a gate with such an origin. It is the one
induction behind all statements about what a run does with the baseline and with the answer of the
server.
-/

namespace SchemaBaseline.Gate

open Files (Path Tree)
open Time (Stamp)

/-- What loading came to where the run goes on: the expected schema, or that the file holds no
baseline. -/
def Found (now : Stamp) (tree : Tree) (path : Path) : Option Snapshot → Prop
  | some known => Baseline.load now tree path = .ok known
  | none => ∃ defect, Baseline.load now tree path = .error (.defect defect)

/-- The run has started, and loading has come to this. -/
def Asked (tree : Tree) (history : History) (path : Path) (expected : Option Snapshot) : Prop :=
  ∃ now, (now, .startRun) ∈ history ∧ Found now tree path expected

/-- Where a run and the files come from. -/
inductive Origin (tree : Tree) (history : History) : Run → Tree → Prop
  | idle : Origin tree history .none tree
  | created (path : Path) : Origin tree history (.created path) tree
  | acquiring (path : Path) (expected : Option Snapshot)
    (asked : Asked tree history path expected) :
    Origin tree history (.acquiring path expected) tree
  | unreadable (path : Path) (b : Breakdown) (now : Stamp) (started : (now, .startRun) ∈ history)
    (loaded : Baseline.load now tree path = .error (.broke b)) :
    Origin tree history (.ended path (.broke b)) tree
  | compared (path : Path) (known actual : Snapshot) (result : Findings)
    (asked : Asked tree history path (some known)) (now : Stamp)
    (answered : (now, .acquired (.ok actual)) ∈ history)
    (comparison : known.compare actual = .ok result) :
    Origin tree history (.ended path (.completed (some result))) tree
  | incomparable (path : Path) (known actual : Snapshot) (e : TypeRef.Malformed)
    (asked : Asked tree history path (some known)) (now : Stamp)
    (answered : (now, .acquired (.ok actual)) ∈ history)
    (comparison : known.compare actual = .error e) :
    Origin tree history (.ended path (.broke (.malformedRef e))) tree
  | stored (path : Path) (actual : Snapshot) (asked : Asked tree history path none) (now : Stamp)
    (answered : (now, .acquired (.ok actual)) ∈ history) :
    Origin tree history (.ended path (Core.endOfSaving (Baseline.save tree path actual).2))
      (Baseline.save tree path actual).1
  | refused (path : Path) (expected : Option Snapshot) (message : String)
    (asked : Asked tree history path expected) (now : Stamp)
    (answered : (now, .acquired (.error (.refused message))) ∈ history) :
    Origin tree history (.ended path (.refused message)) tree
  | failed (path : Path) (expected : Option Snapshot) (b : Breakdown)
    (asked : Asked tree history path expected) (now : Stamp)
    (answered : (now, .acquired (.error (.broke b))) ∈ history) :
    Origin tree history (.ended path (.broke b)) tree
  | cancelled (path : Path) (now : Stamp) (e : Event)
    (cause : e = .shutdown ∨ e = .acquired (.error .cancelled)) (happened : (now, e) ∈ history) :
    Origin tree history (.ended path .cancelled) tree

variable {tree : Tree} {history : History}

theorem Asked.mono {longer : History} (grows : history ⊆ longer) {path : Path}
    {expected : Option Snapshot} (asked : Asked tree history path expected) :
    Asked tree longer path expected := by
  obtain ⟨now, started, found⟩ := asked
  exact ⟨now, grows started, found⟩

namespace Origin

variable {now : Stamp} {path : Path} {expected : Option Snapshot} {here : Tree}

theorem of_none (origin : Origin tree history .none here) : here = tree := by
  cases origin
  rfl

theorem of_created (origin : Origin tree history (.created path) here) : here = tree := by
  cases origin
  rfl

theorem of_acquiring (origin : Origin tree history (.acquiring path expected) here) :
    here = tree ∧ Asked tree history path expected := by
  cases origin with
  | acquiring _ _ asked => exact ⟨rfl, asked⟩

theorem mono {longer : History} (grows : history ⊆ longer) {run : Run}
    (origin : Origin tree history run here) :
    Origin tree longer run here := by
  cases origin with
  | idle => exact .idle
  | created path => exact .created path
  | acquiring path expected asked => exact .acquiring path expected (asked.mono grows)
  | unreadable path b now started loaded => exact .unreadable path b now (grows started) loaded
  | compared path known actual result asked now answered comparison =>
    exact .compared path known actual result (asked.mono grows) now (grows answered) comparison
  | incomparable path known actual e asked now answered comparison =>
    exact .incomparable path known actual e (asked.mono grows) now (grows answered) comparison
  | stored path actual asked now answered =>
    exact .stored path actual (asked.mono grows) now (grows answered)
  | refused path expected message asked now answered =>
    exact .refused path expected message (asked.mono grows) now (grows answered)
  | failed path expected b asked now answered =>
    exact .failed path expected b (asked.mono grows) now (grows answered)
  | cancelled path now e cause happened => exact .cancelled path now e cause (grows happened)

/-! ## What the run does keeps its origin known -/

variable {c : Core}

theorem start (sameTree : c.tree = tree) (started : (now, .startRun) ∈ history) :
    Origin tree history (c.start now path).run (c.start now path).tree := by
  subst sameTree
  unfold Core.start
  split
  · rename_i known loaded
    exact .acquiring path (some known) ⟨now, started, loaded⟩
  · rename_i defect loaded
    exact .acquiring path none ⟨now, started, defect, loaded⟩
  · rename_i b loaded
    exact .unreadable path b now started loaded

theorem answer (sameTree : c.tree = tree) (asked : Asked tree history path expected)
    {answer : Acquired} (answered : (now, .acquired answer) ∈ history) :
    Origin tree history (c.answer now path expected answer).run
      (c.answer now path expected answer).tree := by
  subst sameTree
  rcases answer with (message | b | _) | actual
  · exact .refused path expected message asked now answered
  · exact .failed path expected b asked now answered
  · exact .cancelled path now _ (.inr rfl) answered
  · cases expected with
    | none =>
      obtain ⟨ended, files⟩ := c.createBaseline_eq now path actual
      simp only [Core.answer, ended, files]
      exact .stored path actual asked now answered
    | some known =>
      simp only [Core.answer]
      split
      · rename_i result comparison
        exact .compared path known actual result asked now answered comparison
      · rename_i e comparison
        exact .incomparable path known actual e asked now answered comparison

theorem cancel (origin : Origin tree history c.run c.tree) (closed : (now, .shutdown) ∈ history) :
    Origin tree history c.cancel.run c.cancel.tree := by
  unfold Core.cancel
  split
  · rename_i path created
    have sameTree := (created ▸ origin).of_created
    rw [← sameTree] at origin ⊢
    exact .cancelled path now _ (.inl rfl) closed
  · rename_i path expected acquiring
    obtain ⟨sameTree, -⟩ := (acquiring ▸ origin).of_acquiring
    rw [← sameTree] at origin ⊢
    exact .cancelled path now _ (.inl rfl) closed
  · exact origin

theorem react (origin : Origin tree history c.run c.tree) (now : Stamp) (e : Event)
    (happened : (now, e) ∈ history) :
    Origin tree history (c.react now e).run (c.react now e).tree := by
  cases e with
  | startRun =>
    rw [Core.react]
    split
    · rename_i path created
      exact start (created ▸ origin).of_created happened
    · exact origin
  | acquired answer =>
    rw [Core.react]
    split
    · rename_i path expected acquiring
      obtain ⟨sameTree, asked⟩ := (acquiring ▸ origin).of_acquiring
      exact Origin.answer sameTree asked happened
    · exact origin
  | shutdown => exact origin.cancel happened
  | _ => exact origin

end Origin

/-- Every history leaves a gate, and the files around it, with an origin. -/
theorem Site.origin_after (mode : Mode) (tree : Tree) (log : List LogEntry) (history : History) :
    Origin tree history ((Site.mk (.fresh mode) tree log).after history).core.run
      ((Site.mk (.fresh mode) tree log).after history).core.tree := by
  -- From the end, since an origin speaks of all that has happened before.
  induction history using List.reverseRecOn with
  | nil => exact .idle
  | append_singleton earlier moment ih =>
    obtain ⟨now, e⟩ := moment
    rw [after_concat]
    have kept := ih.mono (List.subset_append_left earlier [(now, e)])
    have last : (now, e) ∈ earlier ++ [(now, e)] := List.mem_append_right _ List.mem_cons_self
    rcases core_step ((Site.mk (.fresh mode) tree log).after earlier) now e with
      reacted | ⟨_, c, -, -, -, -, idle, created⟩
    · rw [reacted]
      exact kept.react now e last
    · rw [created]
      rw [idle] at kept
      have sameTree : ((Site.mk (.fresh mode) tree log).after earlier).core.tree = tree :=
        kept.of_none
      simp only [sameTree]
      exact .created c.path

end SchemaBaseline.Gate
