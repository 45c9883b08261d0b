import SchemaBaseline.Proofs.Baseline.Saves
import SchemaBaseline.Proofs.CommandLine.Steps
import SchemaBaseline.Proofs.Introspection.Assembly

/-!
# A failed introspection does no harm

Fetching a schema and storing it can end in four ways, with the files in four states:
`Introspected` lists them. The schema is not even had, and nothing has been touched; its baseline
cannot be saved, and no file has changed; the text of the schema cannot be saved, and only the
baseline is new; or both are new. `introspect_harmless` draws the conclusions. What is stored is
in no state between old and new, and the exit code is zero only if both files are new and hold
what has been acquired.
-/

namespace SchemaBaseline.CommandLine

open Files (Path Place Tree)
open Introspection (AcquireError Client Exchange Server)
open Time (Stamp)

/-- How an introspection ends, and with which files, by what the server has been good for. -/
inductive Introspected (tree : Tree) (json sdl : Path) (pinged : Except Breakdown Bool)
    (acquired : Except AcquireError Snapshot) : Exit → Tree → Prop
  | unserved (exit : Exit) (cause : pinged ≠ .ok true ∨ ∃ e, acquired = .error e)
    (failed : exit ≠ .code 0) :
    Introspected tree json sdl pinged acquired exit tree
  | unsaved (s : Snapshot) (failure : Baseline.SaveFailure) (present : pinged = .ok true)
    (served : acquired = .ok s) (failed : (Baseline.save tree json s).2 = .error failure) :
    Introspected tree json sdl pinged acquired (Desk.exitOf failure) (Baseline.save tree json s).1
  | halfSaved (s : Snapshot) (exit : Exit) (e : Baseline.SdlFailure) (present : pinged = .ok true)
    (served : acquired = .ok s) (saved : (Baseline.save tree json s).2 = .ok ())
    (unsaved : (Baseline.saveSdl (Baseline.save tree json s).1 sdl s).2 = .error e)
    (failed : exit ≠ .code 0) :
    Introspected tree json sdl pinged acquired exit
      (Baseline.saveSdl (Baseline.save tree json s).1 sdl s).1
  | saved (s : Snapshot) (present : pinged = .ok true) (served : acquired = .ok s)
    (saved : (Baseline.save tree json s).2 = .ok ())
    (savedSdl : (Baseline.saveSdl (Baseline.save tree json s).1 sdl s).2 = .ok ()) :
    Introspected tree json sdl pinged acquired (.code 0)
      (Baseline.saveSdl (Baseline.save tree json s).1 sdl s).1

/-! ## The command ends in one of these ways -/

/-- Both files are stored, one after the other, by a desk that has a schema. -/
theorem introspected_storing (d : Desk) {json sdl : Path} {pinged : Except Breakdown Bool}
    {acquired : Except AcquireError Snapshot} {s : Snapshot} (present : pinged = .ok true)
    (served : acquired = .ok s) {tree : Tree} (untouched : d.tree = tree) :
    let o := d.saving json s fun d => d.savingSdl sdl s Desk.succeed
    Introspected tree json sdl pinged acquired o.exit o.tree := by
  intro o
  subst untouched
  rcases d.saving_cases json s fun d => d.savingSdl sdl s Desk.succeed with
    ⟨d', saved, files, goesOn⟩ | ⟨failure, failed, exit, files⟩
  · have handedOn : o = d'.savingSdl sdl s Desk.succeed := goesOn
    rcases d'.savingSdl_cases sdl s Desk.succeed with
      ⟨d'', savedSdl, files', goesOn'⟩ | ⟨e, unsaved, failed, files'⟩
    · rw [files] at savedSdl files'
      rw [handedOn, goesOn', show d''.succeed.tree = _ from files']
      exact .saved s present served saved savedSdl
    · rw [files] at unsaved files'
      rw [handedOn, files']
      exact .halfSaved s _ e present served saved unsaved failed
  · rw [show o.exit = _ from exit, show o.tree = _ from files]
    exact .unsaved s failure present served failed

theorem introspected_introspect (d : Desk) (now : Stamp) (client : Client) (server : Server)
    (json sdl : Path) (summary : Bool) :
    let pinged := client.ping server d.exchange
    let o := d.introspect now client server json sdl summary
    Introspected d.tree json sdl pinged.1
        (client.acquire now server pinged.2).1 o.exit o.tree := by
  intro pinged o
  have unfolded : o = d.introspect now client server json sdl summary := rfl
  have answer : client.ping server
      (d.say s!"Connecting to Suwayomi server at {client.server}...").exchange = pinged := rfl
  simp only [Desk.introspect, answer] at unfolded
  clear_value pinged o
  obtain ⟨b | _ | _, x⟩ := pinged
  · subst unfolded
    exact .unserved _ (.inl (fun same => by cases same)) Exit.noConfusion
  · subst unfolded
    exact .unserved _ (.inl (fun same => by cases same)) fun same =>
      absurd (Exit.code.inj same) (by decide)
  · simp only at unfolded
    rcases Desk.withAcquired_cases _ now client server _ with
      ⟨s, served, goesOn⟩ | ⟨e, failed, fails, -⟩
    · rw [goesOn] at unfolded
      subst unfolded
      exact introspected_storing _ rfl served (by split <;> rfl)
    · rw [← unfolded] at fails
      have untouched : o.tree = d.tree := fails.tree
      rw [untouched]
      exact .unserved _ (.inr ⟨e, failed⟩) fails.exit

/-! ## What becomes of the files -/

namespace Introspected

variable {tree new : Tree} {json sdl : Path} {pinged : Except Breakdown Bool}
    {acquired : Except AcquireError Snapshot} {exit : Exit}

/-- Without a schema nothing is touched. -/
theorem of_unserved (ended : Introspected tree json sdl pinged acquired exit new)
    (cause : pinged ≠ .ok true ∨ ∃ e, acquired = .error e) : exit ≠ .code 0 ∧ new = tree := by
  have impossible {s : Snapshot} (present : pinged = .ok true) (served : acquired = .ok s) :
      False := by
    rcases cause with absent | ⟨e, failed⟩
    · exact absent present
    · cases failed.symm.trans served
  cases ended with
  | unserved _ _ failed => exact ⟨failed, rfl⟩
  | unsaved s _ present served => exact (impossible present served).elim
  | halfSaved s _ _ present served => exact (impossible present served).elim
  | saved s present served => exact (impossible present served).elim

/-- Where the baseline cannot be saved, no file changes. -/
theorem of_unsaved (ended : Introspected tree json sdl pinged acquired exit new)
    (rooted : tree.Rooted) {s : Snapshot} {failure : Baseline.SaveFailure}
    (present : pinged = .ok true) (served : acquired = .ok s)
    (failed : (Baseline.save tree json s).2 = .error failure) :
    exit = Desk.exitOf failure ∧ ∀ place, Tree.SameFile place tree new := by
  cases ended with
  | unserved _ cause =>
    rcases cause with absent | ⟨e, failed⟩
    · exact absurd present absent
    · cases failed.symm.trans served
  | unsaved s' failure' _ served' failed' =>
    cases served.symm.trans served'
    cases failed.symm.trans failed'
    exact ⟨rfl, Baseline.sameFile_of_unsaved rooted failed⟩
  | halfSaved s' _ _ _ served' saved =>
    cases served.symm.trans served'
    cases failed.symm.trans saved
  | saved s' _ served' saved =>
    cases served.symm.trans served'
    cases failed.symm.trans saved

/-- After a success both files hold what has been acquired. -/
theorem of_zero (ended : Introspected tree json sdl pinged acquired exit new)
    (zero : exit = .code 0) (distinct : json.target ≠ sdl.target) :
    ∃ s text, acquired = .ok s ∧ s.sdl = .ok text ∧ new.Holds sdl (Text.Utf8.encode text) ∧
      new.Holds json (Text.Utf8.encode (Baseline.textOf (Baseline.formatOf json) s)) := by
  cases ended with
  | unserved _ _ failed => exact absurd zero failed
  | unsaved s failure => exact absurd zero (Desk.exitOf_ne_zero failure)
  | halfSaved s exit e _ _ _ _ failed => exact absurd zero failed
  | saved s _ served saved savedSdl =>
    obtain ⟨text, printed, holds⟩ := Baseline.holds_of_saveSdl savedSdl
    have first := Baseline.holds_of_save rfl (Prod.ext rfl saved)
    exact ⟨s, text, served, printed, holds, Baseline.holds_saveSdl_of_target_ne first distinct⟩

/-- Only the two files can be others than before, the second one only after a success. Where the
first one is new it is complete. -/
theorem sameFile (ended : Introspected tree json sdl pinged acquired exit new)
    (rooted : tree.Rooted)
    (distinct : json.target ≠ sdl.target) :
    (∀ place, place ≠ json.target → place ≠ sdl.target → Tree.SameFile place tree new) ∧
      (exit ≠ .code 0 → Tree.SameFile sdl.target tree new) ∧
      (Tree.SameFile json.target tree new ∨
        ∃ s, acquired = .ok s ∧ new.Holds json
          (Text.Utf8.encode (Baseline.textOf (Baseline.formatOf json) s))) := by
  -- Storing the text of the schema comes after storing the baseline.
  have beside (s : Snapshot) {place : Place} (notJson : place ≠ json.target)
      (notSdl : place ≠ sdl.target ∨
        (Baseline.saveSdl (Baseline.save tree json s).1 sdl s).2 ≠ .ok ()) :
      Tree.SameFile place tree (Baseline.saveSdl (Baseline.save tree json s).1 sdl s).1 := by
    obtain ⟨rooted', first⟩ :=
      Baseline.saveText_sameFile rooted json (Baseline.textOf (Baseline.formatOf json) s)
    exact (first place (.inl notJson)).trans
      (Baseline.saveSdl_sameFile rooted' sdl s place notSdl)
  have complete {s : Snapshot} (saved : (Baseline.save tree json s).2 = .ok ()) :
      (Baseline.saveSdl (Baseline.save tree json s).1 sdl s).1.Holds json
        (Text.Utf8.encode (Baseline.textOf (Baseline.formatOf json) s)) :=
    Baseline.holds_saveSdl_of_target_ne (Baseline.holds_of_save rfl (Prod.ext rfl saved)) distinct
  cases ended with
  | unserved =>
    exact ⟨fun place _ _ => .refl place tree, fun _ => .refl _ tree, .inl (.refl _ tree)⟩
  | unsaved s e _ _ failed =>
    have all := Baseline.sameFile_of_unsaved rooted failed
    exact ⟨fun place _ _ => all place, fun _ => all _, .inl (all _)⟩
  | halfSaved s _ e _ served saved failed =>
    have unsaved : (Baseline.saveSdl (Baseline.save tree json s).1 sdl s).2 ≠ .ok () :=
      fun saved' => by
      cases failed.symm.trans saved'
    exact ⟨fun place notJson notSdl => beside s notJson (.inl notSdl),
      fun _ => beside s distinct.symm (.inr unsaved), .inr ⟨s, served, complete saved⟩⟩
  | saved s _ served saved =>
    exact ⟨fun place notJson notSdl => beside s notJson (.inl notSdl),
      fun failed => absurd rfl failed, .inr ⟨s, served, complete saved⟩⟩

end Introspected

/-- Whatever the server answers, and whatever files there are: a command line that asks for an
introspection with two distinct files touches nothing if the ping fails or no schema can be
acquired. If the baseline cannot be saved, no file has changed, and the exit code is one unless
saving breaks down. The exit code is zero only if a schema has been acquired, the second file
holds its text, and the baseline is loaded from the first, at any time, as what has been acquired.
In no case is any other file changed. The second file stays what it is without success, and the
first one stays what it is or is complete. -/
theorem introspect_harmless {env : Settings.Environment} {settings : Settings}
    {args : List String} {verbose summary : Bool} {address : String} {json sdl : Path}
    {tree : Tree} (configured : Settings.load env [] = .ok settings)
    (asked : Invocation.parse settings args = .ok ⟨verbose, .introspect address json sdl summary⟩)
    (rooted : tree.Rooted) (distinct : json.target ≠ sdl.target) (now : Stamp) (server : Server) :
    let client := settings.client address 0
    let pinged := client.ping server ⟨[], Settings.loadLog env []⟩
    let acquired := client.acquire now server pinged.2
    let o := run now env server tree args
    (pinged.1 ≠ .ok true ∨ (∃ e, acquired.1 = .error e) → o.exit ≠ .code 0 ∧ o.tree = tree) ∧
    (∀ s failure, pinged.1 = .ok true → acquired.1 = .ok s →
      (Baseline.save tree json s).2 = .error failure →
      o.exit = Desk.exitOf failure ∧ ∀ place, Tree.SameFile place tree o.tree) ∧
    (o.exit = .code 0 → ∃ s text, acquired.1 = .ok s ∧ s.sdl = .ok text ∧
      o.tree.Holds sdl (Text.Utf8.encode text) ∧
      (json.suffix ≠ ".yaml" ∧ json.suffix ≠ ".yml" → (∀ ref ∈ s.schema.refs, ref.depth ≤ 200) →
        ∀ later, Baseline.load later o.tree json = .ok s)) ∧
    (∀ place, place ≠ json.target → place ≠ sdl.target → Tree.SameFile place tree o.tree) ∧
    (o.exit ≠ .code 0 → Tree.SameFile sdl.target tree o.tree) ∧
    (Tree.SameFile json.target tree o.tree ∨
      ∃ s, acquired.1 = .ok s ∧ o.tree.Holds json
        (Text.Utf8.encode (Baseline.textOf (Baseline.formatOf json) s))) := by
  intro client pinged acquired o
  have ended : Introspected tree json sdl pinged.1 acquired.1 o.exit o.tree := by
    rw [show o = _ from run_of_parse configured asked now server tree]
    exact introspected_introspect { Desk.opening env tree verbose with
      client } now client server json sdl summary
  obtain ⟨others, second, first⟩ := ended.sameFile rooted distinct
  refine ⟨ended.of_unserved, fun s failure present served failed =>
    ended.of_unsaved rooted present served failed, fun zero => ?_, others, second, first⟩
  obtain ⟨s, text, served, printed, holdsSdl, holds⟩ := ended.of_zero zero distinct
  refine ⟨s, text, served, printed, holdsSdl, fun suffix shallow later => ?_⟩
  have sound := (Introspection.Client.loaded_of_acquire served).sound
  have format := Baseline.formatOf_eq_json suffix
  rw [format] at holds
  exact Baseline.load_of_holds later sound (TypeRef.shallow_of_le shallow) format holds

/-- A server that is there but does not answer the query leaves what is stored alone. -/
theorem introspect_harmless_unanswered :
    let json : Path := ⟨"", ["schema", "suwayomi_schema.json"]⟩
    let sdl : Path := ⟨"", ["schema", "suwayomi_schema.graphql"]⟩
    let tree : Tree :=
      (Tree.empty.put ["schema"] .directory).put ["schema", "suwayomi_schema.json"]
        (.file [104, 105])
    let server : Server := .ofScript [] [.answer ⟨200⟩ []]
    let o := run default [] server tree ["introspect"]
    tree.Rooted ∧ json.target ≠ sdl.target ∧ o.exit ≠ .code 0 ∧ o.tree = tree := by
  intro json sdl tree server o
  have rooted : tree.Rooted := (Tree.rooted_empty.put rfl (.inl rfl)).put rfl (.inr (by decide))
  have configured : Settings.load [] [] = .ok .default := rfl
  have asked : Invocation.parse .default ["introspect"] =
      .ok ⟨false, .introspect "http://localhost:4567" json sdl false⟩ := rfl
  have distinct : json.target ≠ sdl.target := by decide
  obtain ⟨unserved, -⟩ := introspect_harmless configured asked rooted distinct default server
  have refused : ((Settings.default.client "http://localhost:4567" 0).acquire default server
      ⟨[.about], []⟩).1 = .error (.refused (.unreachable "no scripted response")) := rfl
  exact ⟨rooted, distinct, unserved (.inr ⟨_, refused⟩)⟩

end SchemaBaseline.CommandLine
