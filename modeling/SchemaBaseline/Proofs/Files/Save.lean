import SchemaBaseline.Files.Tree

/-!
# What saving does to a tree

Making directories only adds nodes, so a tree grows (`Tree.Grows`) and every path that led
somewhere leads there still. Writing a file then changes one place, and never one where a
directory stands; `Tree.save_cases` says both at once. From it follows what there is to say about
saved files: nothing else changes (`Tree.get?_save_of_ne`), what was saved is what is read
(`Tree.Holds.of_save`), and it stays so while nothing else is saved at the same place
(`Tree.Holds.save_elsewhere`).
-/

namespace SchemaBaseline.Files.Tree

/-! ## Growing trees -/

/-- Every node of one tree is in the other. -/
def Grows (old new : Tree) : Prop :=
  ∀ place node, old.get? place = some node → new.get? place = some node

theorem Grows.refl (tree : Tree) : Grows tree tree := fun _ _ found => found

theorem Grows.trans {first second third : Tree} (former : Grows first second)
    (latter : Grows second third) :
    Grows first third :=
  fun place node found => latter place node (former place node found)

theorem Grows.put {tree : Tree} {place : Place} (node : Node) (absent : tree.get? place = none) :
    Grows tree (tree.put place node) := by
  intro other old found
  have ne : other ≠ place := by
    rintro rfl
    rw [absent] at found
    cases found
  rw [get?_put_of_ne tree node ne]
  exact found

theorem Grows.makeDirectory {tree new : Tree} {path : Path}
    (made : tree.makeDirectory path = .ok new) :
    Grows tree new := by
  unfold Tree.makeDirectory at made
  cases resolved : tree.resolve path with
  | error problem => rw [resolved] at made; cases made
  | ok place =>
      rw [resolved] at made
      cases found : tree.get? place with
      | some node => simp only [found] at made; cases made
      | none =>
          simp only [found] at made
          cases made
          exact .put .directory found

/-- Making directories only adds nodes, even when it fails on the way. -/
theorem grows_makeDirectories (tree : Tree) (root : String) (parts : List String) :
    Grows tree (tree.makeDirectories root parts).1 := by
  fun_induction makeDirectories tree root parts with
  | case1 parts _ new made => exact .makeDirectory made
  | case2 => exact .refl tree
  | case3 parts _ _ _ mid e above ih =>
      rw [above] at ih
      exact ih
  | case4 parts _ _ _ mid above new made ih =>
      rw [above] at ih
      exact ih.trans (.makeDirectory made)
  | case5 parts _ _ _ mid above _ ih =>
      rw [above] at ih
      exact ih
  | case6 parts _ _ _ mid above _ _ _ ih =>
      rw [above] at ih
      exact ih
  | case7 => exact .refl tree

/-! ## Paths keep leading where they led -/

/-- Every directory of one tree is one in the other. This is all that resolving a path depends
on. -/
def KeepsDirectories (old new : Tree) : Prop :=
  ∀ place, old.get? place = some .directory → new.get? place = some .directory

theorem Grows.keepsDirectories {old new : Tree} (grows : Grows old new) :
    KeepsDirectories old new :=
  fun place found => grows place .directory found

theorem KeepsDirectories.trans {first second third : Tree}
    (former : KeepsDirectories first second) (latter : KeepsDirectories second third) :
    KeepsDirectories first third :=
  fun place found => latter place (former place found)

theorem KeepsDirectories.put {tree : Tree} {place : Place} (node : Node)
    (notDirectory : tree.get? place ≠ some .directory) :
    KeepsDirectories tree (tree.put place node) := by
  intro other found
  have ne : other ≠ place := by
    rintro rfl
    exact notDirectory found
  rw [get?_put_of_ne tree node ne]
  exact found

theorem KeepsDirectories.enter {old new : Tree} (keeps : KeepsDirectories old new)
    {here place : Place} {parts : List String} (entered : old.enter here parts = .ok place) :
    new.enter here parts = .ok place := by
  fun_induction Tree.enter old here parts with
  | case1 here => exact entered
  | case2 here rest ih =>
      rw [Tree.enter, if_pos rfl]
      exact ih entered
  | case3 => cases entered
  | case4 => cases entered
  | case5 => cases entered
  | case6 here part rest notUp short found ih =>
      rw [Tree.enter, if_neg notUp, if_neg short]
      simp only [keeps _ found]
      exact ih entered

/-- A path that led somewhere leads there still. -/
theorem KeepsDirectories.resolve {old new : Tree} (keeps : KeepsDirectories old new) {path : Path}
    {place : Place} (resolved : old.resolve path = .ok place) : new.resolve path = .ok place := by
  unfold Tree.resolve at resolved ⊢
  by_cases null : path.hasNull = true
  · rw [if_pos null] at resolved
    cases resolved
  rw [if_neg null] at resolved ⊢
  by_cases long : maxPathBytes < path.text.utf8ByteSize
  · rw [if_pos long] at resolved
    cases resolved
  rw [if_neg long] at resolved ⊢
  cases last : path.parts.getLast? with
  | none =>
      rw [last] at resolved
      exact resolved
  | some part =>
      rw [last] at resolved
      cases entered : old.enter [] path.parts.dropLast with
      | error problem =>
          rw [entered] at resolved
          cases resolved
      | ok here =>
          rw [entered] at resolved
          rw [keeps.enter entered]
          exact resolved

/-! ## Saving -/

/-- What saving does: the tree grows, and then at most one place changes, which the path leads to
and where no directory stands. -/
theorem save_cases {tree new : Tree} {path : Path} {content : List UInt8}
    {failure : Option FileError} (saved : tree.save path content = (new, failure)) :
    (Grows tree new ∧ failure ≠ none) ∨
      ∃ mid place, Grows tree mid ∧ mid.resolve path = .ok place ∧
        mid.get? place ≠ some .directory ∧
        new = mid.put place (.file content) ∧ failure = none := by
  unfold Tree.save at saved
  have grows := grows_makeDirectories tree path.root path.parent.parts
  rcases made : tree.makeDirectories path.root path.parent.parts with ⟨mid, _ | e⟩
  · rw [made] at saved grows
    simp only [Tree.write] at saved
    cases resolved : mid.resolve path with
    | error problem =>
        simp only [resolved] at saved
        cases saved
        exact .inl ⟨grows, by simp⟩
    | ok place =>
        simp only [resolved] at saved
        cases found : mid.get? place with
        | none =>
            simp only [found] at saved
            cases saved
            exact .inr ⟨mid, place, grows, resolved, by simp [found], rfl, rfl⟩
        | some node =>
            cases node with
            | directory =>
                simp only [found] at saved
                cases saved
                exact .inl ⟨grows, by simp⟩
            | file old =>
                simp only [found] at saved
                cases saved
                exact .inr ⟨mid, place, grows, resolved, by simp [found], rfl, rfl⟩
  · rw [made] at saved grows
    cases saved
    exact .inl ⟨grows, by simp⟩

theorem keepsDirectories_save (tree : Tree) (path : Path) (content : List UInt8) :
    KeepsDirectories tree (tree.save path content).1 := by
  rcases saved : tree.save path content with ⟨new, failure⟩
  rcases save_cases saved with ⟨grows, -⟩ | ⟨mid, place, grows, -, notDirectory, rfl, -⟩
  · exact grows.keepsDirectories
  · exact grows.keepsDirectories.trans (.put _ notDirectory)

/-- Saving, with or without success, changes nothing that is elsewhere than where the path leads
afterwards. -/
theorem get?_save_of_ne {tree : Tree} {path : Path} {content : List UInt8} {place : Place}
    {node : Node} (found : tree.get? place = some node)
    (elsewhere : (tree.save path content).1.resolve path ≠ .ok place) :
    (tree.save path content).1.get? place = some node := by
  rcases saved : tree.save path content with ⟨new, failure⟩
  rw [saved] at elsewhere
  rcases save_cases saved with ⟨grows, -⟩ | ⟨mid, target, grows, leads, notDirectory, rfl, -⟩
  · exact grows place node found
  · have ne : place ≠ target := by
      rintro rfl
      exact elsewhere ((KeepsDirectories.put _ notDirectory).resolve leads)
    rw [get?_put_of_ne mid _ ne]
    exact grows place node found

/-- A path leads to a file of the given content. -/
def Holds (tree : Tree) (path : Path) (content : List UInt8) : Prop :=
  ∃ place, tree.resolve path = .ok place ∧ tree.get? place = some (.file content)

theorem Holds.find {tree : Tree} {path : Path} {content : List UInt8}
    (holds : tree.Holds path content) :
    tree.find path = .ok (.file content) := by
  obtain ⟨place, resolved, found⟩ := holds
  rw [Tree.find, resolved]
  simp only [bind, Except.bind, found]

theorem Holds.isFile {tree : Tree} {path : Path} {content : List UInt8}
    (holds : tree.Holds path content) :
    tree.isFile path = .ok true := by
  rw [Tree.isFile, Tree.test, holds.find]

theorem Holds.read {tree : Tree} {path : Path} {content : List UInt8}
    (holds : tree.Holds path content) :
    tree.read path = .ok content := by
  rw [Tree.read, holds.find]

/-- A saved file holds what was saved. -/
theorem Holds.of_save {tree new : Tree} {path : Path} {content : List UInt8}
    (saved : tree.save path content = (new, none)) : new.Holds path content := by
  rcases save_cases saved with ⟨-, failed⟩ | ⟨mid, place, -, resolved, notDirectory, rfl, -⟩
  · exact absurd rfl failed
  · have below : place ≠ [] := by
      rintro rfl
      exact notDirectory rfl
    exact ⟨place, (KeepsDirectories.put _ notDirectory).resolve resolved,
      get?_put_self mid _ below⟩

/-- Saving at another place, with or without success, leaves a file as it is. -/
theorem Holds.save_elsewhere {tree : Tree} {path other : Path} {content data : List UInt8}
    (holds : tree.Holds path content)
    (elsewhere : (tree.save other data).1.resolve other ≠ (tree.save other data).1.resolve path) :
    (tree.save other data).1.Holds path content := by
  obtain ⟨place, resolved, found⟩ := holds
  have stays := (keepsDirectories_save tree other data).resolve resolved
  exact ⟨place, stays, get?_save_of_ne found (stays ▸ elsewhere)⟩

/-- A file at the top needs no directories: it is added, or replaced. -/
theorem save_top {tree : Tree} {name : String} (content : List UInt8)
    (leads : tree.resolve ⟨"", [name]⟩ = .ok [name])
    (notDirectory : tree.get? [name] ≠ some .directory) :
    tree.save ⟨"", [name]⟩ content = (tree.put [name] (.file content), none) := by
  have made : tree.makeDirectories "" [] = (tree, none) := by
    rw [makeDirectories]
    rfl
  have written : tree.write ⟨"", [name]⟩ content = .ok (tree.put [name] (.file content)) := by
    rw [Tree.write, leads]
    cases found : tree.get? [name] with
    | none => simp only [found]
    | some node =>
        cases node with
        | directory => exact absurd found notDirectory
        | file old => simp only [found]
  have above : (⟨"", [name]⟩ : Path).parent.parts = [] := rfl
  simp only [save, above, made, written]

end SchemaBaseline.Files.Tree
