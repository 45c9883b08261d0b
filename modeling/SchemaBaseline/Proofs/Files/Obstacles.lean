import SchemaBaseline.Proofs.Files.Target

/-!
# Saving, with and without success

A file is saved in two steps. First the directories above it are made, from the top down; if
something is in the way the ones made so far remain. Then the file is written. `Stores` says all
there is to say about the files after a success and `Spares` after a failure, and
`Rooted.stores_or_spares` that there is no third outcome. A save fails just if the path is
obstructed: by a file above its target, by a directory at it, because a name or the whole path is
too long, or because the path holds a null character.

The directories are accounted for by `Extends`: a tree to which nothing has been added but
directories that a path goes by. Making directories keeps this up step by step (`Prepares`).
-/

namespace SchemaBaseline.Files.Tree

variable {tree mid old new : Tree} {path : Path} {place : Place}

/-! ## Trees with further directories -/

/-- A path goes by a directory that has not been there before. -/
structure Made (path : Path) (old new : Tree) (place : Place) : Prop where
  absent : old.get? place = none
  directory : new.get? place = some .directory
  passes : path.Passes place

/-- Nothing has changed, but for directories that have been made along a path. -/
def Extends (path : Path) (old new : Tree) : Prop :=
  ∀ place, new.get? place = old.get? place ∨ Made path old new place

theorem Extends.refl (path : Path) (tree : Tree) : Extends path tree tree :=
  fun _ => .inl rfl

theorem Extends.trans (former : Extends path old mid) (latter : Extends path mid new) :
    Extends path old new := by
  intro place
  rcases latter place with same | made
  · rcases former place with same' | made
    · exact .inl (same.trans same')
    · exact .inr ⟨made.absent, same.trans made.directory, made.passes⟩
  · rcases former place with same | earlier
    · exact .inr ⟨same.symm.trans made.absent, made.directory, made.passes⟩
    · cases made.absent.symm.trans earlier.directory

theorem Extends.of_parent (extends' : Extends path.parent old new) : Extends path old new :=
  fun place =>
  (extends' place).imp_right fun made => ⟨made.absent, made.directory, made.passes.of_parent⟩

/-- What has been there is there still. -/
theorem Extends.grows (extends' : Extends path old new) : Grows old new := by
  intro place node found
  rcases extends' place with same | made
  · rw [same, found]
  · cases made.absent.symm.trans found

/-- Below a directory that has been made there is nothing but directories that have been made. -/
theorem Extends.made_of_below (extends' : Extends path old new) (rooted : old.Rooted)
    (made : Made path old new place) {below : Place} (under : place <+: below)
    (found : new.get? below ≠ none) : Made path old new below := by
  rcases extends' below with same | made'
  · obtain ⟨node, found'⟩ := Option.ne_none_iff_exists'.mp (same ▸ found)
    by_cases itself : place = below
    · exact itself ▸ made
    · cases made.absent.symm.trans (rooted.get?_of_prefix found' under itself)
  · exact made'

/-- There is the same file at a place as before, if there is one. -/
def SameFile (place : Place) (old new : Tree) : Prop :=
  ∀ content, new.get? place = some (.file content) ↔ old.get? place = some (.file content)

theorem SameFile.refl (place : Place) (tree : Tree) : SameFile place tree tree :=
  fun _ => .rfl

theorem SameFile.trans (former : SameFile place old mid) (latter : SameFile place mid new) :
    SameFile place old new :=
  fun content => (latter content).trans (former content)

/-- Making a directory where nothing has been is not making a file. -/
theorem sameFile_of_eq_or_made
    (kept : new.get? place = old.get? place ∨ Made path old new place) :
    SameFile place old new := by
  intro content
  rcases kept with same | made
  · rw [same]
  · simp only [made.absent, made.directory, Option.some.injEq, reduceCtorEq]

/-! ## Obstacles -/

/-- What keeps a path from leading to a directory that is there or can be made. -/
inductive Barred (tree : Tree) (path : Path) : Prop
  | file (parts : List String) (content : List UInt8) (isPrefix : parts <+: path.parts)
    (found : tree.get? (placeOf parts) = some (.file content))
  | longName (part : String) (member : part ∈ path.parts)
    (long : maxNameBytes < part.utf8ByteSize)
  | longPath (long : maxPathBytes < path.text.utf8ByteSize)
  | null (null : path.hasNull = true)

theorem Barred.of_parent (barred : tree.Barred path.parent) : tree.Barred path := by
  cases barred with
  | file parts content isPrefix found =>
    exact .file parts content (isPrefix.trans (List.dropLast_prefix _)) found
  | longName part member long => exact .longName part (List.dropLast_subset _ member) long
  | longPath long =>
    exact .longPath (Nat.not_le.mp fun short => Nat.not_le.mpr long (path.size_text_parent short))
  | null null => exact .null (Path.hasNull_of_parent null)

/-- What keeps a file from being saved at a path. -/
inductive Obstructed (tree : Tree) (path : Path) : Prop
  | above (barred : tree.Barred path.parent)
  | directory (found : tree.get? path.target = some .directory)
  | longName (long : maxNameBytes < path.name.utf8ByteSize)
  | longPath (long : maxPathBytes < path.text.utf8ByteSize)
  | null (null : path.hasNull = true)

/-- Where all components can be walked, no file and no name bars them. -/
theorem Rooted.not_barred (rooted : tree.Rooted) (walks : tree.Walks path.parts)
    (short : path.text.utf8ByteSize ≤ maxPathBytes) (whole : path.hasNull = false) :
    ¬ tree.Barred path := by
  obtain ⟨shorts, directories⟩ := rooted.walks_iff.mp walks
  rintro (⟨parts, content, isPrefix, found⟩ | ⟨part, member, long⟩ | long | null)
  · cases (directories parts isPrefix).symm.trans found
  · exact absurd long (Nat.not_lt.mpr (shorts part member))
  · exact absurd long (Nat.not_lt.mpr short)
  · exact Bool.false_ne_true (whole.symm.trans null)

/-- Unless something is merely missing, there is an obstacle if a path leads nowhere. -/
theorem barred_of_resolve {problem : Problem} (failed : tree.resolve path = .error problem)
    (present : problem ≠ .notFound) :
    tree.Barred path := by
  rcases resolve_error_cases failed with ⟨-, null⟩ | ⟨-, long | long⟩ | failed
  · exact .null null
  · exact .longPath long
  · exact .longName path.name (Path.name_mem_parts (Nat.zero_lt_of_lt long)) long
  · rcases enter_error_cases failed with ⟨-, part, member, long⟩ | missing |
      ⟨-, first, content, isPrefix, found⟩
    · exact .longName part (List.dropLast_subset _ member) long
    · exact absurd missing present
    · exact .file first content (isPrefix.trans (List.dropLast_prefix _)) found

/-! ## Making a directory -/

theorem makeDirectory_eq_ok_iff : tree.makeDirectory path = .ok new ↔
    tree.Leads path ∧ tree.get? path.target = none ∧ new = tree.put path.target .directory := by
  unfold makeDirectory
  constructor
  · intro made
    split at made
    · cases made
    · rename_i place resolved
      obtain ⟨leads, rfl⟩ := resolve_eq_ok_iff.mp resolved
      split at made
      · cases made
      · rename_i absent
        exact ⟨leads, absent, (Except.ok.inj made).symm⟩
  · rintro ⟨leads, absent, rfl⟩
    simp only [leads.resolve, absent]

/-- Why no directory can be made: the path leads nowhere, or something is there. -/
theorem makeDirectory_error_cases {problem : Problem}
    (failed : tree.makeDirectory path = .error problem) :
    tree.resolve path = .error problem ∨ problem = .exists ∧ tree.Leads path ∧
      tree.get? path.target ≠ none := by
  unfold makeDirectory at failed
  split at failed
  · rename_i other resolved
    cases failed
    exact .inl resolved
  · rename_i place resolved
    obtain ⟨leads, rfl⟩ := resolve_eq_ok_iff.mp resolved
    split at failed
    · rename_i node found
      cases failed
      exact .inr ⟨rfl, leads, by rw [found]; exact Option.some_ne_none node⟩
    · cases failed

theorem unlessDirectory_eq_none_iff {problem : Problem} :
    tree.unlessDirectory path problem = none ↔
    tree.Leads path ∧ tree.get? path.target = some .directory := by
  cases resolved : tree.resolve path with
  | error other =>
    have nowhere : ¬ tree.Leads path := fun leads => by cases leads.resolve.symm.trans resolved
    refine iff_of_false ?_ fun ⟨leads, _⟩ => nowhere leads
    cases other <;>
      simp [unlessDirectory, isDirectory, test, find, resolved, bind, Except.bind]
  | ok place =>
    obtain ⟨leads, rfl⟩ := resolve_eq_ok_iff.mp resolved
    rcases found : tree.get? path.target with _ | _ | content
    · simp [unlessDirectory, isDirectory, test, find, resolved, found, bind, Except.bind]
    · simp [unlessDirectory, isDirectory, test, find, resolved, found, leads, bind, Except.bind]
    · have differs : (Node.file content == .directory) = false := rfl
      simp [unlessDirectory, isDirectory, test, find, resolved, found, differs, bind, Except.bind]

/-- If no directory is there, that is the problem, unless the path is too long to be looked at. -/
theorem problem_of_unlessDirectory {problem : Problem} {e : FileError}
    (failed : tree.unlessDirectory path problem = some e) :
    e.problem = problem ∨ e.problem = .nameTooLong := by
  unfold unlessDirectory isDirectory test at failed
  split at failed
  · cases failed
  · cases failed
    exact .inl rfl
  · rename_i asked
    cases failed
    split at asked <;> cases asked
    exact .inr rfl

theorem Rooted.walks_of_leads (rooted : tree.Rooted) (leads : tree.Leads path)
    (directory : tree.get? path.target = some .directory) : tree.Walks path.parts := by
  rcases path.parts_cases with ⟨parts, -, -⟩ | ⟨front, last, parts, front', name⟩
  · rw [parts]
    rfl
  · have walks := leads.walks
    have named := leads.named
    rw [front'] at walks
    rw [name] at named
    rw [Path.target, parts] at directory
    rw [parts]
    exact rooted.walks_concat_iff.mpr ⟨walks, named, directory⟩

/-! ## Making directories -/

/-- What making the directories of a path comes to, without or with a failure. -/
structure Prepares (path : Path) (old new : Tree) (failure : Option FileError) : Prop where
  extended : Extends path old new
  rooted : new.Rooted
  walks : failure = none → new.Walks path.parts
  barred : failure ≠ none → new.Barred path
  null : ∀ e, failure = some e → e.problem = .nullCharacter → path.hasNull = true

namespace Prepares

theorem of_made (rooted : tree.Rooted) (made : tree.makeDirectory path = .ok new) :
    Prepares path tree new none := by
  obtain ⟨leads, absent, rfl⟩ := makeDirectory_eq_ok_iff.mp made
  have rooted' : (tree.put path.target .directory).Rooted :=
    rooted.put (rooted.directory_dropLast_target leads) (.inl rfl)
  have below : path.target ≠ [] := fun top => by
    rw [top] at absent
    cases absent
  have found : (tree.put path.target .directory).get? path.target = some .directory :=
    get?_put_self tree .directory below
  have keeps := (Grows.put .directory absent).keepsDirectories
  refine ⟨fun place => ?_, rooted', fun _ => ?_, fun failed => absurd rfl failed,
    fun e failed => ?_⟩
  · by_cases same : place = path.target
    · subst same
      exact .inr ⟨absent, found, path.passes_target⟩
    · exact .inl (get?_put_of_ne tree .directory same)
  · exact rooted'.walks_of_leads
      ⟨leads.whole, leads.short, leads.named, keeps.enter leads.walks⟩ found
  · cases failed

/-- Where no directory can be made, although nothing is missing, either there is one or there is
an obstacle. -/
theorem of_present (rooted : tree.Rooted) {problem : Problem}
    (failed : tree.makeDirectory path = .error problem) (present : problem ≠ .notFound) :
    Prepares path tree tree (tree.unlessDirectory path problem) := by
  refine ⟨.refl path tree, rooted, fun there => ?_, fun refused => ?_, fun e refused null => ?_⟩
  · obtain ⟨leads, directory⟩ := unlessDirectory_eq_none_iff.mp there
    exact rooted.walks_of_leads leads directory
  · rcases makeDirectory_error_cases failed with nowhere | ⟨-, leads, there⟩
    · exact barred_of_resolve nowhere present
    · rcases found : tree.get? path.target with _ | _ | content
      · exact absurd found there
      · exact absurd (unlessDirectory_eq_none_iff.mpr ⟨leads, found⟩) refused
      · exact .file path.parts content List.prefix_rfl found
  · rcases problem_of_unlessDirectory refused with same | other
    · rw [← same, null] at failed
      rcases makeDirectory_error_cases failed with nowhere | ⟨other, -⟩
      · exact hasNull_of_resolve nowhere
      · cases other
    · cases null.symm.trans other

theorem of_parent_failed {e : FileError} (above : Prepares path.parent old new (some e)) :
    Prepares path old new (some e) :=
  ⟨above.extended.of_parent, above.rooted, fun none => (by cases none),
    fun failed => (above.barred failed).of_parent,
    fun e failed null => Path.hasNull_of_parent (above.null e failed null)⟩

theorem after_parent {failure : Option FileError} (above : Prepares path.parent old mid none)
    (last : Prepares path mid new failure) : Prepares path old new failure :=
  ⟨above.extended.of_parent.trans last.extended, last.rooted, last.walks, last.barred, last.null⟩

end Prepares

/-- Once the parent of a path can be walked, nothing is missing any more. -/
theorem makeDirectory_ne_notFound (walks : tree.Walks path.parent.parts) :
    tree.makeDirectory path ≠ .error .notFound := by
  intro failed
  rcases makeDirectory_error_cases failed with nowhere | ⟨other, -⟩
  · rcases resolve_error_cases nowhere with ⟨other, -⟩ | ⟨other, -⟩ | failed
    · cases other
    · cases other
    · cases walks.symm.trans failed
  · cases other

theorem prepares_makeDirectories (rooted : tree.Rooted) (root : String) (parts : List String) :
    Prepares ⟨root, parts⟩ tree (tree.makeDirectories root parts).1
      (tree.makeDirectories root parts).2 := by
  fun_induction makeDirectories tree root parts with
  | case1 parts path new made => exact .of_made rooted made
  | case2 path missing => exact absurd missing (makeDirectory_ne_notFound rfl)
  | case3 parts path missing unempty mid e made ih =>
    have above : Prepares (Path.mk root parts).parent tree mid (some e) := by rwa [made] at ih
    exact above.of_parent_failed
  | case4 parts path missing unempty mid made new last ih =>
    have above : Prepares (Path.mk root parts).parent tree mid none := by rwa [made] at ih
    exact above.after_parent (.of_made above.rooted last)
  | case5 parts path missing unempty mid made missing' ih =>
    have above : Prepares (Path.mk root parts).parent tree mid none := by rwa [made] at ih
    exact absurd missing' (makeDirectory_ne_notFound (above.walks rfl))
  | case6 parts path missing unempty mid made problem present failed ih =>
    have above : Prepares (Path.mk root parts).parent tree mid none := by rwa [made] at ih
    exact above.after_parent (.of_present above.rooted failed present)
  | case7 parts path problem present failed => exact .of_present rooted failed present

/-! ## Saving -/

/-- The target holds the whole content, and all directories above it are there. Nothing else has
changed, but for directories above the target that were missing. -/
structure Stores (path : Path) (content : List UInt8) (old new : Tree) : Prop where
  holds : new.Holds path content
  content : new.get? path.target = some (.file content)
  above : ∀ place, path.parent.Passes place → new.get? place = some .directory
  elsewhere : ∀ place, place ≠ path.target → new.get? place = old.get? place ∨
    Made path.parent old new place
  free : ¬ new.Obstructed path
  rooted : new.Rooted

/-- Nothing has changed, but for directories above the target that were missing, and in these
there is nothing else. Something is in the way. -/
structure Spares (path : Path) (old new : Tree) : Prop where
  everywhere : Extends path.parent old new
  empty : ∀ place, Made path.parent old new place → ∀ below, place <+: below →
    new.get? below ≠ none →
    Made path.parent old new below
  obstructed : new.Obstructed path
  rooted : new.Rooted

theorem Stores.sameFile {content : List UInt8} (stores : Stores path content old new)
    (elsewhere : place ≠ path.target) :
    SameFile place old new :=
  sameFile_of_eq_or_made (stores.elsewhere place elsewhere)

theorem Spares.sameFile (spares : Spares path old new) (place : Place) : SameFile place old new :=
  sameFile_of_eq_or_made (spares.everywhere place)

theorem Prepares.spares {failure : Option FileError} (rooted : old.Rooted)
    (above : Prepares path.parent old new failure) (obstructed : new.Obstructed path) :
    Spares path old new where
  everywhere := above.extended
  empty _ made _ under found := above.extended.made_of_below rooted made under found
  obstructed := obstructed
  rooted := above.rooted

/-- Writing the file where no directory stands completes what making the directories has begun. -/
theorem Prepares.stores (above : Prepares path.parent old mid none) (leads : mid.Leads path)
    (notDirectory : mid.get? path.target ≠ some .directory) (content : List UInt8) :
    Stores path content old (mid.put path.target (.file content)) := by
  have below : path.target ≠ [] := fun top => notDirectory (top ▸ rfl)
  have stored := get?_put_self mid (.file content) below
  have keeps : KeepsDirectories mid (mid.put path.target (.file content)) := .put _ notDirectory
  have rooted : (mid.put path.target (.file content)).Rooted :=
    above.rooted.put (above.rooted.directory_dropLast_target leads) (.inr notDirectory)
  have walks := keeps.enter leads.walks
  obtain ⟨-, directories⟩ := rooted.walks_iff.mp walks
  refine ⟨⟨path.target, keeps.resolve leads.resolve, stored⟩, stored, ?_,
    fun place elsewhere => ?_, ?_, rooted⟩
  · rintro place ⟨parts, isPrefix, rfl⟩
    exact directories parts isPrefix
  · have same := get?_put_of_ne mid (.file content) elsewhere
    rcases above.extended place with same' | made
    · exact .inl (same.trans same')
    · exact .inr ⟨made.absent, same.trans made.directory, made.passes⟩
  · have whole : path.parent.hasNull = false := Bool.eq_false_iff.mpr fun null =>
      Bool.false_ne_true (leads.whole.symm.trans (Path.hasNull_of_parent null))
    rintro (barred | found | long | long | null)
    · exact rooted.not_barred walks (path.size_text_parent leads.short) whole barred
    · cases stored.symm.trans found
    · exact absurd long (Nat.not_lt.mpr leads.named)
    · exact absurd long (Nat.not_lt.mpr leads.short)
    · exact Bool.false_ne_true (leads.whole.symm.trans null)

/-- A save either stores the content, or it leaves everything alone but for directories above the
target. Only a path with a null character is turned down for one. -/
theorem Rooted.stores_or_spares (rooted : tree.Rooted) (path : Path) (content : List UInt8) :
    (∃ new, tree.save path content = (new, none) ∧ Stores path content tree new) ∨
      ∃ new e, tree.save path content = (new, some e) ∧ Spares path tree new ∧
        (e.problem = .nullCharacter → path.hasNull = true) := by
  have above : Prepares path.parent tree _ _ :=
    prepares_makeDirectories rooted path.root path.parent.parts
  unfold save
  rcases made : tree.makeDirectories path.root path.parent.parts with ⟨mid, _ | e⟩
  · rw [made] at above
    have walks := above.walks rfl
    simp only [write]
    cases resolved : mid.resolve path with
    | error problem =>
      refine .inr ⟨mid, _, rfl, above.spares rooted ?_,
        fun null => hasNull_of_resolve (resolved.trans (congrArg Except.error null))⟩
      rcases resolve_error_cases resolved with ⟨-, null⟩ | ⟨-, long | long⟩ | failed
      · exact .null null
      · exact .longPath long
      · exact .longName long
      · cases walks.symm.trans failed
    | ok place =>
      obtain ⟨leads, rfl⟩ := resolve_eq_ok_iff.mp resolved
      rcases found : mid.get? path.target with _ | _ | old
      · exact .inl ⟨_, by simp only [found], above.stores leads (by simp [found]) content⟩
      · exact .inr ⟨mid, ⟨.isADirectory, path⟩, by simp only [found],
          above.spares rooted (.directory found), fun other => (by cases other)⟩
      · exact .inl ⟨_, by simp only [found], above.stores leads (by simp [found]) content⟩
  · rw [made] at above
    exact .inr ⟨mid, e, rfl, above.spares rooted (.above (above.barred (Option.some_ne_none e))),
      fun null => Path.hasNull_of_parent (above.null e rfl null)⟩

/-- A file stays what it is, and can still be reached, while something is saved with another
target. -/
theorem Holds.save_of_target_ne {other : Path} {content data : List UInt8}
    (holds : tree.Holds path content) (distinct : path.target ≠ other.target) :
    (tree.save other data).1.Holds path content := by
  refine holds.save_elsewhere fun same => ?_
  obtain ⟨place, resolved, -⟩ := holds
  have resolved := (keepsDirectories_save tree other data).resolve resolved
  obtain ⟨-, place_eq⟩ := resolve_eq_ok_iff.mp resolved
  obtain ⟨-, place_eq'⟩ := resolve_eq_ok_iff.mp (same.trans resolved)
  exact distinct (place_eq.symm.trans place_eq')

end SchemaBaseline.Files.Tree
