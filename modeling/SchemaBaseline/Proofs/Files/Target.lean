import Mathlib.Data.List.Induction
import SchemaBaseline.Proofs.Files.Save

/-!
# Where a path leads

Whether a path leads anywhere hangs on the tree, but if it does, then the place can be read off
the path: it is `Path.target`. The same holds for the places that a path goes by on its way
(`Path.Passes`). `Rooted.walks_iff` says what it takes that components can be walked, namely that
there is a directory wherever they lead on the way and that no name is too long. It goes for trees
in which every node lies in a directory (`Tree.Rooted`), as it does in every tree that is made by
making directories and writing files.
-/

namespace SchemaBaseline.Files

/-! ## Places of paths -/

/-- Where one more component leads. -/
def stepInto (here : Place) (part : String) : Place :=
  if part = Tree.up then here.dropLast else here ++ [part]

/-- Where components lead. -/
def placeOf (parts : List String) : Place :=
  parts.foldl stepInto []

theorem placeOf_append_singleton (parts : List String) (last : String) :
    placeOf (parts ++ [last]) = stepInto (placeOf parts) last := by
  rw [placeOf, List.foldl_append]
  rfl

namespace Path

/-- The place that a path leads to, if it leads anywhere. -/
def target (path : Path) : Place :=
  placeOf path.parts

/-- A path goes by a place if the place is where it leads, or where some of its first components
lead. -/
def Passes (path : Path) (place : Place) : Prop :=
  ∃ parts, parts <+: path.parts ∧ placeOf parts = place

theorem Passes.of_parent {path : Path} {place : Place} (passes : path.parent.Passes place) :
    path.Passes place := by
  obtain ⟨parts, isPrefix, leads⟩ := passes
  exact ⟨parts, isPrefix.trans (List.dropLast_prefix _), leads⟩

theorem passes_target (path : Path) : path.Passes path.target :=
  ⟨path.parts, List.prefix_rfl, rfl⟩

/-- A path is the empty one of its root, or it has a last component. -/
theorem parts_cases (path : Path) :
    path.parts = [] ∧ path.name = "" ∧ path.parent = path ∨
      ∃ front last, path.parts = front ++ [last] ∧ path.parent.parts = front ∧
        path.name = last := by
  obtain ⟨root, parts⟩ := path
  rcases List.eq_nil_or_concat parts with rfl | ⟨front, last, same⟩
  · exact .inl ⟨rfl, rfl, rfl⟩
  · rw [List.concat_eq_append] at same
    subst same
    exact .inr ⟨front, last, rfl, List.dropLast_concat, by simp [name]⟩

/-- A name that is not empty is a component. -/
theorem name_mem_parts {path : Path} (named : 0 < path.name.utf8ByteSize) :
    path.name ∈ path.parts := by
  rcases path.parts_cases with ⟨-, name, -⟩ | ⟨front, last, parts, -, name⟩
  · rw [name] at named
    exact absurd named (by decide)
  · rw [parts, name]
    simp

/-- The components of the parent of a path are among those of the path. -/
theorem hasNull_of_parent {path : Path} (null : path.parent.hasNull = true) :
    path.hasNull = true := by
  obtain ⟨part, member, null⟩ := List.any_eq_true.mp null
  exact List.any_eq_true.mpr ⟨part, List.dropLast_subset _ member, null⟩

/-- A path that is not too long has a parent that is not too long. -/
theorem size_text_parent (path : Path) (short : path.text.utf8ByteSize ≤ Tree.maxPathBytes) :
    path.parent.text.utf8ByteSize ≤ Tree.maxPathBytes := by
  rcases path.parts_cases with ⟨-, -, same⟩ | ⟨front, last, parts, front', -⟩
  · rwa [same]
  · unfold text at short ⊢
    rw [parts] at short
    rw [front', show path.parent.root = path.root from rfl]
    have unempty : (front ++ [last]).isEmpty = false := by simp
    rw [unempty, Bool.and_false, if_neg Bool.false_ne_true, String.utf8ByteSize_append] at short
    split
    · decide
    · cases front with
      | nil =>
        have nothing : (join []).utf8ByteSize = 0 := rfl
        rw [String.utf8ByteSize_append, nothing]
        omega
      | cons first others =>
        rw [join, String.intercalate_append_of_ne_nil (List.cons_ne_nil _ _)
          (List.cons_ne_nil _ _), String.utf8ByteSize_append, String.utf8ByteSize_append] at short
        rw [String.utf8ByteSize_append, join]
        omega

end Path

namespace Tree

variable {tree : Tree} {here place : Place} {parts : List String} {path : Path}

/-! ## Trees with directories all the way up -/

/-- Every node lies in a directory. -/
def Rooted (tree : Tree) : Prop :=
  ∀ place node, tree.get? place = some node → tree.get? place.dropLast = some .directory

theorem rooted_empty : empty.Rooted := by
  intro place node found
  cases place with
  | nil => rfl
  | cons part rest => cases found

/-- What lies above a node is a directory. -/
theorem Rooted.get?_of_prefix (rooted : tree.Rooted) {above : Place} {node : Node}
    (found : tree.get? place = some node) (isPrefix : above <+: place) (ne : above ≠ place) :
    tree.get? above = some .directory := by
  induction place using List.reverseRecOn generalizing node with
  | nil => exact absurd (List.prefix_nil.mp isPrefix) ne
  | append_singleton place last ih =>
    have parent := rooted _ _ found
    rw [List.dropLast_concat] at parent
    rcases List.prefix_concat_iff.mp isPrefix with same | within
    · exact absurd same ne
    · by_cases same : above = place
      · rwa [same]
      · exact ih parent within same

/-- A node can be put into a directory, if nothing has to lie below it that does not already lie
in one. -/
theorem Rooted.put (rooted : tree.Rooted) {node : Node}
    (inside : tree.get? place.dropLast = some .directory)
    (fits : node = .directory ∨ tree.get? place ≠ some .directory) :
    (tree.put place node).Rooted := by
  have kept {other : Place} (directory : tree.get? other = some .directory) :
      (tree.put place node).get? other = some .directory := by
    by_cases same : other = place
    · subst same
      rcases fits with rfl | notDirectory
      · by_cases top : other = []
        · subst top
          rfl
        · exact get?_put_self tree .directory top
      · exact absurd directory notDirectory
    · rw [get?_put_of_ne tree node same, directory]
  intro other found' found
  by_cases same : other = place
  · exact same ▸ kept inside
  · rw [get?_put_of_ne tree node same] at found
    exact kept (rooted other found' found)

/-! ## Walking components -/

theorem enter_append (tree : Tree) (here : Place) (first second : List String) :
    tree.enter here (first ++ second) =
      (tree.enter here first >>= fun place => tree.enter place second) := by
  fun_induction Tree.enter tree here first with
  | case1 here => rfl
  | case2 here rest ih => rw [List.cons_append, Tree.enter, if_pos rfl, ih]
  | case3 here part rest notUp long =>
    rw [List.cons_append, Tree.enter, if_neg notUp, if_pos long]
    rfl
  | case4 here part rest notUp short found =>
    rw [List.cons_append, Tree.enter, if_neg notUp, if_neg short]
    simp only [found]
    rfl
  | case5 here part rest notUp short content found =>
    rw [List.cons_append, Tree.enter, if_neg notUp, if_neg short]
    simp only [found]
    rfl
  | case6 here part rest notUp short found ih =>
    rw [List.cons_append, Tree.enter, if_neg notUp, if_neg short]
    simp only [found, ih]

/-- Where components lead does not depend on the tree. -/
theorem eq_foldl_of_enter (entered : tree.enter here parts = .ok place) :
    place = parts.foldl stepInto here := by
  fun_induction Tree.enter tree here parts with
  | case1 here => exact (Except.ok.inj entered).symm
  | case2 here rest ih => rw [ih entered, List.foldl_cons, stepInto, if_pos rfl]
  | case3 => cases entered
  | case4 => cases entered
  | case5 => cases entered
  | case6 here part rest notUp short found ih =>
    rw [ih entered, List.foldl_cons, stepInto, if_neg notUp]

/-- What can be in the way of walking components: a name that is too long, something missing, or a
file. -/
theorem enter_error_cases {problem : Problem} (failed : tree.enter here parts = .error problem) :
    (problem = .nameTooLong ∧ ∃ part ∈ parts, maxNameBytes < part.utf8ByteSize) ∨
      problem = .notFound ∨
      problem = .notADirectory ∧
        ∃ first content, first <+: parts ∧ tree.get? (first.foldl stepInto here) =
          some (.file content) := by
  fun_induction Tree.enter tree here parts with
  | case1 here => cases failed
  | case2 here rest ih =>
    rcases ih failed with ⟨rfl, part, member, long⟩ | rfl | ⟨rfl, first, content, isPrefix, found⟩
    · exact .inl ⟨rfl, part, List.mem_cons_of_mem _ member, long⟩
    · exact .inr (.inl rfl)
    · refine .inr (.inr ⟨rfl, up :: first, content, (List.prefix_cons_inj up).mpr isPrefix, ?_⟩)
      rwa [List.foldl_cons, stepInto, if_pos rfl]
  | case3 here part rest notUp long =>
    cases failed
    exact .inl ⟨rfl, part, List.mem_cons_self, long⟩
  | case4 =>
    cases failed
    exact .inr (.inl rfl)
  | case5 here part rest notUp short content found =>
    cases failed
    refine .inr (.inr ⟨rfl, [part], content, (List.prefix_cons_inj part).mpr List.nil_prefix, ?_⟩)
    rwa [List.foldl_cons, List.foldl_nil, stepInto, if_neg notUp]
  | case6 here part rest notUp short found ih =>
    rcases ih failed with ⟨rfl, part', member, long⟩ | rfl |
      ⟨rfl, first, content, isPrefix, found'⟩
    · exact .inl ⟨rfl, part', List.mem_cons_of_mem _ member, long⟩
    · exact .inr (.inl rfl)
    · refine .inr (.inr ⟨rfl, part :: first, content,
        (List.prefix_cons_inj part).mpr isPrefix, ?_⟩)
      rwa [List.foldl_cons, stepInto, if_neg notUp]

/-- Whoever starts in a directory gets to one. -/
theorem Rooted.directory_of_enter (rooted : tree.Rooted)
    (start : tree.get? here = some .directory) (entered : tree.enter here parts = .ok place) :
    tree.get? place = some .directory := by
  fun_induction Tree.enter tree here parts with
  | case1 here => rwa [← Except.ok.inj entered]
  | case2 here rest ih => exact ih (rooted here _ start) entered
  | case3 => cases entered
  | case4 => cases entered
  | case5 => cases entered
  | case6 here part rest notUp short found ih => exact ih found entered

/-- Components lead from directory to directory. -/
def Walks (tree : Tree) (parts : List String) : Prop :=
  tree.enter [] parts = .ok (placeOf parts)

theorem walks_of_enter (entered : tree.enter [] parts = .ok place) : tree.Walks parts := by
  rw [Walks, entered, eq_foldl_of_enter entered]
  rfl

theorem Rooted.directory_of_walks (rooted : tree.Rooted) (walks : tree.Walks parts) :
    tree.get? (placeOf parts) = some .directory :=
  rooted.directory_of_enter rfl walks

/-- A walk can be taken one step further where a directory is, unless its name is too long. -/
theorem Rooted.walks_concat_iff (rooted : tree.Rooted) {front : List String} {last : String} :
    tree.Walks (front ++ [last]) ↔ tree.Walks front ∧ last.utf8ByteSize ≤ maxNameBytes ∧
      tree.get? (placeOf (front ++ [last])) = some .directory := by
  constructor
  · intro walks
    have arrived := rooted.directory_of_walks walks
    rw [Walks, enter_append] at walks
    cases entered : tree.enter [] front with
    | error problem =>
      rw [entered] at walks
      cases walks
    | ok here =>
      refine ⟨walks_of_enter entered, Nat.not_lt.mp fun long => ?_, arrived⟩
      have notUp : last ≠ up := by
        rintro rfl
        exact absurd long (by decide)
      rw [entered] at walks
      simp only [bind, Except.bind, Tree.enter, if_neg notUp, if_pos long] at walks
      cases walks
  · rintro ⟨walks, short, directory⟩
    rw [Walks, enter_append, walks, placeOf_append_singleton]
    rw [placeOf_append_singleton] at directory
    unfold stepInto at directory ⊢
    by_cases notUp : last = up
    · simp only [bind, Except.bind, Tree.enter, if_pos notUp]
    · rw [if_neg notUp] at directory
      simp only [bind, Except.bind, Tree.enter, if_neg notUp,
        if_neg (Nat.not_lt.mpr short), directory]

/-- What components can be walked: their names are short, and wherever they lead on the way there
is a directory. -/
theorem Rooted.walks_iff (rooted : tree.Rooted) :
    tree.Walks parts ↔ (∀ part ∈ parts, part.utf8ByteSize ≤ maxNameBytes) ∧
      ∀ first, first <+: parts → tree.get? (placeOf first) = some .directory := by
  induction parts using List.reverseRecOn with
  | nil =>
    refine iff_of_true rfl ⟨List.forall_mem_nil _, fun first isPrefix => ?_⟩
    rw [List.prefix_nil.mp isPrefix]
    rfl
  | append_singleton front last ih =>
    rw [rooted.walks_concat_iff, ih]
    constructor
    · rintro ⟨⟨shorts, directories⟩, short, directory⟩
      refine ⟨List.forall_mem_append.mpr ⟨shorts, List.forall_mem_singleton.mpr short⟩,
        fun first isPrefix => ?_⟩
      rcases List.prefix_concat_iff.mp isPrefix with rfl | within
      · exact directory
      · exact directories first within
    · rintro ⟨shorts, directories⟩
      obtain ⟨shorts, short⟩ := List.forall_mem_append.mp shorts
      exact ⟨⟨shorts, fun first isPrefix => directories first
        (isPrefix.trans (List.prefix_append _ _))⟩, short last List.mem_cons_self,
        directories _ List.prefix_rfl⟩

/-! ## Resolving a path -/

/-- A path leads to its target, whether or not anything is there. -/
structure Leads (tree : Tree) (path : Path) : Prop where
  whole : path.hasNull = false
  short : path.text.utf8ByteSize ≤ maxPathBytes
  named : path.name.utf8ByteSize ≤ maxNameBytes
  walks : tree.Walks path.parent.parts

/-- Resolving a path is walking to its parent; its name is looked at last. -/
theorem resolve_eq (tree : Tree) (path : Path) :
    tree.resolve path =
      if path.hasNull then .error .nullCharacter
      else if maxPathBytes < path.text.utf8ByteSize then .error .nameTooLong
      else tree.enter [] path.parent.parts >>= fun _ =>
        if maxNameBytes < path.name.utf8ByteSize then .error .nameTooLong
        else .ok path.target := by
  unfold resolve
  by_cases null : path.hasNull = true
  · rw [if_pos null, if_pos null]
  rw [if_neg null, if_neg null]
  by_cases long : maxPathBytes < path.text.utf8ByteSize
  · rw [if_pos long, if_pos long]
  rw [if_neg long, if_neg long]
  rcases path.parts_cases with ⟨parts, name, parent⟩ | ⟨front, last, parts, front', name⟩
  · rw [parent, name, parts, Path.target, parts]
    rfl
  · have front'' : path.parts.dropLast = front := front'
    rw [front', front'', name, Path.target, parts, List.getLast?_concat, placeOf_append_singleton]
    cases entered : tree.enter [] front with
    | error problem => rfl
    | ok here =>
      rw [eq_foldl_of_enter entered]
      unfold stepInto
      by_cases notUp : last = up
      · subst notUp
        rfl
      · simp only [bind, Except.bind, if_neg notUp]
        rfl

theorem resolve_eq_ok_iff :
    tree.resolve path = .ok place ↔ tree.Leads path ∧ place = path.target := by
  rw [resolve_eq]
  constructor
  · intro resolved
    split at resolved
    · cases resolved
    rename_i whole
    split at resolved
    · cases resolved
    rename_i short
    cases entered : tree.enter [] path.parent.parts with
    | error problem =>
      rw [entered] at resolved
      cases resolved
    | ok here =>
      rw [entered] at resolved
      simp only [bind, Except.bind] at resolved
      split at resolved
      · cases resolved
      · rename_i named
        exact ⟨⟨Bool.not_eq_true _ ▸ whole, Nat.not_lt.mp short, Nat.not_lt.mp named,
          walks_of_enter entered⟩, (Except.ok.inj resolved).symm⟩
  · rintro ⟨⟨whole, short, named, walks⟩, rfl⟩
    rw [if_neg (by rw [whole]; exact Bool.false_ne_true), if_neg (Nat.not_lt.mpr short), walks]
    exact if_neg (Nat.not_lt.mpr named)

theorem Leads.resolve (leads : tree.Leads path) : tree.resolve path = .ok path.target :=
  resolve_eq_ok_iff.mpr ⟨leads, rfl⟩

/-- Why a path leads nowhere. -/
theorem resolve_error_cases {problem : Problem} (failed : tree.resolve path = .error problem) :
    problem = .nullCharacter ∧ path.hasNull = true ∨
      problem = .nameTooLong ∧
        (maxPathBytes < path.text.utf8ByteSize ∨ maxNameBytes < path.name.utf8ByteSize) ∨
      tree.enter [] path.parent.parts = .error problem := by
  rw [resolve_eq] at failed
  split at failed
  · rename_i null
    cases failed
    exact .inl ⟨rfl, null⟩
  right
  split at failed
  · rename_i long
    cases failed
    exact .inl ⟨rfl, .inl long⟩
  · cases entered : tree.enter [] path.parent.parts with
    | error other =>
      rw [entered] at failed
      cases failed
      exact .inr rfl
    | ok here =>
      rw [entered] at failed
      simp only [bind, Except.bind] at failed
      split at failed
      · rename_i long
        cases failed
        exact .inl ⟨rfl, .inr long⟩
      · cases failed

/-- Only a path with a null character is turned down for one. -/
theorem hasNull_of_resolve (failed : tree.resolve path = .error .nullCharacter) :
    path.hasNull = true := by
  rcases resolve_error_cases failed with ⟨-, null⟩ | ⟨other, -⟩ | failed
  · exact null
  · cases other
  · rcases enter_error_cases failed with ⟨other, -⟩ | other | ⟨other, -⟩ <;> cases other

/-- Where a path leads there is a directory around. -/
theorem Rooted.directory_dropLast_target (rooted : tree.Rooted) (leads : tree.Leads path) :
    tree.get? path.target.dropLast = some .directory := by
  have parent := rooted.directory_of_walks leads.walks
  rcases path.parts_cases with ⟨parts, -, -⟩ | ⟨front, last, parts, front', -⟩
  · rw [Path.target, parts]
    rfl
  · rw [front'] at parent
    rw [Path.target, parts, placeOf_append_singleton, stepInto]
    split
    · exact rooted _ _ (rooted _ _ parent)
    · rwa [List.dropLast_concat]

end Tree

end SchemaBaseline.Files
