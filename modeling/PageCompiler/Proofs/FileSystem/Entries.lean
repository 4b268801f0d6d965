import PageCompiler.FileSystem.Store
import PageCompiler.Proofs.Artifact.Keys
import PageCompiler.Proofs.Text.Cutting
import PageCompiler.Proofs.Text.LetterCase
import PageCompiler.Resolution.Search

/-! # Entries of directories

A name is an entry of a directory in memory when some key continues the key of the directory with
this name. Listing a directory gives its entries in the order of texts, so that searching the list
for a name in any letter case finds the least entry that has the name in some letter case.
-/

namespace PageCompiler.Tree

/-! ## Entries -/

/-- Some file or directory of this name lies in the directory with the key. -/
structure HasEntry (tree : Tree) (directory name : Text) : Prop where
  nonempty : name ≠ []
  whole : '/' ∉ name
  stored : ∃ key ∈ tree.keys, ∃ rest, key = directoryPrefix directory ++ name ++ rest ∧
    ∀ c ∈ rest.head?, c = '/'

/-- No name between two slashes of a key is a single dot. -/
def WithoutDots (tree : Tree) : Prop :=
  ∀ key ∈ tree.keys, ['.'] ∉ key.splitOn '/'

variable {tree : Tree} {directory start key name : Text}

theorem childName?_eq_some_iff : childName? start key = some name ↔
    name ≠ [] ∧ '/' ∉ name ∧ ∃ rest, key = start ++ name ++ rest ∧ ∀ c ∈ rest.head?, c = '/' := by
  rw [childName?]
  constructor
  · intro found
    split at found
    · next rest starts =>
      dsimp only at found
      split at found
      · cases found
      · next nonempty =>
        obtain rfl := Option.some.inj found
        refine ⟨by simpa using nonempty, ?_, rest.dropWhile (· != '/'), ?_, ?_⟩
        · intro slash
          have kept := List.all_eq_true.mp List.all_takeWhile _ slash
          simp at kept
        · rw [List.append_assoc, List.takeWhile_append_dropWhile]
          exact Text.eq_append_of_isPrefixOf? starts
        · intro c first
          have stops := List.head?_dropWhile_not (· != '/') rest
          rw [Option.mem_def.mp first] at stops
          simpa using stops
    · cases found
  · rintro ⟨nonempty, whole, rest, rfl, stops⟩
    have taken : (name ++ rest).takeWhile (· != '/') = name := by
      rw [List.takeWhile_append_of_pos]
      · cases rest with
        | nil => simp
        | cons c rest => simp [stops c rfl]
      · intro c member
        simp only [bne_iff_ne, ne_eq]
        rintro rfl
        exact whole member
    rw [List.append_assoc, Text.isPrefixOf?_eq_some_iff.mpr rfl]
    simp [taken, nonempty]

theorem hasEntry_iff : tree.HasEntry directory name ↔
    ∃ key ∈ tree.keys, childName? (directoryPrefix directory) key = some name := by
  constructor
  · rintro ⟨nonempty, whole, key, member, rest, split, stops⟩
    exact ⟨key, member, childName?_eq_some_iff.mpr ⟨nonempty, whole, rest, split, stops⟩⟩
  · rintro ⟨key, member, found⟩
    obtain ⟨nonempty, whole, rest⟩ := childName?_eq_some_iff.mp found
    exact ⟨nonempty, whole, key, member, rest⟩

theorem exists_directoryPrefix_eq (directory : Text) :
    ∃ front, directoryPrefix directory = front ++ ['/'] := by
  rw [directoryPrefix]
  split
  · next ends =>
    obtain ⟨front, rfl⟩ := List.getLast?_eq_some_iff.mp ends
    exact ⟨front, rfl⟩
  · exact ⟨directory, rfl⟩

/-- A name that an entry has stands between two slashes of a key. -/
theorem HasEntry.ne_dot (dots : tree.WithoutDots) (entry : tree.HasEntry directory name) :
    name ≠ ['.'] := by
  rintro rfl
  obtain ⟨key, member, rest, split, stops⟩ := entry.stored
  obtain ⟨front, slash⟩ := exists_directoryPrefix_eq directory
  apply dots key member
  rw [split, slash, List.append_assoc, List.append_assoc, List.singleton_append,
    List.splitOn_append_cons_self]
  apply List.mem_append_right
  cases rest with
  | nil => simp [List.splitOn_eq_singleton]
  | cons c rest =>
    rw [stops c rfl, List.splitOn_append_cons_self]
    simp [List.splitOn_eq_singleton]

/-! ## Listings -/

theorem mem_list {path : Path} {children : List Path} (listed : tree.list path = .ok children)
    (child : Path) :
    child ∈ children ↔
      ∃ name, tree.HasEntry (keyOf path) name ∧ child = ⟨directoryPrefix (keyOf path) ++ name⟩ := by
  rw [list] at listed
  dsimp only at listed
  split at listed
  · obtain rfl := Except.ok.inj listed
    simp only [List.mem_map, Std.TreeSet.mem_toList, Std.TreeSet.mem_ofList,
      List.contains_iff_mem, List.mem_filterMap, Option.map_eq_some_iff, hasEntry_iff]
    constructor
    · rintro ⟨_, ⟨key, member, name, found, rfl⟩, rfl⟩
      exact ⟨name, ⟨key, member, found⟩, rfl⟩
    · rintro ⟨name, ⟨key, member, found⟩, rfl⟩
      exact ⟨_, ⟨key, member, name, found, rfl⟩, rfl⟩
  · cases listed

theorem pairwise_list {path : Path} {children : List Path}
    (listed : tree.list path = .ok children) :
    children.Pairwise fun first second => compare first.text second.text = .lt := by
  rw [list] at listed
  dsimp only at listed
  split at listed
  · obtain rfl := Except.ok.inj listed
    rw [List.pairwise_map]
    have ordered (names : List Text) : (Std.TreeSet.ofList names compare).toList.Pairwise
        fun first second => compare first second = .lt :=
      Std.TreeSet.ordered_toList
    exact ordered _
  · cases listed

/-- A place without entries need not be a directory. -/
theorem not_hasEntry_of_list {path : Path} {error : FileError}
    (refused : tree.list path = .error error) (name : Text) :
    ¬ tree.HasEntry (keyOf path) name := by
  intro entry
  obtain ⟨key, member, rest, split, -⟩ := entry.stored
  rw [list] at refused
  dsimp only at refused
  split at refused
  · cases refused
  · next noDirectory =>
    apply noDirectory
    rw [isDirectoryKey, Bool.or_eq_true, List.any_eq_true]
    refine .inr ⟨key, member, ?_⟩
    rw [List.isPrefixOf_iff_prefix, split, List.append_assoc]
    exact List.prefix_append _ _

/-! ## The first entry of a name -/

/-- `first` is the first entry in the order of texts that is called `name` in some letter case. -/
structure IsFirstNamed (tree : Tree) (directory name first : Text) : Prop where
  entry : tree.HasEntry directory first
  agrees : Text.lowercase first = Text.lowercase name
  least : ∀ other, tree.HasEntry directory other →
    Text.lowercase other = Text.lowercase name → (compare first other).isLE

theorem compare_append (start first second : Text) :
    compare (start ++ first) (start ++ second) = compare first second := by
  induction start with
  | nil => rfl
  | cons c start inductionHypothesis =>
    rw [List.cons_append, List.cons_append, List.compare_cons_cons]
    simp [inductionHypothesis]

theorem find?_eq_some_iff_least {children : List Path}
    (sorted : children.Pairwise fun first second => compare first.text second.text = .lt)
    (accepts : Path → Bool) (child : Path) :
    children.find? accepts = some child ↔ child ∈ children ∧ accepts child = true ∧
      ∀ other ∈ children, accepts other = true → (compare child.text other.text).isLE := by
  induction children with
  | nil => simp
  | cons first others inductionHypothesis =>
    rw [List.pairwise_cons] at sorted
    by_cases accepted : accepts first = true
    · rw [List.find?_cons_of_pos accepted, Option.some.injEq]
      constructor
      · rintro rfl
        refine ⟨List.mem_cons_self, accepted, ?_⟩
        intro other member _
        rw [List.mem_cons] at member
        cases member with
        | inl same => simp [same]
        | inr behind => simp [sorted.1 other behind]
      · rintro ⟨member, -, least⟩
        rw [List.mem_cons] at member
        cases member with
        | inl same => exact same.symm
        | inr behind =>
          -- A child behind the first one is greater, so it cannot be the least.
          have before := least first List.mem_cons_self accepted
          rw [Std.OrientedCmp.gt_of_lt (sorted.1 child behind)] at before
          cases before
    · rw [List.find?_cons_of_neg accepted, inductionHypothesis sorted.2]
      constructor
      · rintro ⟨member, accepted, least⟩
        refine ⟨List.mem_cons_of_mem _ member, accepted, ?_⟩
        simpa [*] using least
      · rintro ⟨member, acceptedToo, least⟩
        rw [List.mem_cons] at member
        refine ⟨member.resolve_left ?_, acceptedToo, ?_⟩
        · rintro rfl
          exact accepted acceptedToo
        · exact fun other there => least other (List.mem_cons_of_mem _ there)

end PageCompiler.Tree
