import PageCompiler.Proofs.FileSystem.Entries

/-! # Listed and present

A child of a directory is present for one of three reasons: it is a file, it was created as a
directory, or some key goes on behind it. In each case there is a key that makes it an entry of the
directory, so a listing names exactly what is present, after any changes of the files. Keys never
hold a backslash, because the key of a path has a slash for it.
-/

namespace PageCompiler

/-! ## Changes -/

inductive TreeCall where
  | write (path : Path) (content : ByteArray)
  | rename (source target : Path)
  | remove (path : Path)
  | makeDirectory (path : Path)

namespace Tree

def call (tree : Tree) : TreeCall → Except FileError Tree
  | .write path content => .ok (tree.write path content)
  | .rename source target => tree.rename source target
  | .remove path => tree.remove path
  | .makeDirectory path => .ok (tree.makeDirectory path)

/-- The tree after some calls, where a call that fails leaves everything as it was. -/
def run (tree : Tree) (calls : List TreeCall) : Tree :=
  calls.foldl (fun tree call => (tree.call call).toOption.getD tree) tree

variable {tree after : Tree} {key name : Text} {directory : Path}

theorem mem_keys : key ∈ tree.keys ↔ key ∈ tree.files ∨ key ∈ tree.directories := by
  simp [keys, Std.TreeMap.mem_keys, Std.TreeSet.mem_toList]

/-- A change stores nothing but keys of paths. -/
theorem mem_keys_of_call {call : TreeCall} (succeeds : tree.call call = .ok after)
    (stored : key ∈ after.keys) : key ∈ tree.keys ∨ ∃ path, key = keyOf path := by
  rw [mem_keys] at stored ⊢
  cases call with
  | write path content =>
    obtain rfl := Except.ok.inj succeeds
    rw [write, Std.TreeMap.mem_insert, Std.LawfulEqOrd.compare_eq_iff_eq] at stored
    rcases stored with (rfl | file) | made
    · exact .inr ⟨path, rfl⟩
    · exact .inl (.inl file)
    · exact .inl (.inr made)
  | rename source target =>
    rw [call, rename] at succeeds
    split at succeeds
    · obtain rfl := Except.ok.inj succeeds
      rw [Std.TreeMap.mem_insert, Std.TreeMap.mem_erase,
        Std.LawfulEqOrd.compare_eq_iff_eq] at stored
      rcases stored with (rfl | ⟨-, file⟩) | made
      · exact .inr ⟨target, rfl⟩
      · exact .inl (.inl file)
      · exact .inl (.inr made)
    · cases succeeds
  | remove path =>
    rw [call, remove] at succeeds
    split at succeeds
    · obtain rfl := Except.ok.inj succeeds
      rw [Std.TreeMap.mem_erase] at stored
      exact .inl (stored.imp_left And.right)
    · cases succeeds
  | makeDirectory path =>
    obtain rfl := Except.ok.inj succeeds
    rw [makeDirectory, Std.TreeSet.mem_insert, Std.LawfulEqOrd.compare_eq_iff_eq] at stored
    rcases stored with file | rfl | made
    · exact .inl (.inl file)
    · exact .inr ⟨path, rfl⟩
    · exact .inl (.inr made)

/-! ## Keys without backslashes -/

theorem mem_of_mem_dropEndSlashes {c : Char} {text : Text}
    (member : c ∈ Path.dropEndSlashes text) : c ∈ text := by
  rw [Path.dropEndSlashes] at member
  split at member
  · exact List.mem_of_mem_take member
  · rw [List.mem_reverse] at member
    exact List.mem_reverse.mp ((List.dropWhile_sublist _).mem member)

theorem backslash_not_mem_keyOf (path : Path) : '\\' ∉ keyOf path := by
  intro member
  obtain ⟨c, -, same⟩ := List.mem_map.mp (mem_of_mem_dropEndSlashes member)
  split at same
  · cases same
  · next other => exact other same

def WithoutBackslashes (tree : Tree) : Prop :=
  ∀ key ∈ tree.keys, '\\' ∉ key

theorem withoutBackslashes_empty : empty.WithoutBackslashes := by
  intro key stored
  rw [mem_keys] at stored
  exact absurd stored (by simp [empty])

theorem WithoutBackslashes.call {call : TreeCall} (plain : tree.WithoutBackslashes)
    (succeeds : tree.call call = .ok after) : after.WithoutBackslashes := by
  intro key stored
  rcases mem_keys_of_call succeeds stored with old | ⟨path, rfl⟩
  · exact plain key old
  · exact backslash_not_mem_keyOf path

theorem WithoutBackslashes.run (plain : tree.WithoutBackslashes) (calls : List TreeCall) :
    (tree.run calls).WithoutBackslashes := by
  induction calls generalizing tree with
  | nil => exact plain
  | cons call calls inductionHypothesis =>
    have step : ((tree.call call).toOption.getD tree).WithoutBackslashes := by
      cases outcome : tree.call call with
      | error error => exact plain
      | ok after => exact plain.call outcome
    exact inductionHypothesis step

/-! ## Children -/

/-- What a file or a directory in a directory can be called. -/
structure IsChildName (name : Text) : Prop where
  nonempty : name ≠ []
  whole : '/' ∉ name
  plain : '\\' ∉ name

def child (directory : Path) (name : Text) : Path :=
  ⟨directoryPrefix (keyOf directory) ++ name⟩

theorem exists_getLast?_child (called : IsChildName name) (directory : Path) :
    ∃ c, (child directory name).text.getLast? = some c ∧ c ≠ '/' := by
  obtain ⟨front, c, rfl⟩ := (List.eq_nil_or_concat' name).resolve_left called.nonempty
  refine ⟨c, by simp [child, ← List.append_assoc], ?_⟩
  rintro rfl
  exact called.whole (by simp)

/-- The path of a child is written as its key. -/
theorem keyOf_child (called : IsChildName name) (directory : Path) :
    keyOf (child directory name) = (child directory name).text := by
  have plain : '\\' ∉ (child directory name).text := by
    have inDirectory := backslash_not_mem_keyOf directory
    simp only [child, List.mem_append, not_or]
    refine ⟨?_, called.plain⟩
    rw [directoryPrefix]
    split <;> simp [inDirectory]
  have unchanged : (child directory name).text.map (fun c => if c = '\\' then '/' else c) =
      (child directory name).text := by
    refine (List.map_congr_left fun c member => if_neg ?_).trans (List.map_id _)
    rintro rfl
    exact plain member
  obtain ⟨c, last, kept⟩ := exists_getLast?_child called directory
  rw [keyOf, unchanged, Path.dropEndSlashes_eq_self last kept]

theorem directoryPrefix_child (called : IsChildName name) (directory : Path) :
    directoryPrefix (child directory name).text = (child directory name).text ++ ['/'] := by
  obtain ⟨c, last, kept⟩ := exists_getLast?_child called directory
  rw [directoryPrefix, last, if_neg (by simpa using kept)]

/-! ## Presence -/

theorem isDirectoryKey_iff : tree.isDirectoryKey key = true ↔
    key ∈ tree.directories ∨ ∃ stored ∈ tree.keys, directoryPrefix key <+: stored := by
  simp [isDirectoryKey]

theorem isPresent_iff (path : Path) : tree.isPresent path = true ↔
    keyOf path ∈ tree.keys ∨
      ∃ stored ∈ tree.keys, directoryPrefix (keyOf path) <+: stored := by
  rw [isPresent, Bool.or_eq_true, isDirectory, isDirectoryKey_iff, isFile, mem_keys, or_assoc,
    Std.TreeMap.contains_iff_mem]

/-- A child is present if some key makes it an entry, and for no other reason. -/
theorem isPresent_child_iff (called : IsChildName name) :
    tree.isPresent (child directory name) = true ↔ tree.HasEntry (keyOf directory) name := by
  rw [isPresent_iff, keyOf_child called, directoryPrefix_child called]
  constructor
  · rintro (stored | ⟨key, stored, rest, split⟩)
    · exact ⟨called.nonempty, called.whole, _, stored, [], by simp [child], by simp⟩
    · refine ⟨called.nonempty, called.whole, key, stored, '/' :: rest, ?_, by simp⟩
      rw [← split]
      simp [child]
  · rintro ⟨-, -, key, stored, rest, rfl, stops⟩
    cases rest with
    | nil => exact .inl (by simpa [child] using stored)
    | cons c rest =>
      obtain rfl : c = '/' := stops c rfl
      exact .inr ⟨_, stored, rest, by simp [child]⟩

theorem exists_list_iff : (∃ children, tree.list directory = .ok children) ↔
    tree.isDirectory directory = true := by
  rw [list, isDirectory]
  dsimp only
  split
  · next isDirectory => exact iff_of_true ⟨_, rfl⟩ isDirectory
  · next noDirectory => exact iff_of_false (by rintro ⟨_, ⟨⟩⟩) noDirectory

theorem exists_mem_list_iff : (∃ children, tree.list directory = .ok children ∧
    child directory name ∈ children) ↔ tree.HasEntry (keyOf directory) name := by
  constructor
  · rintro ⟨children, listed, member⟩
    obtain ⟨other, entry, same⟩ := (mem_list listed _).mp member
    rwa [List.append_cancel_left (Path.mk.inj same)]
  · intro entry
    cases listed : tree.list directory with
    | error error => exact absurd entry (not_hasEntry_of_list listed name)
    | ok children => exact ⟨children, rfl, (mem_list listed _).mpr ⟨name, entry, rfl⟩⟩

theorem HasEntry.isChildName (entry : tree.HasEntry (keyOf directory) name)
    (plain : tree.WithoutBackslashes) : IsChildName name where
  nonempty := entry.nonempty
  whole := entry.whole
  plain := by
    obtain ⟨key, stored, rest, rfl, -⟩ := entry.stored
    intro member
    exact plain _ stored (by simp [member])

/-- After any changes, a child of a directory is present if and only if the directory can be listed
and the list names it; directories and nothing else can be listed, and a list names children only,
each once and in the order of their texts. -/
theorem run_lists_present (calls : List TreeCall) (directory : Path) :
    (∀ name, IsChildName name →
      ((empty.run calls).isPresent (child directory name) = true ↔
        ∃ children, (empty.run calls).list directory = .ok children ∧
          child directory name ∈ children)) ∧
      ((∃ children, (empty.run calls).list directory = .ok children) ↔
        (empty.run calls).isDirectory directory = true) ∧
      ∀ children, (empty.run calls).list directory = .ok children →
        (children.Pairwise fun first second => compare first.text second.text = .lt) ∧
        children.Nodup ∧
        ∀ listed ∈ children, ∃ name, IsChildName name ∧ listed = child directory name := by
  have plain := withoutBackslashes_empty.run calls
  refine ⟨fun name called => ?_, exists_list_iff, fun children listed => ?_⟩
  · rw [isPresent_child_iff called, exists_mem_list_iff]
  · have sorted := pairwise_list listed
    refine ⟨sorted, sorted.imp ?_, fun path member => ?_⟩
    · rintro first _ before rfl
      simp at before
    · obtain ⟨name, entry, rfl⟩ := (mem_list listed path).mp member
      exact ⟨name, entry.isChildName plain, rfl⟩

/-- A file with files under it, a key with two slashes, a directory above a created one, and a file
that was moved; the last call fails. -/
def libraryCalls : List TreeCall :=
  [.write (.ofString "/lib/ui") "ui".toUTF8, .write (.ofString "\\lib\\ui\\Panel.js") "p".toUTF8,
    .write (.ofString "/lib//x.js") "x".toUTF8, .makeDirectory (.ofString "/lib/a/b/"),
    .write (.ofString "/lib/old.js") "o".toUTF8, .makeDirectory (.ofString "/lib/uix"),
    .rename (.ofString "/lib/old.js") (.ofString "/lib/new.js"), .remove (.ofString "/lib/old.js")]

def library : Path :=
  .ofString "\\lib/"

theorem run_lists_present_library :
    IsChildName "a".toList ∧
      (empty.run libraryCalls).list library =
        .ok (["a", "new.js", "ui", "uix"].map fun name => child library name.toList) ∧
      (empty.run libraryCalls).isPresent (child library "a".toList) = true ∧
      IsChildName "old.js".toList ∧
      (empty.run libraryCalls).isPresent (child library "old.js".toList) ≠ true := by
  have listed : (empty.run libraryCalls).list library =
      .ok (["a", "new.js", "ui", "uix"].map fun name => child library name.toList) := by
    decide +kernel
  have calledA : IsChildName "a".toList := ⟨by decide, by decide, by decide⟩
  have calledOld : IsChildName "old.js".toList := ⟨by decide, by decide, by decide⟩
  have agrees := (run_lists_present libraryCalls library).1
  refine ⟨calledA, listed, (agrees _ calledA).mpr ⟨_, listed, by simp⟩, calledOld, fun present => ?_⟩
  obtain ⟨children, found, member⟩ := (agrees _ calledOld).mp present
  obtain rfl := Except.ok.inj (found.symm.trans listed)
  revert member
  decide +kernel

end Tree

end PageCompiler
