import Mathlib.Logic.Function.Basic
import PageCompiler.FileSystem.Store

/-! # The files of a store as a map

Arguments about a sequence of file operations need neither the journal of a store nor the shape of
its search tree: `Store.fileMap` keeps what is stored under each key and nothing else. Each
operation that changes files is described by one `Acts` lemma, which says when the operation is
blocked and what it does to the map when it is not.
-/

namespace PageCompiler

/-- What is stored under each key. -/
abbrev FileMap := Text → Option ByteArray

namespace FileMap

def write (files : FileMap) (key : Text) (content : ByteArray) : FileMap :=
  Function.update files key (some content)

def remove (files : FileMap) (key : Text) : FileMap :=
  Function.update files key none

/-- Moves a file; nothing happens if there is none. -/
def rename (files : FileMap) (source target : Text) : FileMap :=
  match files source with
  | some content => (files.remove source).write target content
  | none => files

def removeAll (files : FileMap) (keys : List Text) : FileMap := fun key =>
  if key ∈ keys then none else files key

theorem write_apply (files : FileMap) (key other : Text) (content : ByteArray) :
    files.write key content other = if other = key then some content else files other :=
  Function.update_apply files key (some content) other

theorem remove_apply (files : FileMap) (key other : Text) :
    files.remove key other = if other = key then none else files other :=
  Function.update_apply files key none other

theorem rename_apply (files : FileMap) {source target : Text} (distinct : source ≠ target)
    (key : Text) :
    files.rename source target key =
      if key = target then (files source).or (files target)
      else if key = source then none else files key := by
  cases found : files source with
  | none =>
    by_cases atSource : key = source <;> by_cases atTarget : key = target <;> simp_all [rename]
  | some content => simp [rename, found, write_apply, remove_apply]

theorem rename_eq_self {files : FileMap} {source : Text} (missing : files source = none)
    (target : Text) : files.rename source target = files := by
  rw [rename, missing]

theorem rename_apply_of_ne (files : FileMap) {source target key : Text} (notSource : key ≠ source)
    (notTarget : key ≠ target) : files.rename source target key = files key := by
  cases found : files source with
  | none => rw [rename_eq_self found]
  | some content => simp [rename, found, write_apply, remove_apply, notSource, notTarget]

theorem removeAll_apply (files : FileMap) (keys : List Text) (key : Text) :
    files.removeAll keys key = if key ∈ keys then none else files key := rfl

@[simp] theorem removeAll_nil (files : FileMap) : files.removeAll [] = files := by
  funext key
  simp [removeAll_apply]

theorem removeAll_cons (files : FileMap) (key : Text) (keys : List Text) :
    files.removeAll (key :: keys) = (files.remove key).removeAll keys := by
  funext other
  by_cases same : other = key <;> simp [removeAll_apply, remove_apply, same]

/-- A file that is written where none was and then removed leaves no trace. -/
theorem write_removeAll {files : FileMap} {key : Text} (absent : files key = none)
    (content : ByteArray) (keys : List Text) :
    (files.write key content).removeAll (keys ++ [key]) = files.removeAll keys := by
  funext other
  by_cases same : other = key
  · simp [removeAll_apply, same, absent]
  · simp [removeAll_apply, write_apply, same]

end FileMap

/-! ## Trees -/

namespace Tree

def fileMap (tree : Tree) : FileMap := fun key => tree.files[key]?

theorem isFile_eq (tree : Tree) (path : Path) :
    tree.isFile path = (tree.fileMap (keyOf path)).isSome :=
  Std.TreeMap.contains_eq_isSome_getElem?

theorem read_eq_ok_iff {tree : Tree} {path : Path} {content : ByteArray} :
    tree.read path = .ok content ↔ tree.fileMap (keyOf path) = some content := by
  cases found : tree.files[keyOf path]? <;> simp [read, fileMap, found]

/-- Two trees with one file map hold the same files. -/
theorem toList_eq_of_fileMap_eq {first second : Tree} (same : first.fileMap = second.fileMap) :
    first.files.toList = second.files.toList :=
  Std.TreeMap.Equiv.toList_eq (.of_forall_constGet?_eq fun key => congrFun same key)

theorem fileMap_write (tree : Tree) (path : Path) (content : ByteArray) :
    (tree.write path content).fileMap = tree.fileMap.write (keyOf path) content := by
  funext key
  simp only [fileMap, write, FileMap.write_apply, Std.TreeMap.getElem?_insert,
    Std.LawfulEqOrd.compare_eq_iff_eq, eq_comm (a := key)]

theorem fileMap_remove {tree removed : Tree} {path : Path} (done : tree.remove path = .ok removed) :
    removed.fileMap = tree.fileMap.remove (keyOf path) := by
  rw [remove] at done
  split at done
  · cases done
    funext key
    simp only [fileMap, FileMap.remove_apply, Std.TreeMap.getElem?_erase,
      Std.LawfulEqOrd.compare_eq_iff_eq, eq_comm (a := key)]
  · cases done

theorem fileMap_rename {tree renamed : Tree} {source target : Path}
    (done : tree.rename source target = .ok renamed) :
    renamed.fileMap = tree.fileMap.rename (keyOf source) (keyOf target) := by
  rw [rename] at done
  split at done
  case h_1 content found =>
    cases done
    funext key
    have present : tree.fileMap (keyOf source) = some content := found
    simp only [FileMap.rename, present, FileMap.write_apply, FileMap.remove_apply]
    simp only [fileMap, Std.TreeMap.getElem?_insert, Std.TreeMap.getElem?_erase,
      Std.LawfulEqOrd.compare_eq_iff_eq, eq_comm (a := key)]
  case h_2 => cases done

end Tree

/-! ## Operations of a store -/

namespace Store

def fileMap (store : Store) : FileMap :=
  store.tree.fileMap

theorem failure?_congr {before after : Store} (rules : after.rules = before.rules) :
    after.failure? = before.failure? := by
  funext operation path
  simp [failure?, rules]

/-- Run on `store`, an operation either is blocked, gives an error and leaves the files, or turns
them into `changed`. -/
def Acts (store : Store) (blocked : Prop) (changed : FileMap)
    (operation : StateM Store (Except FileError Unit)) : Prop :=
  ∃ after : Store, after.rules = store.rules ∧
    ((∃ error, operation store = (.error error, after) ∧ after.fileMap = store.fileMap ∧ blocked) ∨
      (operation store = (.ok (), after) ∧ after.fileMap = changed ∧ ¬ blocked))

/-- A recorded change acts on the files as on the tree; `missing` is when the tree refuses it. -/
theorem record_acts {store : Store} {change : Change} {failure? : Option FileError}
    {outcome : Except FileError Tree} {missing : Prop} {changed : FileMap}
    {operation : StateM Store (Except FileError Unit)}
    (runs : operation store = store.record change (unlessFailing failure? outcome))
    (refused : ∀ error, outcome = .error error → missing)
    (accepted : ∀ tree, outcome = .ok tree → tree.fileMap = changed ∧ ¬ missing) :
    store.Acts (failure? ≠ none ∨ missing) changed operation := by
  cases failure? with
  | some error =>
    -- A rule decides before the tree is changed.
    refine ⟨_, ?_, .inl ⟨error, runs, rfl, .inl (by simp)⟩⟩
    rfl
  | none =>
    cases outcome with
    | error error =>
      refine ⟨_, ?_, .inl ⟨error, runs, rfl, .inr (refused error rfl)⟩⟩
      rfl
    | ok tree =>
      obtain ⟨files, present⟩ := accepted tree rfl
      refine ⟨_, ?_, .inr ⟨runs, files, by simp [present]⟩⟩
      rfl

theorem makeDirectories_acts (store : Store) (path : Path) :
    store.Acts (store.failure? .makeDirectories path ≠ none) store.fileMap
      (FileSystem.makeDirectories path) := by
  have acts : store.Acts (store.failure? .makeDirectories path ≠ none ∨ False) store.fileMap
      (FileSystem.makeDirectories path) := by
    apply record_acts rfl
    · intro error refused
      cases refused
    · intro tree made
      cases made
      exact ⟨rfl, id⟩
  simpa using acts

theorem write_acts (store : Store) (path : Path) (content : ByteArray) :
    store.Acts (store.failure? .write path ≠ none)
      (store.fileMap.write (Tree.keyOf path) content) (FileSystem.write path content) := by
  have acts : store.Acts (store.failure? .write path ≠ none ∨ False)
      (store.fileMap.write (Tree.keyOf path) content) (FileSystem.write path content) := by
    apply record_acts rfl
    · intro error refused
      cases refused
    · intro tree written
      cases written
      exact ⟨store.tree.fileMap_write path content, id⟩
  simpa using acts

theorem rename_acts (store : Store) (source target : Path) :
    store.Acts
      ((store.failure? .renameFrom source).or (store.failure? .renameTo target) ≠ none ∨
        store.fileMap (Tree.keyOf source) = none)
      (store.fileMap.rename (Tree.keyOf source) (Tree.keyOf target))
      (FileSystem.rename source target) := by
  apply record_acts rfl
  · intro error refused
    rw [Tree.rename] at refused
    split at refused
    · cases refused
    · assumption
  · intro tree moved
    refine ⟨Tree.fileMap_rename moved, fun missing => ?_⟩
    rw [Tree.rename, show store.tree.files[Tree.keyOf source]? = none from missing] at moved
    cases moved

theorem remove_acts (store : Store) (path : Path) :
    store.Acts (store.failure? .remove path ≠ none ∨ store.fileMap (Tree.keyOf path) = none)
      (store.fileMap.remove (Tree.keyOf path)) (FileSystem.remove path) := by
  apply record_acts rfl
  · intro error refused
    rw [Tree.remove, Tree.isFile_eq] at refused
    split at refused
    · cases refused
    · next absent => simpa [fileMap] using absent
  · intro tree removed
    refine ⟨Tree.fileMap_remove removed, fun missing => ?_⟩
    rw [Tree.remove, Tree.isFile_eq, show store.tree.fileMap (Tree.keyOf path) = none from missing]
      at removed
    cases removed

end Store

end PageCompiler
