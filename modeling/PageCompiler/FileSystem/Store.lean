import PageCompiler.FileSystem.Tree

/-! # An observed file system

A `Store` is a file system in memory that shows what was done to it: it counts the reads and keeps a
journal of every call that changes files, failed calls included. It can also be told to fail: a rule
names an operation, the path it is called with and the error it gives instead of being carried out.
-/

namespace PageCompiler

/-! ## Rules and journal -/

inductive Operation where
  | read
  | write
  | renameFrom
  | renameTo
  | remove
  | makeDirectories
  | list
deriving DecidableEq

/-- An operation on exactly this path fails with this error. -/
structure FailureRule where
  operation : Operation
  path : Text
  error : FileError
deriving DecidableEq

inductive Change where
  | write (path : Path)
  | rename (source target : Path)
  | remove (path : Path)
  | makeDirectories (path : Path)
deriving DecidableEq

/-- A call of the journal, with the error if it failed. -/
structure JournalEntry where
  change : Change
  error? : Option FileError
deriving DecidableEq

structure Store where
  tree : Tree
  rules : List FailureRule
  /-- The changes, oldest first. -/
  journal : List JournalEntry
  /-- The paths that were read, oldest first, failed reads included. -/
  reads : List Path

namespace Store

/-! ## Making a store -/

/-- A store with the given files; of two files with one key the later one stays. -/
def ofFiles (files : List (Path × ByteArray)) (rules : List FailureRule) : Store where
  tree := files.foldl (fun tree (path, content) => tree.write path content) Tree.empty
  rules := rules
  journal := []
  reads := []

/-! ## Questions -/

/-- The error of the first rule about an operation on a path. -/
def failure? (store : Store) (operation : Operation) (path : Path) : Option FileError :=
  (store.rules.find? fun rule => rule.operation = operation ∧ rule.path = path.text).map (·.error)

def readsOf (store : Store) (path : Path) : Nat :=
  store.reads.countP path.same

/-! ## Operations -/

def read (path : Path) : StateM Store (Except FileError ByteArray) := fun store =>
  let counted := { store with reads := store.reads ++ [path] }
  match store.failure? .read path with
  | some error => (.error error, counted)
  | none => (store.tree.read path, counted)

def record (store : Store) (change : Change) : Except FileError Tree → Except FileError Unit × Store
  | .ok tree => (.ok (), { store with tree := tree, journal := store.journal ++ [⟨change, none⟩] })
  | .error error =>
    (.error error, { store with journal := store.journal ++ [⟨change, some error⟩] })

/-- The outcome of an operation that a rule may make fail. -/
def unlessFailing (failure? : Option FileError) (outcome : Except FileError Tree) :
    Except FileError Tree :=
  match failure? with
  | some error => .error error
  | none => outcome

def write (path : Path) (content : ByteArray) : StateM Store (Except FileError Unit) := fun store =>
  store.record (.write path)
    (unlessFailing (store.failure? .write path) (.ok (store.tree.write path content)))

def rename (source target : Path) : StateM Store (Except FileError Unit) := fun store =>
  store.record (.rename source target)
    (unlessFailing ((store.failure? .renameFrom source).or (store.failure? .renameTo target))
      (store.tree.rename source target))

def remove (path : Path) : StateM Store (Except FileError Unit) := fun store =>
  store.record (.remove path)
    (unlessFailing (store.failure? .remove path) (store.tree.remove path))

def makeDirectories (path : Path) : StateM Store (Except FileError Unit) := fun store =>
  store.record (.makeDirectories path)
    (unlessFailing (store.failure? .makeDirectories path) (.ok (store.tree.makeDirectory path)))

def list (path : Path) : StateM Store (Except FileError (List Path)) := fun store =>
  match store.failure? .list path with
  | some error => (.error error, store)
  | none => (store.tree.list path, store)

instance : FileSystem (StateM Store) where
  read := read
  write := write
  rename := rename
  remove := remove
  makeDirectories := makeDirectories
  isFile path := fun store => (store.tree.isFile path, store)
  listDirectory := list
  sizeBound := fun store => (store.tree.totalSize, store)

end Store

end PageCompiler
