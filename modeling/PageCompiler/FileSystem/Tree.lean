import PageCompiler.FileSystem.Basic
import Std.Data.TreeMap
import Std.Data.TreeSet

/-! # Files in memory

A `Tree` keeps file contents under texts. The key of a path has `/` for every backslash and no slash
at its end. A directory exists when it was created or when the key of some file or created directory
lies under it; a file may have files under it, and nothing has to be created before it is written.
-/

namespace PageCompiler

structure Tree where
  files : Std.TreeMap Text ByteArray compare
  /-- The keys of the directories that were created as such. -/
  directories : Std.TreeSet Text compare

namespace Tree

def empty : Tree :=
  ⟨∅, ∅⟩

/-! ## Keys -/

/-- The text under which a path is stored. -/
def keyOf (path : Path) : Text :=
  Path.dropEndSlashes (path.text.map fun c => if c = '\\' then '/' else c)

/-- What the keys of everything in a directory start with. -/
def directoryPrefix (key : Text) : Text :=
  if key.getLast? = some '/' then key else key ++ ['/']

/-! ## Questions -/

/-- All keys: files, then created directories. -/
def keys (tree : Tree) : List Text :=
  tree.files.keys ++ tree.directories.toList

def isFile (tree : Tree) (path : Path) : Bool :=
  tree.files.contains (keyOf path)

def isDirectoryKey (tree : Tree) (key : Text) : Bool :=
  tree.directories.contains key || tree.keys.any (directoryPrefix key).isPrefixOf

def isDirectory (tree : Tree) (path : Path) : Bool :=
  tree.isDirectoryKey (keyOf path)

def isPresent (tree : Tree) (path : Path) : Bool :=
  tree.isFile path || tree.isDirectory path

def read (tree : Tree) (path : Path) : Except FileError ByteArray :=
  match tree.files[keyOf path]? with
  | some content => .ok content
  | none => .error (.notFound (keyOf path))

/-- The name behind `start` up to the next slash, if `key` starts so and a name is there. -/
def childName? (start key : Text) : Option Text :=
  match start.isPrefixOf? key with
  | some rest =>
    let name := rest.takeWhile (· != '/')
    if name.isEmpty then none else some name
  | none => none

def list (tree : Tree) (path : Path) : Except FileError (List Path) :=
  let key := keyOf path
  if tree.isDirectoryKey key then
    let start := directoryPrefix key
    let children := tree.keys.filterMap fun key => (childName? start key).map (start ++ ·)
    .ok ((Std.TreeSet.ofList children compare).toList.map Path.mk)
  else .error (.notFound key)

def totalSize (tree : Tree) : Nat :=
  (tree.files.values.map ByteArray.size).foldl (· + ·) 0

/-! ## Changes -/

def write (tree : Tree) (path : Path) (content : ByteArray) : Tree :=
  { tree with files := tree.files.insert (keyOf path) content }

/-- Moves a file; the error leaves everything as it was. -/
def rename (tree : Tree) (source target : Path) : Except FileError Tree :=
  match tree.files[keyOf source]? with
  | some content =>
    .ok { tree with files := (tree.files.erase (keyOf source)).insert (keyOf target) content }
  | none => .error (.notFound (keyOf source))

def remove (tree : Tree) (path : Path) : Except FileError Tree :=
  if tree.isFile path then .ok { tree with files := tree.files.erase (keyOf path) }
  else .error (.notFound (keyOf path))

def makeDirectory (tree : Tree) (path : Path) : Tree :=
  { tree with directories := tree.directories.insert (keyOf path) }

/-! ## What changes do to the files -/

theorem read_write (tree : Tree) (path other : Path) (content : ByteArray) :
    (tree.write path content).read other =
      if keyOf path = keyOf other then .ok content else tree.read other := by
  by_cases same : keyOf path = keyOf other <;>
    simp [write, read, Std.TreeMap.getElem?_insert, same]

theorem isFile_iff_read (tree : Tree) (path : Path) :
    tree.isFile path = true ↔ ∃ content, tree.read path = .ok content := by
  cases found : tree.files[keyOf path]? with
  | none => simp [isFile, read, found, Std.TreeMap.contains_eq_isSome_getElem?]
  | some content => simp [isFile, read, found, Std.TreeMap.contains_eq_isSome_getElem?]

theorem read_makeDirectory (tree : Tree) (path other : Path) :
    (tree.makeDirectory path).read other = tree.read other := rfl

end Tree

end PageCompiler
