import PageCompiler.FileSystem.Basic
import Std.Data.TreeMap

/-! # A disk

The directory tree of an operating system, with a current directory that relative paths start from.
A path leads from place to place: a name leads into the directory, `..` out of it, and an empty
piece or a `.` stays, but all of them only where a directory is. What exists is kept in one table by
its place.
-/

namespace PageCompiler

/-! ## Errors -/

/-- Why the operating system refuses a call. -/
inductive SystemError where
  | missing
  | alreadyExists
  | notDirectory
  | isDirectory
  | nameTooLong
  | nulCharacter
deriving DecidableEq

namespace SystemError

def kind : SystemError → SystemErrorKind
  | missing => .missing
  | _ => .other

def message : SystemError → Text
  | missing => "No such file or directory (os error 2)".toList
  | alreadyExists => "File exists (os error 17)".toList
  | notDirectory => "Not a directory (os error 20)".toList
  | isDirectory => "Is a directory (os error 21)".toList
  | nameTooLong => "File name too long (os error 36)".toList
  | nulCharacter => "file name contained an unexpected NUL byte".toList

def toFileError (path : Path) (error : SystemError) : FileError :=
  .ofSystem path error.kind error.message

end SystemError

/-! ## The tree -/

inductive DiskEntry where
  | file (content : ByteArray)
  | directory

/-- A place in the tree: the names on the way from the root. -/
abbrev Place := List Text

structure Disk where
  /-- The directory that relative paths start from. -/
  current : Place
  /-- What exists, by the texts of the places; the root always does. -/
  entries : Std.TreeMap Text DiskEntry compare

namespace Disk

/-- The absolute path of a place. -/
def textOf (place : Place) : Text :=
  '/' :: Text.join ['/'] place

def entry? (disk : Disk) (place : Place) : Option DiskEntry :=
  if place = [] then some .directory else disk.entries[textOf place]?

def put (disk : Disk) (place : Place) (entry : DiskEntry) : Disk :=
  { disk with entries := disk.entries.insert (textOf place) entry }

def drop (disk : Disk) (place : Place) : Disk :=
  { disk with entries := disk.entries.erase (textOf place) }

/-! ## Walking -/

/-- The longest name of a directory entry, in bytes. -/
def nameLimit : Nat := 255

/-- The longest path that the operating system takes, in bytes. -/
def pathLimit : Nat := 4095

def enter (disk : Disk) (place : Place) (piece : Text) : Except SystemError Place :=
  match disk.entry? place with
  | none => .error .missing
  | some (.file _) => .error .notDirectory
  | some .directory =>
    if piece = [] ∨ piece = ['.'] then .ok place
    else if piece = ['.', '.'] then .ok place.dropLast
    else if nameLimit < piece.byteSize then .error .nameTooLong
    else .ok (place ++ [piece])

/-- The place that a path leads to. Everything on the way is a directory; whether something is at
the place itself is left open. -/
def walk (disk : Disk) (text : Text) : Except SystemError Place :=
  if '\x00' ∈ text then .error .nulCharacter
  else if text = [] then .error .missing
  else if pathLimit < text.byteSize then .error .nameTooLong
  else
    (text.splitOn '/').foldlM disk.enter (if text.head? = some '/' then [] else disk.current)

def find (disk : Disk) (text : Text) : Except SystemError (Place × DiskEntry) := do
  let place ← disk.walk text
  match disk.entry? place with
  | some entry => return (place, entry)
  | none => throw .missing

/-! ## Questions -/

def isFile (disk : Disk) (text : Text) : Bool :=
  match disk.find text with
  | .ok (_, .file _) => true
  | _ => false

def isDirectory (disk : Disk) (text : Text) : Bool :=
  match disk.find text with
  | .ok (_, .directory) => true
  | _ => false

def read (disk : Disk) (text : Text) : Except SystemError ByteArray := do
  match ← disk.find text with
  | (_, .file content) => return content
  | (_, .directory) => throw .isDirectory

/-- The names of the entries of the directory at a place, sorted. -/
def namesIn (disk : Disk) (place : Place) : List Text :=
  let start := if place = [] then ['/'] else textOf place ++ ['/']
  disk.entries.keys.filterMap fun key =>
    (start.isPrefixOf? key).filter fun name => !name.isEmpty && '/' ∉ name

def list (disk : Disk) (text : Text) : Except SystemError (List Text) := do
  match ← disk.find text with
  | (place, .directory) => return disk.namesIn place
  | (_, .file _) => throw .notDirectory

def totalSize (disk : Disk) : Nat :=
  (disk.entries.values.map fun entry =>
    match entry with
    | .file content => content.size
    | .directory => 0).foldl (· + ·) 0

/-! ## Changes -/

/-- The place of the file that a path names or shall name. -/
def filePlace (disk : Disk) (text : Text) : Except SystemError Place := do
  if text.getLast? = some '/' then
    let _ ← disk.walk (Path.dropEndSlashes text)
    throw .isDirectory
  let place ← disk.walk text
  match disk.entry? place with
  | some .directory => throw .isDirectory
  | _ => return place

def write (disk : Disk) (text : Text) (content : ByteArray) : Except SystemError Disk := do
  return disk.put (← disk.filePlace text) (.file content)

/-- Creates an empty file, if there is none. -/
def touch (disk : Disk) (text : Text) : Except SystemError Disk := do
  let place ← disk.filePlace text
  match disk.entry? place with
  | none => return disk.put place (.file .empty)
  | some _ => return disk

def remove (disk : Disk) (text : Text) : Except SystemError Disk := do
  match ← disk.find text with
  | (place, .file _) => return disk.drop place
  | (_, .directory) => throw .isDirectory

/-- Moves a file, replacing another one. Directories stay where they are. -/
def rename (disk : Disk) (source target : Text) : Except SystemError Disk := do
  let (place, entry) ← disk.find source
  match entry with
  | .directory => throw .isDirectory
  | .file _ => return (disk.drop place).put (← disk.filePlace target) entry

def makeDirectory (disk : Disk) (text : Text) : Except SystemError Disk := do
  let place ← disk.walk (Path.dropEndSlashes text)
  match disk.entry? place with
  | some _ => throw .alreadyExists
  | none => return disk.put place .directory

def ensureDirectory (disk : Disk) (text : Text) : Except SystemError Disk :=
  match disk.makeDirectory text with
  | .ok made => .ok made
  | .error error => if disk.isDirectory text then .ok disk else .error error

/-- The directories on the way that a path leads, the path itself included. -/
def ancestors (text : Text) : List Text :=
  let pieces := text.splitOn '/'
  ((List.range pieces.length).map fun count => Text.join ['/'] (pieces.take (count + 1))).filter
    fun ancestor => !ancestor.isEmpty

/-- Creates the directories on the way that a path leads, as far as they are made. -/
def ensureAll (disk : Disk) : List Text → Disk × Except SystemError Unit
  | [] => (disk, .ok ())
  | text :: others =>
    match disk.ensureDirectory text with
    | .ok made => made.ensureAll others
    | .error error => (disk, .error error)

/-- Creates a directory and its missing parents. The parents are looked at only if the directory
cannot be created without them. -/
def makeDirectories (disk : Disk) (text : Text) : Disk × Except SystemError Unit :=
  if text = [] then (disk, .ok ())
  else
    match disk.ensureDirectory text with
    | .ok made => (made, .ok ())
    | .error .missing => disk.ensureAll (ancestors text)
    | .error error => (disk, .error error)

/-! ## File system -/

/-- The outcome of a change, with the disk that it leaves. -/
def changed (path : Path) (disk : Disk) : Except SystemError Disk → Except FileError Unit × Disk
  | .ok after => (.ok (), after)
  | .error error => (.error (error.toFileError path), disk)

instance : FileSystem (StateM Disk) where
  read path := fun disk => ((disk.read path.text).mapError (SystemError.toFileError path), disk)
  write path content := fun disk => changed path disk (disk.write path.text content)
  rename source target := fun disk =>
    changed source disk (disk.rename source.text target.text)
  remove path := fun disk => changed path disk (disk.remove path.text)
  makeDirectories path := fun disk =>
    let (after, outcome) := disk.makeDirectories path.text
    (outcome.mapError (SystemError.toFileError path), after)
  isFile path := fun disk => (disk.isFile path.text, disk)
  listDirectory path := fun disk =>
    (((disk.list path.text).map (List.map fun name => path.join ⟨name⟩)).mapError
      (SystemError.toFileError path), disk)
  sizeBound := fun disk => (disk.totalSize, disk)

end Disk

end PageCompiler
