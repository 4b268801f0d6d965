import PageCompiler.Path.Basic

/-! # File systems

What a build asks of a file system, as a class over the monad that carries the operations out: the
same build runs against files in memory, against the model of a disk, and against a real disk. An
operation that fails gives its error as a value, because some failures, such as that of removing a
temporary file, end nothing.
-/

namespace PageCompiler

/-- Why a file operation failed. The path is the text that the file system knows the file by. -/
inductive FileError where
  | notFound (path : Text)
  | permissionDenied (path : Text)
  | invalidUtf8 (path : Text)
  | failed (path message : Text)
  /-- An error that is not about one path. -/
  | custom (message : Text)
deriving DecidableEq

inductive SystemErrorKind where
  | missing
  | denied
  | other
deriving DecidableEq

namespace FileError

/-- The error for a failed call of the operating system. -/
def ofSystem (path : Path) (kind : SystemErrorKind) (message : Text) : FileError :=
  match kind with
  | .missing => .notFound path.text
  | .denied => .permissionDenied path.text
  | .other => .failed path.text message

def isNotFound : FileError → Bool
  | notFound _ => true
  | _ => false

def path? : FileError → Option Text
  | notFound path | permissionDenied path | invalidUtf8 path | failed path _ => some path
  | custom _ => none

def message : FileError → Text
  | notFound path => "Path not found: ".toList ++ path
  | permissionDenied path => "Permission denied: ".toList ++ path
  | invalidUtf8 path => "Invalid UTF-8 in '".toList ++ path ++ "'".toList
  | failed path message => "IO error on '".toList ++ path ++ "': ".toList ++ message
  | custom message => message

end FileError

/-- The file operations of a build. -/
class FileSystem (m : Type → Type) where
  read : Path → m (Except FileError ByteArray)
  /-- Creates the file or replaces its content. -/
  write : Path → ByteArray → m (Except FileError Unit)
  rename : Path → Path → m (Except FileError Unit)
  remove : Path → m (Except FileError Unit)
  makeDirectories : Path → m (Except FileError Unit)
  isFile : Path → m Bool
  /-- The paths of the files and directories in a directory, sorted. -/
  listDirectory : Path → m (Except FileError (List Path))
  /-- A number of bytes that all files together do not exceed. -/
  sizeBound : m Nat

namespace FileSystem

def decode (path : Path) : Except FileError ByteArray → Except FileError Text
  | .error error => .error error
  | .ok bytes =>
    match Text.ofBytes? bytes with
    | some text => .ok text
    | none => .error (.invalidUtf8 path.text)

def readText {m : Type → Type} [Monad m] [FileSystem m] (path : Path) :
    m (Except FileError Text) := do
  return decode path (← read path)

end FileSystem

end PageCompiler
