import PageCompiler.FileSystem.Basic
import PageCompiler.Source.Scan

/-! # Build errors

Everything that can end a build, with what a user needs to find the cause: files, lines and names.
`BuildError.message` is the one place where they are put into words.
-/

namespace PageCompiler

/-! ## Phases -/

inductive Phase where
  | scan
  | resolve
  | assemble
  | emit
deriving DecidableEq

namespace Phase

def all : List Phase :=
  [scan, resolve, assemble, emit]

def word : Phase → Text
  | scan => "scan".toList
  | resolve => "resolve".toList
  | assemble => "assemble".toList
  | emit => "emit".toList

/-- The name under which the log lines of a phase are filtered. -/
def target (phase : Phase) : Text :=
  "weave::".toList ++ phase.word

end Phase

/-! ## Errors -/

inductive BuildError where
  /-- A source text that cannot be cut into segments. -/
  | malformed (path : Path) (line column : Nat) (message : Text)
  /-- An imported module or included file that is in none of the places searched. -/
  | moduleNotFound (name : Text) (importer : Path) (line : Nat) (searched : List Path)
  /-- Modules that import each other; the chain ends with the module it starts with. -/
  | circularImport (chain : List Text)
  /-- One module name for two files. -/
  | duplicateModule (name : Text) (existing conflicting : Path)
  /-- An import of a module that was never registered. -/
  | unresolvedImport (name : Text) (path : Path)
  /-- Imports that nest deeper than the file system can hold names for. -/
  | nestingLimit (name : Text)
  | file (path : Path) (cause : FileError)
  | notUtf8 (path : Path)
deriving DecidableEq

namespace BuildError

def ofFileError (path : Path) : FileError → BuildError
  | .invalidUtf8 _ => notUtf8 path
  | cause => file path cause

def ofScanError (path : Path) (error : ScanError) : BuildError :=
  malformed path error.position.line error.position.column error.fault.message

def searchedText (searched : List Path) : Text :=
  if searched.isEmpty then "(no search paths)".toList
  else Text.join ", ".toList (searched.map Path.text)

/-- The message of a file error, with the path in front if the error does not name one. -/
def causeText (path : Path) (cause : FileError) : Text :=
  match cause.path? with
  | some _ => cause.message
  | none => path.text ++ ": ".toList ++ cause.message

def message : BuildError → Text
  | malformed path line column message =>
    path.text ++ ":".toList ++ Text.ofNat line ++ ":".toList ++ Text.ofNat column
      ++ ": malformed source: ".toList ++ message
  | moduleNotFound name importer line searched =>
    "module '".toList ++ name ++ "' not found (imported from ".toList ++ importer.text
      ++ ":".toList ++ Text.ofNat line ++ "); searched: ".toList ++ searchedText searched
  | circularImport chain => "circular import: ".toList ++ Text.join " → ".toList chain
  | duplicateModule name existing conflicting =>
    "duplicate module '".toList ++ name ++ "': already bound to ".toList ++ existing.text
      ++ ", cannot rebind to ".toList ++ conflicting.text
  | unresolvedImport name path =>
    "import of '".toList ++ name ++ "' in ".toList ++ path.text
      ++ " has no registered module".toList
  | nestingLimit name => "imports nest too deeply at '".toList ++ name ++ "'".toList
  | file path cause => "I/O error: ".toList ++ causeText path cause
  | notUtf8 path => path.text ++ " is not valid UTF-8".toList

/-- The phase in which the error arises; a failed file operation can belong to any. -/
def phase? : BuildError → Option Phase
  | malformed .. => some .scan
  | moduleNotFound .. | circularImport .. | duplicateModule .. | nestingLimit .. => some .resolve
  | unresolvedImport .. => some .assemble
  | file .. | notUtf8 .. => none

def path? : BuildError → Option Path
  | malformed path .. | unresolvedImport _ path | file path _ | notUtf8 path => some path
  | moduleNotFound _ importer .. => some importer
  | duplicateModule _ _ conflicting => some conflicting
  | circularImport _ | nestingLimit _ => none

def line? : BuildError → Option Nat
  | malformed _ line .. | moduleNotFound _ _ line _ => some line
  | _ => none

def column? : BuildError → Option Nat
  | malformed _ _ column _ => some column
  | _ => none

end BuildError

end PageCompiler
