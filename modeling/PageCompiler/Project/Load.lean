import PageCompiler.Project.Reader

/-! # Loading the project

A project file can be named; then it has to exist. If none is named, the project file of the current
directory is taken, and without one the project has its defaults.
-/

namespace PageCompiler.Project

/-- The project file of a directory. -/
def defaultFile : Path :=
  .ofString "weave.json"

/-- What is said of a text that is no project file. -/
def unreadable : Text :=
  "not a project file".toList

section

variable {m : Type → Type} [Monad m] [FileSystem m]

def readFile (path : Path) : BuildM m ProjectConfig := do
  match ← (FileSystem.readText path : m (Except FileError Text)) with
  | .error error =>
    throw (.config ("cannot read '".toList ++ path.text ++ "': ".toList ++ error.message))
  | .ok text =>
    match read? text (path.parent?.getD ⟨[]⟩) with
    | some project => return project
    | none =>
      throw (.config ("failed to parse '".toList ++ path.text ++ "': ".toList ++ unreadable))

/-- Loads the project file that is named, or the default one. -/
def load (named? : Option Path) : BuildM m ProjectConfig := do
  match named? with
  | some path => readFile path
  | none =>
    if ← (FileSystem.isFile defaultFile : m Bool) then readFile defaultFile
    else return {}

end

end PageCompiler.Project
