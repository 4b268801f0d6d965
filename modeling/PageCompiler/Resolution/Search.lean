import PageCompiler.FileSystem.Basic
import PageCompiler.Name.Policy
import PageCompiler.Path.Normal

/-! # Searching for files

A file is looked for under a list of directories, and the first directory that has it wins. Where
names are compared without their case, a directory that does not have the exact path is searched
once more, level by level, for names that differ in case only.
-/

namespace PageCompiler

/-- The paths without those that name the same place as an earlier one. -/
def dropRepeatedPaths (paths : List Path) : List Path :=
  paths.foldl (fun kept path => if kept.any path.same then kept else kept ++ [path]) []

/-- Where a relative path is expected under a directory. -/
def candidate (relative directory : Path) : Path :=
  (directory.join relative).normalize

/-- Whether the file name of `path` is `wanted`, which is in small letters, in any letter case. -/
def isNamed (wanted : Text) (path : Path) : Bool :=
  path.fileName?.any fun name => Text.lowercase name == wanted

section

variable {m : Type → Type} [Monad m] [FileSystem m]

/-- The file that `names`, in any letter case, lead to from a directory. -/
def findIgnoringCase (current : Path) : List Text → m (Option Path)
  | [] => do
    if ← FileSystem.isFile current then return some current else return none
  | name :: names => do
    match ← FileSystem.listDirectory current with
    | .error _ => return none
    | .ok children =>
      match children.find? (isNamed (Text.lowercase name)) with
      | some child => findIgnoringCase child names
      | none => return none

/-- The file that a relative path names in a directory. -/
def findIn (matching : NameMatching) (relative directory : Path) : m (Option Path) := do
  if ← FileSystem.isFile (candidate relative directory) then
    return some (candidate relative directory)
  else
    match matching with
    | .exact => return none
    | .ignoreCase => findIgnoringCase directory (relative.components.map Path.Component.text)

/-- The file that a relative path names in the first directory that has one. -/
def findFirst (matching : NameMatching) (relative : Path) : List Path → m (Option Path)
  | [] => return none
  | directory :: others => do
    match ← findIn matching relative directory with
    | some path => return some path
    | none => findFirst matching relative others

end

end PageCompiler
