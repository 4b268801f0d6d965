import PageCompiler.Artifact.Plan
import PageCompiler.Error.Build

/-! # Staged writing

Artifacts replace older files all together or not at all. Each one is first written to a temporary
file beside its path. When all are there, they are renamed into place one after the other, and an
older file is renamed to a backup before that. If a step fails, the temporary files are removed and
the older files come back; failures of these repairs are passed over. At the end the backups are
removed.
-/

namespace PageCompiler

/-- The file that an artifact is first written to. -/
def stagingPath (path : Path) : Path :=
  path.sibling ".weave-tmp".toList

/-- The file that keeps what an artifact replaces. -/
def backupPath (path : Path) : Path :=
  path.sibling ".weave-bak".toList

/-- An artifact in its place, with the backup of what it replaced. -/
structure Commit where
  path : Path
  backup? : Option Path
deriving DecidableEq

section

variable {m : Type → Type} [Monad m] [FileSystem m]

/-- Removes files that are no longer needed, as far as that works. -/
def discard (paths : List Path) : m Unit :=
  paths.forM fun path => do
    let _ ← FileSystem.remove path

/-- Moves a backup to where it came from, if that works. -/
def restore (backup path : Path) : m Unit := do
  let _ ← FileSystem.rename backup path

/-! ## Staging -/

/-- Writes the content of an artifact to its temporary file. -/
def stage (artifact : Artifact) : m (Except BuildError Unit) := do
  let prepared ←
    match artifact.path.parent? with
    | some parent =>
      if parent.text.isEmpty then pure (.ok ())
      else
        (fun made => made.mapError (BuildError.ofFileError parent))
          <$> FileSystem.makeDirectories parent
    | none => pure (.ok ())
  match prepared with
  | .error error => return .error error
  | .ok () =>
    let written ← FileSystem.write (stagingPath artifact.path) artifact.content.toBytes
    return written.mapError (BuildError.ofFileError artifact.path)

/-- Stages artifacts; `staged` are the temporary files that are there already. -/
def stageAll (staged : List Path) : List Artifact → m (Except BuildError Unit)
  | [] => return .ok ()
  | artifact :: others => do
    match ← stage artifact with
    | .error error =>
      discard staged
      return .error error
    | .ok () => stageAll (staged ++ [stagingPath artifact.path]) others

/-! ## Committing -/

/-- Moves the file at `path` to its backup; none if there is no file. -/
def backUp (path : Path) : m (Except FileError (Option Path)) := do
  if ← FileSystem.isFile path then
    let moved ← FileSystem.rename path (backupPath path)
    return moved.map fun () => some (backupPath path)
  else return .ok none

/-- Moves a temporary file into its place. -/
def commit (path : Path) : m (Except FileError Commit) := do
  match ← backUp path with
  | .error error => return .error error
  | .ok backup? =>
    match ← FileSystem.rename (stagingPath path) path with
    | .ok () => return .ok ⟨path, backup?⟩
    | .error error =>
      if let some backup := backup? then restore backup path
      return .error error

/-- Takes an artifact back out of its place. -/
def undo (done : Commit) : m Unit := do
  discard [done.path]
  if let some backup := done.backup? then restore backup done.path

/-- Commits the artifacts at the given paths; `committed` are in place already, the latest first. -/
def commitAll (committed : List Commit) : List Path → m (Except BuildError (List Commit))
  | [] => return .ok committed.reverse
  | path :: others => do
    match ← commit path with
    | .ok done => commitAll (done :: committed) others
    | .error error =>
      discard ((path :: others).map stagingPath)
      committed.forM undo
      return .error (.ofFileError path error)

/-! ## Writing -/

/-- Writes artifacts, all of them or none. -/
def writeArtifacts (artifacts : List Artifact) : m (Except BuildError Unit) := do
  match ← stageAll [] artifacts with
  | .error error => return .error error
  | .ok () =>
    match ← commitAll [] (artifacts.map Artifact.path) with
    | .error error => return .error error
    | .ok committed =>
      discard (committed.filterMap Commit.backup?)
      return .ok ()

end

end PageCompiler
