import Mathlib.Control.Monad.Basic
import PageCompiler.Proofs.Artifact.Staging

/-! # Staged writing is atomic

A write that fails leaves every file as it was, whichever forward step failed: making a directory,
writing a temporary file, moving an old file to its backup or moving a temporary file into place.
-/

namespace PageCompiler

open PageCompiler.Tree (keyOf)

/-- A rule that can make a forward step of writing these artifacts fail, but no repair. -/
inductive HitsForwardStep (artifacts : List Artifact) (rule : FailureRule) : Prop where
  | makeDirectories (operation : rule.operation = .makeDirectories)
  | write (operation : rule.operation = .write)
  | moveOld (artifact : Artifact) (member : artifact ∈ artifacts)
      (operation : rule.operation = .renameFrom) (path : rule.path = artifact.path.text)
  | moveStaged (artifact : Artifact) (member : artifact ∈ artifacts)
      (operation : rule.operation = .renameFrom)
      (path : rule.path = (stagingPath artifact.path).text)
  | moveToBackup (artifact : Artifact) (member : artifact ∈ artifacts)
      (operation : rule.operation = .renameTo)
      (path : rule.path = (backupPath artifact.path).text)

theorem failure?_eq_none {store : Store} {operation : Operation} {path : Path}
    (spared : ∀ rule ∈ store.rules, rule.operation = operation → rule.path ≠ path.text) :
    store.failure? operation path = none := by
  rw [Store.failure?, Option.map_eq_none_iff, List.find?_eq_none]
  intro rule member
  simpa using spared rule member

/-- Rules about forward steps spare the repairs, because no two of the paths share a key. -/
theorem repairsSpared_of_forward {store : Store} {artifacts : List Artifact}
    (distinct : (storedKeys (artifacts.map Artifact.path)).Nodup)
    (forward : ∀ rule ∈ store.rules, HitsForwardStep artifacts rule) :
    RepairsSpared store (artifacts.map Artifact.path) := by
  have apart : ∀ {first second : Path}, first ∈ artifacts.map Artifact.path →
      second ∈ artifacts.map Artifact.path →
        first.text ≠ (backupPath second).text ∧
          (stagingPath first).text ≠ (backupPath second).text := by
    intro first second firstMember secondMember
    obtain ⟨byPath, byStaging⟩ := ne_backupKey distinct firstMember secondMember
    exact ⟨fun same => byPath (congrArg (fun text => keyOf ⟨text⟩) same),
      fun same => byStaging (congrArg (fun text => keyOf ⟨text⟩) same)⟩
  have listed : ∀ {artifact : Artifact}, artifact ∈ artifacts →
      artifact.path ∈ artifacts.map Artifact.path := fun member => List.mem_map_of_mem member
  constructor
  · intro path
    refine failure?_eq_none fun rule member operation => ?_
    cases forward rule member <;> simp_all
  · intro path member
    constructor
    · refine failure?_eq_none fun rule ruleMember operation same => ?_
      cases forward rule ruleMember with
      | makeDirectories other | write other | moveToBackup _ _ other => simp_all
      | moveOld artifact used _ text => exact (apart (listed used) member).1 (text.symm.trans same)
      | moveStaged artifact used _ text =>
        exact (apart (listed used) member).2 (text.symm.trans same)
    · refine failure?_eq_none fun rule ruleMember operation same => ?_
      cases forward rule ruleMember with
      | makeDirectories other | write other | moveOld _ _ other | moveStaged _ _ other => simp_all
      | moveToBackup artifact used _ text =>
        exact (apart member (listed used)).1 (same.symm.trans text)

section

variable {store mid after : Store} {artifacts : List Artifact}

/-- If all artifacts are staged and then one is refused its place, the files are as before. -/
theorem fileMap_eq_of_commitAll_error {error : BuildError}
    (distinct : (storedKeys (artifacts.map Artifact.path)).Nodup)
    (spared : RepairsSpared store (artifacts.map Artifact.path))
    (stagingAbsent : ∀ artifact ∈ artifacts, store.fileMap (stagingKey artifact.path) = none)
    (backupAbsent : ∀ artifact ∈ artifacts, store.fileMap (backupKey artifact.path) = none)
    (staged : (stageAll [] artifacts : StateM Store _) store = (.ok (), mid))
    (failed : (commitAll [] (artifacts.map Artifact.path) : StateM Store _) mid =
      (.error error, after)) : after.fileMap = store.fileMap := by
  obtain ⟨rules, same⟩ := stageAll_ok staged
  have backupAbsentMid : ∀ path ∈ artifacts.map Artifact.path,
      mid.fileMap (backupKey path) = none := by
    intro path member
    rw [same (backupKey path)]
    · obtain ⟨artifact, used, rfl⟩ := List.mem_map.mp member
      exact backupAbsent artifact used
    · intro staging
      obtain ⟨artifact, used, collides⟩ := List.mem_map.mp staging
      exact (ne_backupKey distinct (List.mem_map_of_mem used) member).2 collides
  obtain ⟨before, -, files, done⟩ :=
    commitAll_error (spared.congr rules) distinct backupAbsentMid failed
  -- Nothing was committed before the first artifact, so there is nothing left to undo.
  cases done
  funext key
  rw [files, FileMap.removeAll_apply]
  split
  · next member =>
    simp only [List.map_map, List.mem_map, Function.comp_apply] at member
    obtain ⟨artifact, member, rfl⟩ := member
    exact (stagingAbsent artifact member).symm
  · next outside => exact same key (by simpa using outside)

theorem fileMap_eq_of_writeArtifacts_error {error : BuildError}
    (distinct : (storedKeys (artifacts.map Artifact.path)).Nodup)
    (spared : RepairsSpared store (artifacts.map Artifact.path))
    (stagingAbsent : ∀ artifact ∈ artifacts, store.fileMap (stagingKey artifact.path) = none)
    (backupAbsent : ∀ artifact ∈ artifacts, store.fileMap (backupKey artifact.path) = none)
    (failed : (writeArtifacts artifacts : StateM Store _) store = (.error error, after)) :
    after.fileMap = store.fileMap := by
  cases staged : (stageAll [] artifacts : StateM Store _) store with
  | mk outcome mid =>
    rw [writeArtifacts, bind_run staged] at failed
    cases outcome with
    | error cause =>
      cases failed
      have stagingDistinct := nodup_map_stagingKey distinct
      rw [List.map_map] at stagingDistinct
      simpa using stageAll_error spared.remove stagingAbsent stagingDistinct staged
    | ok value =>
      cases committing : (commitAll [] (artifacts.map Artifact.path) : StateM Store _) mid with
      | mk outcome last =>
        replace failed := (bind_run committing).symm.trans failed
        cases outcome with
        | error cause =>
          cases failed
          exact fileMap_eq_of_commitAll_error distinct spared stagingAbsent backupAbsent staged
            committing
        | ok committed =>
          cases cleaned : (discard (committed.filterMap Commit.backup?) : StateM Store Unit) last
          cases (bind_run cleaned).symm.trans failed

end

/-- A write that fails through its forward steps leaves the files, each with its content, as they
were: no new file stays behind, and every old one is back. -/
theorem writeArtifacts_error_files_eq (store : Store) (artifacts : List Artifact)
    (distinct : (storedKeys (artifacts.map Artifact.path)).Nodup)
    (fresh : ∀ artifact ∈ artifacts, store.tree.isFile (stagingPath artifact.path) = false ∧
      store.tree.isFile (backupPath artifact.path) = false)
    (forward : ∀ rule ∈ store.rules, HitsForwardStep artifacts rule)
    {error : BuildError}
    (failed : ((writeArtifacts artifacts : StateM Store _) store).1 = .error error) :
    ((writeArtifacts artifacts : StateM Store _) store).2.tree.files.toList =
      store.tree.files.toList := by
  have absent : ∀ path : Path, store.tree.isFile path = false →
      store.fileMap (keyOf path) = none := by
    intro path missing
    simpa [Tree.isFile_eq, Store.fileMap] using missing
  apply Tree.toList_eq_of_fileMap_eq
  exact fileMap_eq_of_writeArtifacts_error distinct (repairsSpared_of_forward distinct forward)
    (fun artifact member => absent _ (fresh artifact member).1)
    (fun artifact member => absent _ (fresh artifact member).2) (Prod.ext failed rfl)

/-- An older page, and a rule that refuses to move the new stylesheet into place. -/
def stylesheetRefused : Store :=
  .ofFiles [(.ofString "/dist/main.html", "previous".toUTF8)]
    [⟨.renameFrom, "/dist/main.css.weave-tmp".toList, .permissionDenied "/dist/main.css".toList⟩]

def pageAndStylesheet : List Artifact :=
  [⟨.ofString "/dist/main.html", "text/html".toList, "<html>".toList⟩,
    ⟨.ofString "/dist/main.css", "text/css".toList, "p {}".toList⟩]

/-- The page is in place already when the stylesheet is refused, and the older page comes back. -/
theorem writeArtifacts_error_files_eq_stylesheetRefused :
    ((writeArtifacts pageAndStylesheet : StateM Store _) stylesheetRefused).1 =
        .error (.file (.ofString "/dist/main.css") (.permissionDenied "/dist/main.css".toList)) ∧
      ((writeArtifacts pageAndStylesheet : StateM Store _) stylesheetRefused).2.tree.files.toList =
        [("/dist/main.html".toList, "previous".toUTF8)] := by
  have failed : ((writeArtifacts pageAndStylesheet : StateM Store _) stylesheetRefused).1 =
      .error (.file (.ofString "/dist/main.css") (.permissionDenied "/dist/main.css".toList)) := by
    decide +kernel
  have forward : ∀ rule ∈ stylesheetRefused.rules, HitsForwardStep pageAndStylesheet rule := by
    intro rule member
    obtain rfl := List.mem_singleton.mp member
    exact .moveStaged _ (List.mem_cons_of_mem _ List.mem_cons_self) rfl (by decide +kernel)
  have restored := writeArtifacts_error_files_eq stylesheetRefused pageAndStylesheet
    (by decide +kernel) (by decide +kernel) forward failed
  exact ⟨failed, restored.trans (by decide +kernel)⟩

end PageCompiler
