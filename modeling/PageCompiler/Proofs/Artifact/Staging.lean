import PageCompiler.Artifact.Staging
import PageCompiler.Proofs.FileSystem.FileMap

/-! # What staged writing does to the files

Staged writing is followed step by step on the file map of a store. A step that fails leaves the
map as it was, because whatever it did is undone at once; the steps before it are undone one by one
in `commitAll_error`. All of this needs that the paths, the temporary files and the backups do not
get in each other's way (`storedKeys`), and that no rule makes a repair fail (`RepairsSpared`).
-/

namespace PageCompiler

open PageCompiler.Tree (keyOf)

theorem bind_run {σ α β : Type} {first : StateM σ α} {next : α → StateM σ β} {before after : σ}
    {value : α} (run : first before = (value, after)) :
    (first >>= next) before = next value after := by
  simp [bind, StateT.bind, run]

theorem map_run {σ α β : Type} {action : StateM σ α} {function : α → β} {before after : σ}
    {value : α} (run : action before = (value, after)) :
    (function <$> action) before = (function value, after) := by
  simp [Functor.map, StateT.map, run]

/-! ## Keys -/

def stagingKey (path : Path) : Text :=
  keyOf (stagingPath path)

def backupKey (path : Path) : Text :=
  keyOf (backupPath path)

/-- The keys that writing to these paths uses. -/
def storedKeys (paths : List Path) : List Text :=
  paths.flatMap fun path => [keyOf path, stagingKey path, backupKey path]

theorem mem_storedKeys {paths : List Path} {key : Text} :
    key ∈ storedKeys paths ↔
      ∃ path ∈ paths, key = keyOf path ∨ key = stagingKey path ∨ key = backupKey path := by
  simp [storedKeys]

theorem nodup_storedKeys_cons {path : Path} {paths : List Path} :
    (storedKeys (path :: paths)).Nodup ↔
      [keyOf path, stagingKey path, backupKey path].Nodup ∧ (storedKeys paths).Nodup ∧
        ∀ key ∈ [keyOf path, stagingKey path, backupKey path], key ∉ storedKeys paths := by
  rw [storedKeys, List.flatMap_cons, ← storedKeys, List.nodup_append]
  refine and_congr_right fun _ => and_congr_right fun _ => ?_
  exact ⟨fun apart key here there => apart key here key there rfl,
    fun apart key here other there same => apart key here (same ▸ there)⟩

theorem nodup_map_stagingKey {paths : List Path} (distinct : (storedKeys paths).Nodup) :
    (paths.map stagingKey).Nodup := by
  induction paths with
  | nil => exact List.nodup_nil
  | cons path others ih =>
    obtain ⟨-, rest, apart⟩ := nodup_storedKeys_cons.mp distinct
    refine List.nodup_cons.mpr ⟨fun repeated => ?_, ih rest⟩
    obtain ⟨other, member, same⟩ := List.mem_map.mp repeated
    exact apart (stagingKey path) (by simp)
      (mem_storedKeys.mpr ⟨other, member, .inr (.inl same.symm)⟩)

/-- Neither an artifact nor a temporary file is where a backup goes. -/
theorem ne_backupKey {paths : List Path} (distinct : (storedKeys paths).Nodup) {first second : Path}
    (firstMember : first ∈ paths) (secondMember : second ∈ paths) :
    keyOf first ≠ backupKey second ∧ stagingKey first ≠ backupKey second := by
  induction paths with
  | nil => cases firstMember
  | cons path others ih =>
    obtain ⟨here, rest, apart⟩ := nodup_storedKeys_cons.mp distinct
    have used : ∀ {other key}, other ∈ others →
        key = keyOf other ∨ key = stagingKey other ∨ key = backupKey other →
          key ∉ [keyOf path, stagingKey path, backupKey path] := fun member form used =>
      apart _ used (mem_storedKeys.mpr ⟨_, member, form⟩)
    -- Two different paths use different keys; one path uses three different ones.
    rcases List.mem_cons.mp firstMember with rfl | firstRest <;>
      rcases List.mem_cons.mp secondMember with rfl | secondRest
    · simp_all
    · have byBackup := used secondRest (.inr (.inr rfl))
      simp_all [eq_comm]
    · have byPath := used firstRest (.inl rfl)
      have byStaging := used firstRest (.inr (.inl rfl))
      simp_all
    · exact ih rest firstRest secondRest

/-! ## Repairs -/

/-- No rule makes the repair of a failed write to these paths fail. -/
structure RepairsSpared (store : Store) (paths : List Path) : Prop where
  remove : ∀ path, store.failure? .remove path = none
  restore : ∀ path ∈ paths, store.failure? .renameFrom (backupPath path) = none ∧
    store.failure? .renameTo path = none

namespace RepairsSpared

theorem congr {before after : Store} {paths : List Path} (spared : RepairsSpared before paths)
    (rules : after.rules = before.rules) : RepairsSpared after paths := by
  have same := Store.failure?_congr rules
  exact ⟨fun path => same ▸ spared.remove path,
    fun path member => same ▸ spared.restore path member⟩

theorem head {store : Store} {path : Path} {paths : List Path}
    (spared : RepairsSpared store (path :: paths)) : RepairsSpared store [path] := by
  refine ⟨spared.remove, fun other member => ?_⟩
  rw [List.mem_singleton.mp member]
  exact spared.restore path List.mem_cons_self

theorem tail {store : Store} {path : Path} {paths : List Path}
    (spared : RepairsSpared store (path :: paths)) : RepairsSpared store paths :=
  ⟨spared.remove, fun other member => spared.restore other (List.mem_cons_of_mem path member)⟩

end RepairsSpared

theorem discard_run {store : Store} (paths : List Path)
    (spared : ∀ path, store.failure? .remove path = none) :
    ∃ after : Store, (discard paths : StateM Store Unit) store = ((), after) ∧
      after.rules = store.rules ∧ after.fileMap = store.fileMap.removeAll (paths.map keyOf) := by
  induction paths generalizing store with
  | nil => exact ⟨store, rfl, rfl, by simp⟩
  | cons path others ih =>
    obtain ⟨mid, rules, ends⟩ := store.remove_acts path
    have run : ∃ outcome, (FileSystem.remove path : StateM Store _) store = (outcome, mid) := by
      rcases ends with ⟨error, run, -⟩ | ⟨run, -⟩
      · exact ⟨_, run⟩
      · exact ⟨_, run⟩
    -- A file that cannot be removed although no rule says so is not there.
    have files : mid.fileMap = store.fileMap.remove (keyOf path) := by
      rcases ends with ⟨error, -, files, blocked⟩ | ⟨-, files, -⟩
      · have missing : store.fileMap (keyOf path) = none := by simpa [spared] using blocked
        rw [files, FileMap.remove, Function.update_eq_self_iff.mpr missing.symm]
      · exact files
    obtain ⟨outcome, run⟩ := run
    have sparedMid : ∀ other, mid.failure? .remove other = none := fun other =>
      Store.failure?_congr rules ▸ spared other
    obtain ⟨after, rest, rulesAfter, filesAfter⟩ := ih sparedMid
    refine ⟨after, ?_, rulesAfter.trans rules, ?_⟩
    · have removed : (do let _ ← FileSystem.remove path : StateM Store Unit) store = ((), mid) :=
        bind_run run
      exact (bind_run removed).trans rest
    · rw [filesAfter, files, List.map_cons, FileMap.removeAll_cons]

theorem restore_run {store : Store} {path backup : Path}
    (spared : store.failure? .renameFrom backup = none ∧ store.failure? .renameTo path = none) :
    ∃ after : Store, (restore backup path : StateM Store Unit) store = ((), after) ∧
      after.rules = store.rules ∧
      after.fileMap = store.fileMap.rename (keyOf backup) (keyOf path) := by
  obtain ⟨after, rules, ⟨error, run, files, blocked⟩ | ⟨run, files, -⟩⟩ :=
    store.rename_acts backup path
  · refine ⟨after, bind_run run, rules, ?_⟩
    have missing : store.fileMap (keyOf backup) = none := by simpa [spared] using blocked
    rw [files, FileMap.rename_eq_self missing]
  · exact ⟨after, bind_run run, rules, files⟩

/-! ## Staging -/

/-- Run on `store`, a step that writes one temporary file either fails and leaves the files, or
writes it. -/
def Stages (artifact : Artifact) (store : Store) (step : StateM Store (Except BuildError Unit)) :
    Prop :=
  ∃ after : Store, after.rules = store.rules ∧
    ((∃ error, step store = (.error error, after) ∧ after.fileMap = store.fileMap) ∨
      (step store = (.ok (), after) ∧
        after.fileMap = store.fileMap.write (stagingKey artifact.path) artifact.content.toBytes))

theorem write_stages (artifact : Artifact) (store : Store) :
    Stages artifact store do
      let written ← FileSystem.write (stagingPath artifact.path) artifact.content.toBytes
      return written.mapError (BuildError.ofFileError artifact.path) := by
  obtain ⟨after, rules, ⟨error, run, files, -⟩ | ⟨run, files, -⟩⟩ :=
    store.write_acts (stagingPath artifact.path) artifact.content.toBytes
  · exact ⟨after, rules, .inl ⟨_, bind_run run, files⟩⟩
  · exact ⟨after, rules, .inr ⟨bind_run run, files⟩⟩

/-- Writing is the last operation of a staging step, so a step that fails has written nothing. -/
theorem stage_stages (artifact : Artifact) (store : Store) :
    Stages artifact store (stage artifact) := by
  unfold stage
  split
  · next parent _ =>
    split
    · exact write_stages artifact store
    · obtain ⟨mid, rules, ⟨error, run, files, -⟩ | ⟨run, files, -⟩⟩ :=
        store.makeDirectories_acts parent
      · exact ⟨mid, rules, .inl ⟨_, bind_run (map_run run), files⟩⟩
      · obtain ⟨after, rulesAfter, ends⟩ := write_stages artifact mid
        refine ⟨after, rulesAfter.trans rules, ?_⟩
        rw [files] at ends
        rw [bind_run (map_run run)]
        exact ends
  · exact write_stages artifact store

theorem stageAll_error {store after : Store} {staged : List Path} {artifacts : List Artifact}
    {error : BuildError} (spared : ∀ path, store.failure? .remove path = none)
    (fresh : ∀ artifact ∈ artifacts, store.fileMap (stagingKey artifact.path) = none)
    (distinct : (artifacts.map fun artifact => stagingKey artifact.path).Nodup)
    (failed : (stageAll staged artifacts : StateM Store _) store = (.error error, after)) :
    after.fileMap = store.fileMap.removeAll (staged.map keyOf) := by
  induction artifacts generalizing staged store with
  | nil => cases failed
  | cons artifact others ih =>
    obtain ⟨mid, rules, ⟨cause, run, files⟩ | ⟨run, files⟩⟩ := stage_stages artifact store
    · obtain ⟨cleared, discarded, -, clearedFiles⟩ :=
        discard_run staged fun path => Store.failure?_congr rules ▸ spared path
      rw [stageAll, bind_run run] at failed
      cases (bind_run discarded).symm.trans failed
      rw [clearedFiles, files]
    · rw [stageAll, bind_run run] at failed
      rw [List.map_cons, List.nodup_cons] at distinct
      have freshAfter : ∀ other ∈ others, mid.fileMap (stagingKey other.path) = none := by
        intro other member
        have apart : stagingKey other.path ≠ stagingKey artifact.path := fun same =>
          distinct.1 (List.mem_map.mpr ⟨other, member, same⟩)
        rw [files, FileMap.write_apply, if_neg apart]
        exact fresh other (List.mem_cons_of_mem _ member)
      rw [ih (fun path => Store.failure?_congr rules ▸ spared path) freshAfter distinct.2 failed,
        files, List.map_append]
      exact FileMap.write_removeAll (fresh artifact List.mem_cons_self) _ _

/-- Staging changes temporary files only. -/
theorem stageAll_ok {store after : Store} {staged : List Path} {artifacts : List Artifact}
    (done : (stageAll staged artifacts : StateM Store _) store = (.ok (), after)) :
    after.rules = store.rules ∧
      ∀ key ∉ artifacts.map fun artifact => stagingKey artifact.path,
        after.fileMap key = store.fileMap key := by
  induction artifacts generalizing staged store with
  | nil =>
    cases done
    exact ⟨rfl, fun _ _ => rfl⟩
  | cons artifact others ih =>
    obtain ⟨mid, rules, ⟨cause, run, files⟩ | ⟨run, files⟩⟩ := stage_stages artifact store
    · rw [stageAll, bind_run run] at done
      cases done
    · rw [stageAll, bind_run run] at done
      obtain ⟨rulesAfter, same⟩ := ih done
      refine ⟨rulesAfter.trans rules, fun key outside => ?_⟩
      rw [List.map_cons, List.mem_cons, not_or] at outside
      rw [same key outside.2, files, FileMap.write_apply, if_neg outside.1]

/-! ## Committing -/

/-- An old file becomes the backup, and the temporary file takes its place. -/
def FileMap.commit (files : FileMap) (path : Path) : FileMap :=
  (files.rename (keyOf path) (backupKey path)).rename (stagingKey path) (keyOf path)

/-- The committed file goes, and the backup takes its place. -/
def FileMap.undo (files : FileMap) (path : Path) : FileMap :=
  (files.remove (keyOf path)).rename (backupKey path) (keyOf path)

section

variable {files : FileMap} {path : Path}

theorem FileMap.commit_apply (distinct : [keyOf path, stagingKey path, backupKey path].Nodup)
    {key : Text} (outside : key ∉ [keyOf path, stagingKey path, backupKey path]) :
    files.commit path key = files key := by
  simp only [FileMap.commit]
  grind [FileMap.rename_apply]

theorem FileMap.commit_backupKey (distinct : [keyOf path, stagingKey path, backupKey path].Nodup) :
    files.commit path (backupKey path) = (files (keyOf path)).or (files (backupKey path)) := by
  simp only [FileMap.commit]
  grind [FileMap.rename_apply]

/-- Undoing a commit brings back everything but the temporary file, also when other files have been
removed in between. -/
theorem FileMap.undo_commit {keys : List Text}
    (distinct : [keyOf path, stagingKey path, backupKey path].Nodup)
    (absent : files (backupKey path) = none)
    (outside : keyOf path ∉ keys ∧ backupKey path ∉ keys) :
    ((files.commit path).removeAll keys).undo path = files.removeAll (stagingKey path :: keys) := by
  funext key
  simp only [FileMap.commit, FileMap.undo]
  grind [FileMap.removeAll_apply, FileMap.remove_apply, FileMap.rename_apply]

end

/-- A file that became the backup comes back if there was no backup before. -/
theorem FileMap.rename_rename {files : FileMap} {source target : Text}
    (distinct : source ≠ target) (absent : files target = none) :
    (files.rename source target).rename target source = files := by
  funext key
  grind [FileMap.rename_apply]

/-- The backup that a commit makes of the file at `path`. -/
def backupOf (store : Store) (path : Path) : Option Path :=
  if store.tree.isFile path then some (backupPath path) else none

theorem backUp_run (store : Store) (path : Path) :
    ∃ after : Store, after.rules = store.rules ∧
      ((∃ error, (backUp path : StateM Store _) store = (.error error, after) ∧
          after.fileMap = store.fileMap) ∨
        ((backUp path : StateM Store _) store = (.ok (backupOf store path), after) ∧
          after.fileMap = store.fileMap.rename (keyOf path) (backupKey path))) := by
  have asked : (FileSystem.isFile path : StateM Store Bool) store =
      (store.tree.isFile path, store) := rfl
  rw [backUp, bind_run asked, backupOf]
  cases present : store.tree.isFile path with
  | false =>
    rw [Tree.isFile_eq] at present
    refine ⟨store, rfl, .inr ⟨rfl, (FileMap.rename_eq_self ?_ _).symm⟩⟩
    simpa [Store.fileMap] using present
  | true =>
    obtain ⟨after, rules, ⟨error, run, files, -⟩ | ⟨run, files, -⟩⟩ :=
      store.rename_acts path (backupPath path)
    · exact ⟨after, rules, .inl ⟨error, bind_run run, files⟩⟩
    · exact ⟨after, rules, .inr ⟨bind_run run, files⟩⟩

theorem commit_run {store : Store} {path : Path} (spared : RepairsSpared store [path])
    (distinct : keyOf path ≠ backupKey path) (absent : store.fileMap (backupKey path) = none) :
    ∃ after : Store, after.rules = store.rules ∧
      ((∃ error, (commit path : StateM Store _) store = (.error error, after) ∧
          after.fileMap = store.fileMap) ∨
        ((commit path : StateM Store _) store = (.ok ⟨path, backupOf store path⟩, after) ∧
          after.fileMap = store.fileMap.commit path)) := by
  obtain ⟨mid, rules, ⟨error, run, files⟩ | ⟨run, files⟩⟩ := backUp_run store path
  · exact ⟨mid, rules, .inl ⟨error, bind_run run, files⟩⟩
  · rw [commit, bind_run run]
    obtain ⟨after, rulesAfter, ⟨error, moved, filesAfter, -⟩ | ⟨moved, filesAfter, -⟩⟩ :=
      mid.rename_acts (stagingPath path) path
    · -- A refused file gives its place back to the old one, if there was one.
      cases present : store.tree.isFile path with
      | false =>
        have missing : store.fileMap (keyOf path) = none := by
          simpa [Tree.isFile_eq, Store.fileMap] using present
        refine ⟨after, rulesAfter.trans rules, .inl ⟨error, ?_, ?_⟩⟩
        · simp only [backupOf, present, Bool.false_eq_true, if_false]
          exact bind_run moved
        · rw [filesAfter, files, FileMap.rename_eq_self missing]
      | true =>
        obtain ⟨last, restored, rulesLast, filesLast⟩ :=
          restore_run ((spared.congr (rulesAfter.trans rules)).restore path List.mem_cons_self)
        refine ⟨last, rulesLast.trans (rulesAfter.trans rules), .inl ⟨error, ?_, ?_⟩⟩
        · simp only [backupOf, present, if_true]
          exact (bind_run moved).trans (bind_run restored)
        · rw [filesLast, filesAfter, files]
          exact FileMap.rename_rename distinct absent
    · refine ⟨after, rulesAfter.trans rules, .inr ⟨bind_run moved, ?_⟩⟩
      rw [filesAfter, files]
      rfl

theorem undo_run {store : Store} {path : Path} {backup? : Option Path}
    (spared : RepairsSpared store [path])
    (backup : backup? = some (backupPath path) ∨
      backup? = none ∧ store.fileMap (backupKey path) = none) :
    ∃ after : Store, (undo ⟨path, backup?⟩ : StateM Store Unit) store = ((), after) ∧
      after.rules = store.rules ∧ after.fileMap = store.fileMap.undo path := by
  obtain ⟨mid, removed, rules, files⟩ := discard_run [path] spared.remove
  have filesMid : mid.fileMap = store.fileMap.remove (keyOf path) := by
    rw [files, List.map_singleton, FileMap.removeAll_cons, FileMap.removeAll_nil]
  rw [undo, bind_run removed]
  obtain rfl | ⟨rfl, absent⟩ := backup
  · obtain ⟨after, restored, rulesAfter, filesAfter⟩ :=
      restore_run ((spared.congr rules).restore path List.mem_cons_self)
    exact ⟨after, restored, rulesAfter.trans rules, by rw [filesAfter, filesMid]; rfl⟩
  · refine ⟨mid, rfl, rules, ?_⟩
    rw [filesMid, FileMap.undo, FileMap.rename_eq_self]
    rw [FileMap.remove_apply, absent, ite_self]

/-- Undoing a commit leaves nothing of it but that the temporary file is gone; `files` are those
committed over, and the backup was made in `store`, where the old file was the same one. -/
theorem undo_run_of_commit {store before : Store} {path : Path} {files : FileMap} {keys : List Text}
    (spared : RepairsSpared before [path])
    (distinct : [keyOf path, stagingKey path, backupKey path].Nodup)
    (old : files (keyOf path) = store.fileMap (keyOf path))
    (absent : files (backupKey path) = none)
    (outside : keyOf path ∉ keys ∧ backupKey path ∉ keys)
    (committed : before.fileMap = (files.commit path).removeAll keys) :
    ∃ after : Store, (undo ⟨path, backupOf store path⟩ : StateM Store Unit) before = ((), after) ∧
      after.rules = before.rules ∧ after.fileMap = files.removeAll (stagingKey path :: keys) := by
  have backup : backupOf store path = some (backupPath path) ∨
      backupOf store path = none ∧ before.fileMap (backupKey path) = none := by
    rw [committed, FileMap.removeAll_apply, if_neg outside.2, FileMap.commit_backupKey distinct,
      absent, Option.or_none, old, backupOf, Tree.isFile_eq]
    cases found : store.fileMap (keyOf path) <;> simp_all [Store.fileMap]
  obtain ⟨after, undone, rules, filesAfter⟩ := undo_run spared backup
  refine ⟨after, undone, rules, ?_⟩
  rw [filesAfter, committed]
  exact FileMap.undo_commit distinct absent outside

theorem commitAll_error {store after : Store} {committed : List Commit} {paths : List Path}
    {error : BuildError} (spared : RepairsSpared store paths)
    (distinct : (storedKeys paths).Nodup)
    (absent : ∀ path ∈ paths, store.fileMap (backupKey path) = none)
    (failed : (commitAll committed paths : StateM Store _) store = (.error error, after)) :
    ∃ before : Store, before.rules = store.rules ∧
      before.fileMap = store.fileMap.removeAll (paths.map stagingKey) ∧
        (committed.forM undo : StateM Store Unit) before = ((), after) := by
  induction paths generalizing committed store with
  | nil => cases failed
  | cons path others ih =>
    obtain ⟨here, rest, apart⟩ := nodup_storedKeys_cons.mp distinct
    have absentHere := absent path List.mem_cons_self
    obtain ⟨mid, rules, ⟨cause, run, files⟩ | ⟨run, files⟩⟩ :=
      commit_run spared.head (by simp_all) absentHere
    · -- The refused commit left the files alone, so only the temporary files are discarded.
      obtain ⟨cleared, discarded, rulesCleared, filesCleared⟩ :=
        discard_run ((path :: others).map stagingPath) (spared.congr rules).remove
      rw [commitAll, bind_run run] at failed
      replace failed := (bind_run discarded).symm.trans failed
      cases undone : (committed.forM undo : StateM Store Unit) cleared with
      | mk value last =>
        cases (bind_run undone).symm.trans failed
        refine ⟨cleared, rulesCleared.trans rules, ?_, undone⟩
        rw [filesCleared, files, List.map_map]
        rfl
    · rw [commitAll, bind_run run] at failed
      have absentMid : ∀ other ∈ others, mid.fileMap (backupKey other) = none := by
        intro other member
        have outside : backupKey other ∉ [keyOf path, stagingKey path, backupKey path] := by
          intro used
          exact apart _ used (mem_storedKeys.mpr ⟨other, member, .inr (.inr rfl)⟩)
        rw [files, FileMap.commit_apply here outside]
        exact absent other (List.mem_cons_of_mem _ member)
      -- In `before` every later commit is undone, and this one comes next.
      obtain ⟨before, rulesBefore, filesBefore, undone⟩ :=
        ih (spared.tail.congr rules) rest absentMid failed
      have unstaged : ∀ key ∈ [keyOf path, stagingKey path, backupKey path],
          key ∉ others.map stagingKey := by
        intro key used staged
        obtain ⟨other, member, rfl⟩ := List.mem_map.mp staged
        exact apart _ used (mem_storedKeys.mpr ⟨other, member, .inr (.inl rfl)⟩)
      have outside : keyOf path ∉ others.map stagingKey ∧ backupKey path ∉ others.map stagingKey :=
        ⟨unstaged _ (by simp), unstaged _ (by simp)⟩
      obtain ⟨last, undoneHere, rulesLast, filesLast⟩ := undo_run_of_commit
        (spared.head.congr (rulesBefore.trans rules)) here rfl absentHere outside
        (filesBefore.trans (congrArg (FileMap.removeAll · _) files))
      refine ⟨last, rulesLast.trans (rulesBefore.trans rules), filesLast, ?_⟩
      exact (bind_run undoneHere).symm.trans undone

end PageCompiler
