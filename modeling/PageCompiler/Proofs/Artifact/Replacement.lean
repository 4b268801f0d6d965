import PageCompiler.Proofs.Artifact.Preservation

/-! # A write that nothing refuses

Where no rule makes an operation fail, writing artifacts succeeds, and what it does to the files can
be said at once: each artifact is in its place, and neither a temporary file nor the backup of a
replaced file stays behind. Commits at different paths do not get in each other's way, so the files
after all of them are those after each one at its own keys. Up to the commits it is enough that
rules refuse nothing but artifacts their places (`Store.RefusesPlacesOnly`).
-/

namespace PageCompiler

open PageCompiler.Tree (keyOf)

/-! ## Commits -/

namespace FileMap

variable {files : FileMap} {path : Path}

/-- What a commit leaves at its keys depends on what was at these keys alone. -/
theorem commit_congr {other : FileMap} (distinct : (pathKeys path).Nodup)
    (agree : ∀ key ∈ pathKeys path, files key = other key) {key : Text}
    (used : key ∈ pathKeys path) : files.commit path key = other.commit path key := by
  simp only [pathKeys] at *
  simp only [commit]
  grind [rename_apply]

/-- The commit at a path leaves the keys of the other paths alone. -/
theorem commit_apply_of_later {other : Path} {others : List Path}
    (distinct : (storedKeys (path :: others)).Nodup) (member : other ∈ others) {key : Text}
    (used : key ∈ pathKeys other) : files.commit path key = files key := by
  obtain ⟨here, -, apart⟩ := nodup_storedKeys_cons.mp distinct
  exact commit_apply here fun clash => apart key clash (pathKeys_subset member used)

theorem commit_stagingKey (distinct : (pathKeys path).Nodup) :
    files.commit path (stagingKey path) = none := by
  simp only [pathKeys] at distinct
  simp only [commit]
  grind [rename_apply]

theorem foldl_commit_of_not_mem {paths : List Path} (distinct : (storedKeys paths).Nodup)
    {key : Text} (outside : key ∉ storedKeys paths) :
    paths.foldl commit files key = files key := by
  induction paths generalizing files with
  | nil => rfl
  | cons path others inductionHypothesis =>
    obtain ⟨here, rest, -⟩ := nodup_storedKeys_cons.mp distinct
    rw [storedKeys_eq_flatMap, List.flatMap_cons, List.mem_append, not_or] at outside
    rw [List.foldl_cons, inductionHypothesis rest outside.2, commit_apply here outside.1]

/-- Only the commit at a path touches the keys of that path. -/
theorem foldl_commit_of_mem {paths : List Path} (distinct : (storedKeys paths).Nodup)
    (member : path ∈ paths) {key : Text} (used : key ∈ pathKeys path) :
    paths.foldl commit files key = files.commit path key := by
  induction paths generalizing files with
  | nil => exact absurd member List.not_mem_nil
  | cons first others inductionHypothesis =>
    obtain ⟨here, rest, apart⟩ := nodup_storedKeys_cons.mp distinct
    rw [List.foldl_cons]
    rcases List.mem_cons.mp member with rfl | later
    · exact foldl_commit_of_not_mem rest (apart key used)
    · rw [inductionHypothesis rest later]
      have own := (List.nodup_flatMap.mp rest).1 path later
      exact commit_congr own (fun _ => commit_apply_of_later distinct later) used

end FileMap

/-! ## Steps that nothing refuses -/

theorem backupOf_congr {store other : Store} {path : Path}
    (same : other.fileMap (keyOf path) = store.fileMap (keyOf path)) :
    backupOf other path = backupOf store path := by
  rw [backupOf, backupOf, Tree.isFile_eq, Tree.isFile_eq,
    show other.tree.fileMap (keyOf path) = store.tree.fileMap (keyOf path) from same]

theorem Store.failure?_of_unruled {store : Store} (unruled : store.rules = [])
    (operation : Operation) (path : Path) : store.failure? operation path = none := by
  simp [failure?, unruled]

/-- The rules refuse nothing that writing to these paths does, except that they may refuse artifacts
their places. -/
structure Store.RefusesPlacesOnly (store : Store) (paths : List Path) : Prop where
  others : ∀ operation, operation ≠ .renameTo → ∀ path, store.failure? operation path = none
  backups : ∀ path ∈ paths, store.failure? .renameTo (backupPath path) = none

namespace Store.RefusesPlacesOnly

variable {store : Store} {path : Path} {paths : List Path}

theorem congr {after : Store} (only : store.RefusesPlacesOnly paths)
    (rules : after.rules = store.rules) : after.RefusesPlacesOnly paths := by
  have same := Store.failure?_congr rules
  exact ⟨fun operation different path => same ▸ only.others operation different path,
    fun path member => same ▸ only.backups path member⟩

theorem head (only : store.RefusesPlacesOnly (path :: paths)) : store.RefusesPlacesOnly [path] :=
  ⟨only.others, fun other member =>
    only.backups other (List.mem_cons.mpr (.inl (List.mem_singleton.mp member)))⟩

theorem tail (only : store.RefusesPlacesOnly (path :: paths)) : store.RefusesPlacesOnly paths :=
  ⟨only.others, fun other member => only.backups other (List.mem_cons_of_mem path member)⟩

theorem of_unruled (unruled : store.rules = []) (paths : List Path) :
    store.RefusesPlacesOnly paths :=
  ⟨fun operation _ => failure?_of_unruled unruled operation,
    fun path _ => failure?_of_unruled unruled .renameTo (backupPath path)⟩

end Store.RefusesPlacesOnly

/-- Run on `store`, a step of writing succeeds. -/
def Store.Succeeds (store : Store) (step : StateM Store (Except BuildError Unit)) : Prop :=
  ∃ after : Store, after.rules = store.rules ∧ step store = (.ok (), after)

theorem Store.Acts.of_not_blocked {store : Store} {blocked : Prop} {changed : FileMap}
    {operation : StateM Store (Except FileError Unit)}
    (acts : store.Acts blocked changed operation) (free : ¬ blocked) :
    ∃ after : Store, after.rules = store.rules ∧ operation store = (.ok (), after) ∧
      after.fileMap = changed := by
  obtain ⟨after, rules, ⟨_, -, -, refused⟩ | ⟨run, files, -⟩⟩ := acts
  · exact absurd refused free
  · exact ⟨after, rules, run, files⟩

section

variable {store : Store} {paths : List Path} (only : store.RefusesPlacesOnly paths)

include only

theorem write_succeeds (artifact : Artifact) :
    store.Succeeds do
      let written ← FileSystem.write (stagingPath artifact.path) artifact.content.toBytes
      return written.mapError (BuildError.ofFileError artifact.path) := by
  obtain ⟨after, rules, run, -⟩ := (store.write_acts (stagingPath artifact.path)
    artifact.content.toBytes).of_not_blocked (by simp [only.others .write (by decide)])
  exact ⟨after, rules, bind_run run⟩

theorem stage_succeeds (artifact : Artifact) : store.Succeeds (stage artifact) := by
  unfold stage
  split
  · next parent _ =>
    split
    · exact write_succeeds only artifact
    · obtain ⟨mid, rules, run, -⟩ := (store.makeDirectories_acts parent).of_not_blocked
        (by simp [only.others .makeDirectories (by decide)])
      obtain ⟨after, rulesAfter, runAfter⟩ := write_succeeds (only.congr rules) artifact
      exact ⟨after, rulesAfter.trans rules, (bind_run (map_run run)).trans runAfter⟩
  · exact write_succeeds only artifact

theorem stageAll_succeeds (staged : List Path) (artifacts : List Artifact) :
    store.Succeeds (stageAll staged artifacts) := by
  induction artifacts generalizing staged store with
  | nil => exact ⟨store, rfl, rfl⟩
  | cons artifact others inductionHypothesis =>
    obtain ⟨mid, rules, run⟩ := stage_succeeds only artifact
    obtain ⟨after, rulesAfter, runAfter⟩ :=
      inductionHypothesis (only.congr rules) (staged ++ [stagingPath artifact.path])
    exact ⟨after, rulesAfter.trans rules, (bind_run run).trans runAfter⟩

end

section

variable {store : Store} {path : Path} (only : store.RefusesPlacesOnly [path])

include only

theorem backUp_ok :
    ∃ after : Store, after.rules = store.rules ∧
      (backUp path : StateM Store _) store = (.ok (backupOf store path), after) ∧
      after.fileMap = store.fileMap.rename (keyOf path) (backupKey path) := by
  have asked : (FileSystem.isFile path : StateM Store Bool) store =
      (store.tree.isFile path, store) := rfl
  rw [backUp, bind_run asked, backupOf]
  have present := store.tree.isFile_eq path
  cases found : store.tree.isFile path with
  | false =>
    rw [found] at present
    have missing : store.fileMap (keyOf path) = none := by
      simpa [Store.fileMap] using present.symm
    exact ⟨store, rfl, rfl, (FileMap.rename_eq_self missing _).symm⟩
  | true =>
    rw [found] at present
    obtain ⟨after, rules, run, files⟩ := (store.rename_acts path (backupPath path)).of_not_blocked
      (by
        rw [only.others .renameFrom (by decide), only.backups path List.mem_cons_self,
          Option.none_or]
        rintro (refused | missing)
        · exact refused rfl
        · rw [show store.tree.fileMap (keyOf path) = none from missing] at present
          cases present)
    exact ⟨after, rules, bind_run run, files⟩

theorem commit_ok (placed : store.failure? .renameTo path = none) (distinct : (pathKeys path).Nodup)
    (staged : store.fileMap (stagingKey path) ≠ none) :
    ∃ after : Store, after.rules = store.rules ∧
      (commit path : StateM Store _) store = (.ok ⟨path, backupOf store path⟩, after) ∧
      after.fileMap = store.fileMap.commit path := by
  obtain ⟨mid, rules, backedUp, files⟩ := backUp_ok only
  have stays : mid.fileMap (stagingKey path) = store.fileMap (stagingKey path) := by
    simp only [pathKeys, List.nodup_cons, List.mem_cons, not_or] at distinct
    rw [files, FileMap.rename_apply_of_ne _ (Ne.symm distinct.1.1) distinct.2.1.1]
  obtain ⟨after, rulesAfter, moved, filesAfter⟩ :=
    (mid.rename_acts (stagingPath path) path).of_not_blocked (by
      rw [Store.failure?_congr rules, only.others .renameFrom (by decide), placed, Option.none_or]
      rintro (refused | missing)
      · exact refused rfl
      · exact staged (stays.symm.trans missing))
  refine ⟨after, rulesAfter.trans rules, ?_, by rw [filesAfter, files]; rfl⟩
  rw [commit, bind_run backedUp]
  exact bind_run moved

end

theorem commitAll_isOk {store : Store} {paths : List Path} (only : store.RefusesPlacesOnly paths)
    (placed : ∀ path ∈ paths, store.failure? .renameTo path = none)
    (distinct : (storedKeys paths).Nodup)
    (staged : ∀ path ∈ paths, store.fileMap (stagingKey path) ≠ none) (committed : List Commit) :
    ∃ after : Store, after.rules = store.rules ∧
      (commitAll committed paths : StateM Store _) store =
        (.ok (committed.reverse ++ paths.map fun path => ⟨path, backupOf store path⟩), after) ∧
      after.fileMap = paths.foldl FileMap.commit store.fileMap := by
  induction paths generalizing committed store with
  | nil => exact ⟨store, rfl, by simp [commitAll]; rfl, rfl⟩
  | cons path others inductionHypothesis =>
    obtain ⟨here, rest, -⟩ := nodup_storedKeys_cons.mp distinct
    obtain ⟨mid, rules, run, files⟩ := commit_ok only.head (placed path List.mem_cons_self) here
      (staged path List.mem_cons_self)
    have kept {other : Path} (member : other ∈ others) {key : Text} (used : key ∈ pathKeys other) :
        mid.fileMap key = store.fileMap key := by
      rw [files, FileMap.commit_apply_of_later distinct member used]
    have placedThen : ∀ other ∈ others, mid.failure? .renameTo other = none := by
      rw [Store.failure?_congr rules]
      exact fun other member => placed other (List.mem_cons_of_mem _ member)
    obtain ⟨after, rulesAfter, runAfter, filesAfter⟩ := inductionHypothesis
      (only.tail.congr rules) placedThen rest
      (fun other member => by
        rw [kept member (by simp [pathKeys])]
        exact staged other (List.mem_cons_of_mem _ member))
      (⟨path, backupOf store path⟩ :: committed)
    refine ⟨after, rulesAfter.trans rules, ?_, ?_⟩
    · have sameBackups : others.map (fun other => (⟨other, backupOf mid other⟩ : Commit)) =
          others.map fun other => ⟨other, backupOf store other⟩ :=
        List.map_congr_left fun other member => by
          rw [backupOf_congr (kept member (by simp [pathKeys]))]
      rw [commitAll, bind_run run]
      simpa [sameBackups] using runAfter
    · rw [filesAfter, files, List.foldl_cons]

/-! ## Writing -/

/-- How the files are after a write: the artifacts are in their places, no temporary file is left,
no replaced file has a backup, and nothing else has changed. -/
structure FileMap.Receives (before : FileMap) (artifacts : List Artifact) (after : FileMap) :
    Prop where
  placed : ∀ artifact ∈ artifacts, after (keyOf artifact.path) = some artifact.content.toBytes
  unstaged : ∀ artifact ∈ artifacts, after (stagingKey artifact.path) = none
  backups : ∀ artifact ∈ artifacts, after (backupKey artifact.path) =
    if (before (keyOf artifact.path)).isSome then none else before (backupKey artifact.path)
  others : ∀ key ∉ storedKeys (artifacts.map Artifact.path), after key = before key

/-- The backups that a write discards at its end. -/
def discardedBackups (store : Store) (paths : List Path) : List Path :=
  (paths.map fun path => (⟨path, backupOf store path⟩ : Commit)).filterMap Commit.backup?

/-- The backups that are discarded are those of the paths that had a file. -/
theorem mem_discardedBackups {store : Store} {paths : List Path} {key : Text} :
    key ∈ (discardedBackups store paths).map keyOf ↔
      ∃ path ∈ paths, key = backupKey path ∧ (store.fileMap (keyOf path)).isSome = true := by
  simp only [discardedBackups, List.mem_map, List.mem_filterMap, backupOf, Tree.isFile_eq,
    Store.fileMap]
  constructor
  · rintro ⟨backup, ⟨done, ⟨path, member, rfl⟩, backed⟩, rfl⟩
    dsimp only at backed
    split at backed
    · next present =>
      cases backed
      exact ⟨path, member, rfl, present⟩
    · cases backed
  · rintro ⟨path, member, rfl, present⟩
    exact ⟨backupPath path, ⟨_, ⟨path, member, rfl⟩, if_pos present⟩, rfl⟩

theorem backupKey_injOn {paths : List Path} (distinct : (storedKeys paths).Nodup)
    {first second : Path} (firstMember : first ∈ paths) (secondMember : second ∈ paths)
    (same : backupKey first = backupKey second) : first = second := by
  by_contra different
  exact pathKeys_disjoint distinct firstMember secondMember different (a := backupKey first)
    (by simp [pathKeys]) (by simp [pathKeys, same])

theorem writeArtifacts_run {store : Store} {artifacts : List Artifact}
    (only : store.RefusesPlacesOnly (artifacts.map Artifact.path))
    (placed : ∀ artifact ∈ artifacts, store.failure? .renameTo artifact.path = none)
    (distinct : (storedKeys (artifacts.map Artifact.path)).Nodup) :
    ∃ mid after : Store, after.rules = store.rules ∧
      (stageAll [] artifacts : StateM Store _) store = (.ok (), mid) ∧
      (writeArtifacts artifacts : StateM Store _) store = (.ok (), after) ∧
      after.fileMap = ((artifacts.map Artifact.path).foldl FileMap.commit mid.fileMap).removeAll
        ((discardedBackups mid (artifacts.map Artifact.path)).map keyOf) := by
  obtain ⟨mid, rules, staging⟩ := stageAll_succeeds only [] artifacts
  have staged := staged_of_stageAll_ok distinct staging
  obtain ⟨last, rulesLast, committing, files⟩ := commitAll_isOk (only.congr rules)
    (List.forall_mem_map.mpr fun artifact member =>
      Store.failure?_congr rules ▸ placed artifact member) distinct
    (List.forall_mem_map.mpr fun artifact member => by simp [staged artifact member]) []
  rw [List.reverse_nil, List.nil_append] at committing
  obtain ⟨after, cleared, rulesAfter, cleaned⟩ := discard_run
    (discardedBackups mid (artifacts.map Artifact.path))
    ((only.congr (rulesLast.trans rules)).others .remove (by decide))
  refine ⟨mid, after, rulesAfter.trans (rulesLast.trans rules), staging, ?_,
    by rw [cleaned, files]⟩
  rw [writeArtifacts, bind_run staging]
  dsimp only
  rw [bind_run committing]
  exact bind_run cleared

section

variable {store mid : Store} {artifacts : List Artifact}
  (distinct : (storedKeys (artifacts.map Artifact.path)).Nodup)

include distinct

/-- Of the keys of an artifact, staging changes the one of the temporary file alone. -/
theorem fileMap_of_staged
    (staging : (stageAll [] artifacts : StateM Store _) store = (.ok (), mid))
    {artifact : Artifact} (member : artifact ∈ artifacts) :
    mid.fileMap (keyOf artifact.path) = store.fileMap (keyOf artifact.path) ∧
      mid.fileMap (backupKey artifact.path) = store.fileMap (backupKey artifact.path) := by
  obtain ⟨notPath, notBackup⟩ := not_mem_map_stagingKey distinct (List.Subset.refl _)
    (List.mem_map_of_mem member)
  rw [List.map_map] at notPath notBackup
  obtain ⟨-, untouched⟩ := stageAll_ok staging
  exact ⟨untouched _ notPath, untouched _ notBackup⟩

theorem receives_of_staged
    (staging : (stageAll [] artifacts : StateM Store _) store = (.ok (), mid)) :
    store.fileMap.Receives artifacts
      (((artifacts.map Artifact.path).foldl FileMap.commit mid.fileMap).removeAll
        ((discardedBackups mid (artifacts.map Artifact.path)).map keyOf)) := by
  have staged := staged_of_stageAll_ok distinct staging
  have own (path : Path) (listed : path ∈ artifacts.map Artifact.path) : (pathKeys path).Nodup :=
    (List.nodup_flatMap.mp distinct).1 path listed
  have committed {path : Path} (listed : path ∈ artifacts.map Artifact.path) (key : Text)
      (used : key ∈ pathKeys path) :
      (artifacts.map Artifact.path).foldl FileMap.commit mid.fileMap key =
        mid.fileMap.commit path key :=
    FileMap.foldl_commit_of_mem distinct listed used
  constructor
  case placed =>
    intro artifact member
    have listed := List.mem_map_of_mem (f := Artifact.path) member
    rw [FileMap.removeAll_apply, if_neg, committed listed _ (by simp [pathKeys]),
      FileMap.commit_keyOf (own _ listed) (staged artifact member)]
    intro discarded
    obtain ⟨path, there, same, -⟩ := mem_discardedBackups.mp discarded
    exact (ne_backupKey distinct listed there).1 same
  case unstaged =>
    intro artifact member
    have listed := List.mem_map_of_mem (f := Artifact.path) member
    rw [FileMap.removeAll_apply, committed listed _ (by simp [pathKeys]),
      FileMap.commit_stagingKey (own _ listed), ite_self]
  case backups =>
    intro artifact member
    have listed := List.mem_map_of_mem (f := Artifact.path) member
    obtain ⟨samePath, sameBackup⟩ := fileMap_of_staged distinct staging member
    have discarded : backupKey artifact.path ∈
        (discardedBackups mid (artifacts.map Artifact.path)).map keyOf ↔
          (store.fileMap (keyOf artifact.path)).isSome = true := by
      rw [mem_discardedBackups, ← samePath]
      refine ⟨?_, fun present => ⟨_, listed, rfl, present⟩⟩
      rintro ⟨path, there, same, present⟩
      rwa [backupKey_injOn distinct listed there same]
    rw [FileMap.removeAll_apply, committed listed _ (by simp [pathKeys]),
      FileMap.commit_backupKey (own _ listed), samePath, sameBackup]
    cases old : store.fileMap (keyOf artifact.path) <;> simp [discarded, old]
  case others =>
    intro key outside
    rw [FileMap.removeAll_apply, if_neg, FileMap.foldl_commit_of_not_mem distinct outside]
    · exact (stageAll_ok staging).2 key fun staging => outside (staging_subset artifacts staging)
    · intro discarded
      obtain ⟨path, there, rfl, -⟩ := mem_discardedBackups.mp discarded
      exact outside (pathKeys_subset there (by simp [pathKeys]))

/-- A write that nothing refuses succeeds and changes its artifacts alone. -/
theorem writeArtifacts_receives (only : store.RefusesPlacesOnly (artifacts.map Artifact.path))
    (placed : ∀ artifact ∈ artifacts, store.failure? .renameTo artifact.path = none) :
    ∃ after : Store, after.rules = store.rules ∧
      (writeArtifacts artifacts : StateM Store _) store = (.ok (), after) ∧
      store.fileMap.Receives artifacts after.fileMap := by
  obtain ⟨mid, after, rules, staging, run, files⟩ := writeArtifacts_run only placed distinct
  refine ⟨after, rules, run, ?_⟩
  rw [files]
  exact receives_of_staged distinct staging

end

/-- Where the same artifacts are already in their places and have nothing beside them, writing them
once more changes nothing. -/
theorem FileMap.Receives.eq_of_receives {before after last : FileMap}
    {artifacts : List Artifact}
    (first : before.Receives artifacts after) (second : after.Receives artifacts last)
    (absent : ∀ artifact ∈ artifacts, before (backupKey artifact.path) = none) : last = after := by
  funext key
  by_cases used : key ∈ storedKeys (artifacts.map Artifact.path)
  · obtain ⟨path, listed, form⟩ := mem_storedKeys.mp used
    obtain ⟨artifact, member, rfl⟩ := List.mem_map.mp listed
    rcases form with rfl | rfl | rfl
    · rw [second.placed artifact member, first.placed artifact member]
    · rw [second.unstaged artifact member, first.unstaged artifact member]
    · rw [second.backups artifact member, first.backups artifact member, absent artifact member,
        ite_self, ite_self]
  · exact second.others key used

end PageCompiler
