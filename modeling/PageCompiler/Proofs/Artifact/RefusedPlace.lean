import PageCompiler.Proofs.Artifact.Atomicity
import PageCompiler.Proofs.Artifact.Replacement

/-! # An artifact that is refused its place

An artifact is moved to its path once its older file has gone to the backup, and the older file
comes back by a move to the same path. So whatever refuses the artifact its place refuses it to the
older file as well: the write gives an error, everything else is as before, and the older file is
left in the backup. Only where no older file was is the path as before.
-/

namespace PageCompiler

open PageCompiler.Tree (keyOf)

/-- A rule that refuses one of these artifacts its place. -/
def RefusesPlace (artifacts : List Artifact) (rule : FailureRule) : Prop :=
  rule.operation = .renameTo ∧ ∃ artifact ∈ artifacts, rule.path = artifact.path.text

theorem refusesPlacesOnly_of_rules {store : Store} {artifacts : List Artifact}
    (distinct : (storedKeys (artifacts.map Artifact.path)).Nodup)
    (places : ∀ rule ∈ store.rules, RefusesPlace artifacts rule) :
    store.RefusesPlacesOnly (artifacts.map Artifact.path) := by
  constructor
  case others =>
    exact fun operation different path => failure?_eq_none fun rule member same _ =>
      different (same.symm.trans (places rule member).1)
  case backups =>
    refine fun path listed => failure?_eq_none fun rule member _ same => ?_
    obtain ⟨-, artifact, used, text⟩ := places rule member
    -- A rule about a backup would be a rule about an artifact, and no artifact is there.
    have apart := (ne_backupKey distinct (List.mem_map_of_mem used) listed).1
    exact apart (congrArg (fun text => keyOf ⟨text⟩) (text.symm.trans same))

/-! ## One refused commit -/

theorem Store.rename_refused {store : Store} {source target : Path} {cause : FileError}
    (free : store.failure? .renameFrom source = none)
    (refused : store.failure? .renameTo target = some cause) :
    ∃ after : Store, after.rules = store.rules ∧
      (FileSystem.rename source target : StateM Store _) store = (.error cause, after) ∧
      after.fileMap = store.fileMap := by
  have run : (FileSystem.rename source target : StateM Store _) store =
      store.record (.rename source target) (.error cause) := by
    change store.record _ (Store.unlessFailing _ _) = _
    rw [free, refused]
    rfl
  refine ⟨_, ?_, run, ?_⟩ <;> rfl

section

variable {store : Store} {refused : Path} {cause : FileError}
  (stops : store.failure? .renameTo refused = some cause)

include stops

/-- The older file is moved to the backup, and the way back is refused like the way in. -/
theorem commit_refused (only : store.RefusesPlacesOnly [refused]) :
    ∃ after : Store, after.rules = store.rules ∧
      (commit refused : StateM Store _) store = (.error cause, after) ∧
      after.fileMap = store.fileMap.rename (keyOf refused) (backupKey refused) := by
  obtain ⟨mid, rules, backedUp, files⟩ := backUp_ok only
  have stopsThen {other : Store} (same : other.rules = store.rules) :
      other.failure? .renameTo refused = some cause := Store.failure?_congr same ▸ stops
  obtain ⟨tried, rulesTried, moved, filesTried⟩ := Store.rename_refused
    ((only.congr rules).others .renameFrom (by decide) (stagingPath refused)) (stopsThen rules)
  have rulesSoFar := rulesTried.trans rules
  rw [commit, bind_run backedUp]
  cases backup : backupOf store refused with
  | none => exact ⟨tried, rulesSoFar, bind_run moved, filesTried.trans files⟩
  | some path =>
    obtain ⟨after, rulesAfter, back, filesAfter⟩ := Store.rename_refused
      ((only.congr rulesSoFar).others .renameFrom (by decide) path) (stopsThen rulesSoFar)
    have restored : (restore path refused : StateM Store Unit) tried = ((), after) := bind_run back
    exact ⟨after, rulesAfter.trans rulesSoFar, (bind_run moved).trans (bind_run restored),
      filesAfter.trans (filesTried.trans files)⟩

end

/-! ## All commits -/

/-- A commit and a move that use different keys do not see each other. -/
theorem FileMap.commit_rename {files : FileMap} {path : Path} {source target : Text}
    (distinct : (pathKeys path).Nodup) (different : source ≠ target)
    (apart : source ∉ pathKeys path ∧ target ∉ pathKeys path) :
    (files.commit path).rename source target = (files.rename source target).commit path := by
  funext key
  simp only [pathKeys] at distinct apart
  simp only [commit]
  grind [rename_apply]

theorem FileMap.rename_congr {files other : FileMap} {source target key : Text}
    (different : source ≠ target) (sameSource : files source = other source)
    (sameTarget : files target = other target) (sameKey : files key = other key) :
    files.rename source target key = other.rename source target key := by
  rw [rename_apply files different, rename_apply other different, sameSource, sameTarget, sameKey]

/-- The commits before the refused one are undone, and its own older file stays in the backup. -/
theorem commitAll_refused {store : Store} {refused : Path} {cause : FileError}
    {front rest : List Path}
    (only : store.RefusesPlacesOnly (front ++ refused :: rest))
    (placed : ∀ path ∈ front, store.failure? .renameTo path = none)
    (stops : store.failure? .renameTo refused = some cause)
    (distinct : (storedKeys (front ++ refused :: rest)).Nodup)
    (staged : ∀ path ∈ front, store.fileMap (stagingKey path) ≠ none)
    (absent : ∀ path ∈ front, store.fileMap (backupKey path) = none) (committed : List Commit) :
    ∃ before after : Store, before.rules = store.rules ∧
      before.fileMap = (store.fileMap.rename (keyOf refused) (backupKey refused)).removeAll
        ((front ++ refused :: rest).map stagingKey) ∧
      (committed.forM undo : StateM Store Unit) before = ((), after) ∧
      (commitAll committed (front ++ refused :: rest) : StateM Store _) store =
        (.error (.ofFileError refused cause), after) := by
  induction front generalizing committed store with
  | nil =>
    obtain ⟨mid, rules, run, files⟩ := commit_refused stops only.head
    obtain ⟨before, discarded, rulesBefore, filesBefore⟩ := discard_run
      ((refused :: rest).map stagingPath) ((only.congr rules).others .remove (by decide))
    refine ⟨before, _, rulesBefore.trans rules, ?_, rfl, ?_⟩
    · rw [filesBefore, files, List.map_map]
      rfl
    · rw [List.nil_append, commitAll, bind_run run]
      exact bind_run discarded
  | cons path others inductionHypothesis =>
    obtain ⟨here, later, apart⟩ := nodup_storedKeys_cons.mp distinct
    have placedHere := placed path List.mem_cons_self
    have absentHere := absent path List.mem_cons_self
    obtain ⟨mid, rules, run, files⟩ :=
      commit_ok only.head placedHere here (staged path List.mem_cons_self)
    have sameRules := Store.failure?_congr rules
    have kept {other : Path} (member : other ∈ others) {key : Text} (used : key ∈ pathKeys other) :
        mid.fileMap key = store.fileMap key := by
      rw [files, FileMap.commit_apply_of_later distinct (List.mem_append_left _ member) used]
    -- In `before` every later commit is undone, and this one comes next.
    obtain ⟨before, last, rulesBefore, filesBefore, undone, failed⟩ := inductionHypothesis
      (only.tail.congr rules)
      (fun other member => sameRules ▸ placed other (List.mem_cons_of_mem _ member))
      (sameRules ▸ stops) later
      (fun other member => by
        rw [kept member (by simp [pathKeys])]
        exact staged other (List.mem_cons_of_mem _ member))
      (fun other member => by
        rw [kept member (by simp [pathKeys])]
        exact absent other (List.mem_cons_of_mem _ member))
      (⟨path, backupOf store path⟩ :: committed)
    -- The refused file is moved between keys that are none of this path's.
    have listed : refused ∈ others ++ refused :: rest := by simp
    have outside : keyOf refused ∉ pathKeys path ∧ backupKey refused ∉ pathKeys path :=
      ⟨fun used => apart _ used (pathKeys_subset listed (by simp [pathKeys])),
        fun used => apart _ used (pathKeys_subset listed (by simp [pathKeys]))⟩
    have untouched {key : Text} (used : key ∈ pathKeys path) :
        store.fileMap.rename (keyOf refused) (backupKey refused) key = store.fileMap key :=
      FileMap.rename_apply_of_ne _ (fun same => outside.1 (same ▸ used))
        fun same => outside.2 (same ▸ used)
    have unstaged : ∀ key ∈ pathKeys path, key ∉ (others ++ refused :: rest).map stagingKey := by
      intro key used waiting
      obtain ⟨other, member, rfl⟩ := List.mem_map.mp waiting
      exact apart _ used (pathKeys_subset member (by simp [pathKeys]))
    rw [files, FileMap.commit_rename here (ne_backupKey later listed listed).1 outside]
      at filesBefore
    have rulesSoFar := rulesBefore.trans rules
    obtain ⟨cleared, undoneHere, rulesCleared, filesCleared⟩ := undo_run_of_commit
      ⟨(only.congr rulesSoFar).others .remove (by decide), List.forall_mem_singleton.mpr
        ⟨(only.congr rulesSoFar).others .renameFrom (by decide) _,
          Store.failure?_congr rulesSoFar ▸ placedHere⟩⟩
      here (untouched (by simp [pathKeys])) ((untouched (by simp [pathKeys])).trans absentHere)
      ⟨unstaged _ (by simp [pathKeys]), unstaged _ (by simp [pathKeys])⟩ filesBefore
    refine ⟨cleared, last, rulesCleared.trans rulesSoFar, filesCleared, ?_, ?_⟩
    · exact (bind_run undoneHere).symm.trans undone
    · rw [List.cons_append, commitAll, bind_run run]
      exact failed

/-! ## Writing -/

section

variable {store : Store} {artifacts : List Artifact}
  (distinct : (storedKeys (artifacts.map Artifact.path)).Nodup)

include distinct

/-- With the temporary files taken away, staging and the move of an older file to its backup leave
what that move alone leaves. -/
theorem removeAll_rename_of_staged {mid : Store} {refused : Path}
    (listed : refused ∈ artifacts.map Artifact.path)
    (stagingAbsent : ∀ artifact ∈ artifacts, store.fileMap (stagingKey artifact.path) = none)
    (staging : (stageAll [] artifacts : StateM Store _) store = (.ok (), mid)) :
    (mid.fileMap.rename (keyOf refused) (backupKey refused)).removeAll
        ((artifacts.map Artifact.path).map stagingKey) =
      store.fileMap.rename (keyOf refused) (backupKey refused) := by
  obtain ⟨-, same⟩ := stageAll_ok staging
  obtain ⟨notSource, notTarget⟩ := not_mem_map_stagingKey distinct (List.Subset.refl _) listed
  rw [List.map_map] at notSource notTarget ⊢
  funext key
  rw [FileMap.removeAll_apply]
  split
  · next waiting =>
    have apart : key ≠ keyOf refused ∧ key ≠ backupKey refused :=
      ⟨fun same => notSource (same ▸ waiting), fun same => notTarget (same ▸ waiting)⟩
    rw [FileMap.rename_apply_of_ne _ apart.1 apart.2]
    obtain ⟨artifact, member, rfl⟩ := List.mem_map.mp waiting
    exact (stagingAbsent artifact member).symm
  · next outside =>
    exact FileMap.rename_congr (ne_backupKey distinct listed listed).1 (same _ notSource)
      (same _ notTarget) (same key outside)

/-- If the first artifact that is refused its place is `refused`, the write fails for it, and all it
does to the files is to move the older file to the backup. -/
theorem writeArtifacts_refused {front rest : List Artifact} {refused : Artifact}
    {cause : FileError} (split : artifacts = front ++ refused :: rest)
    (only : store.RefusesPlacesOnly (artifacts.map Artifact.path))
    (stagingAbsent : ∀ artifact ∈ artifacts, store.fileMap (stagingKey artifact.path) = none)
    (backupAbsent : ∀ artifact ∈ artifacts, store.fileMap (backupKey artifact.path) = none)
    (placed : ∀ artifact ∈ front, store.failure? .renameTo artifact.path = none)
    (stops : store.failure? .renameTo refused.path = some cause) :
    ∃ after : Store, (writeArtifacts artifacts : StateM Store _) store =
        (.error (.ofFileError refused.path cause), after) ∧
      after.fileMap = store.fileMap.rename (keyOf refused.path) (backupKey refused.path) := by
  obtain ⟨mid, rules, staging⟩ := stageAll_succeeds only [] artifacts
  have staged := staged_of_stageAll_ok distinct staging
  have sameRules := Store.failure?_congr rules
  have early {artifact : Artifact} (member : artifact ∈ front) : artifact ∈ artifacts :=
    split ▸ List.mem_append_left _ member
  have listed : refused.path ∈ artifacts.map Artifact.path :=
    List.mem_map_of_mem (split ▸ List.mem_append_right _ List.mem_cons_self)
  have paths : artifacts.map Artifact.path =
      front.map Artifact.path ++ refused.path :: rest.map Artifact.path := by
    rw [split, List.map_append, List.map_cons]
  obtain ⟨before, after, -, files, undone, failed⟩ := commitAll_refused (paths ▸ only.congr rules)
    (List.forall_mem_map.mpr fun artifact member => sameRules ▸ placed artifact member)
    (sameRules ▸ stops) (paths ▸ distinct)
    (List.forall_mem_map.mpr fun artifact member => by simp [staged artifact (early member)])
    (List.forall_mem_map.mpr fun artifact member =>
      (fileMap_of_staged distinct staging (early member)).2.trans
        (backupAbsent artifact (early member))) []
  -- Nothing was committed before the first artifact, so there is nothing left to undo.
  cases undone
  rw [← paths] at files failed
  refine ⟨before, ?_, ?_⟩
  · rw [writeArtifacts, bind_run staging]
    exact bind_run failed
  · rw [files, removeAll_rename_of_staged distinct listed stagingAbsent staging]

end

theorem exists_first_refused {store : Store} {artifacts : List Artifact}
    (notAll : ¬ ∀ artifact ∈ artifacts, store.failure? .renameTo artifact.path = none) :
    ∃ front refused rest cause, artifacts = front ++ refused :: rest ∧
      (∀ artifact ∈ front, store.failure? .renameTo artifact.path = none) ∧
      store.failure? .renameTo refused.path = some cause := by
  cases found : artifacts.find? fun artifact =>
      (store.failure? .renameTo artifact.path).isSome with
  | none => exact absurd (by simpa using found) notAll
  | some refused =>
    obtain ⟨stops, front, rest, split, placed⟩ := List.find?_eq_some_iff_append.mp found
    obtain ⟨cause, stops⟩ := Option.isSome_iff_exists.mp stops
    exact ⟨front, refused, rest, cause, split, by simpa using placed, stops⟩

/-- Where rules refuse nothing but artifacts their places, a write that fails does so for the first
artifact that is refused. Its older file is then at the backup and nothing at its path, while every
other file is as before. So each artifact's path has what it had exactly if no older file was at
that one. -/
theorem writeArtifacts_error_leaves_backup (store : Store) (artifacts : List Artifact)
    (distinct : (storedKeys (artifacts.map Artifact.path)).Nodup)
    (fresh : ∀ artifact ∈ artifacts, store.tree.isFile (stagingPath artifact.path) = false ∧
      store.tree.isFile (backupPath artifact.path) = false)
    (places : ∀ rule ∈ store.rules, RefusesPlace artifacts rule)
    {error : BuildError}
    (failed : ((writeArtifacts artifacts : StateM Store _) store).1 = .error error) :
    let after := ((writeArtifacts artifacts : StateM Store _) store).2
    ∃ front refused rest cause, artifacts = front ++ refused :: rest ∧
      (∀ artifact ∈ front, store.failure? .renameTo artifact.path = none) ∧
      store.failure? .renameTo refused.path = some cause ∧
      error = .ofFileError refused.path cause ∧
      (∀ key, after.tree.files[key]? =
        if key = keyOf refused.path then none
        else if key = backupKey refused.path then store.tree.files[keyOf refused.path]?
        else store.tree.files[key]?) ∧
      ((∀ artifact ∈ artifacts, after.tree.files[keyOf artifact.path]? =
          store.tree.files[keyOf artifact.path]?) ↔
        store.tree.isFile refused.path = false) := by
  intro after
  have absent : ∀ path : Path, store.tree.isFile path = false →
      store.fileMap (keyOf path) = none := by
    intro path missing
    simpa [Tree.isFile_eq, Store.fileMap] using missing
  have only := refusesPlacesOnly_of_rules distinct places
  have notAll : ¬ ∀ artifact ∈ artifacts, store.failure? .renameTo artifact.path = none := by
    intro placed
    obtain ⟨last, -, run, -⟩ := writeArtifacts_receives distinct only placed
    cases (congrArg Prod.fst run).symm.trans failed
  obtain ⟨front, refused, rest, cause, split, placed, stops⟩ := exists_first_refused notAll
  have member : refused ∈ artifacts := split ▸ List.mem_append_right _ List.mem_cons_self
  have listed := List.mem_map_of_mem (f := Artifact.path) member
  have backupAbsent : ∀ artifact ∈ artifacts, store.fileMap (backupKey artifact.path) = none :=
    fun artifact member => absent _ (fresh artifact member).2
  obtain ⟨last, run, files⟩ := writeArtifacts_refused distinct split only
    (fun artifact member => absent _ (fresh artifact member).1) backupAbsent placed stops
  obtain rfl : after = last := congrArg Prod.snd run
  have moved : keyOf refused.path ≠ backupKey refused.path :=
    (ne_backupKey distinct listed listed).1
  have ends (key : Text) : after.tree.files[key]? =
      if key = keyOf refused.path then none
      else if key = backupKey refused.path then store.tree.files[keyOf refused.path]?
      else store.tree.files[key]? := by
    refine (congrFun files key).trans ?_
    rw [FileMap.rename_apply _ moved, backupAbsent refused member, Option.or_none]
    split
    · next atBackup =>
      rw [if_neg fun same => moved (same.symm.trans atBackup)]
      rfl
    · rfl
  refine ⟨front, refused, rest, cause, split, placed, stops, ?_, ends, fun kept => ?_,
    fun missing artifact used => ?_⟩
  · cases (congrArg Prod.fst run).symm.trans failed
    rfl
  · have gone := (kept refused member).symm.trans ((ends _).trans (if_pos rfl))
    rw [Tree.isFile_eq]
    exact congrArg Option.isSome gone
  · have notBackup := (ne_backupKey distinct (List.mem_map_of_mem used) listed).1
    rw [ends, if_neg notBackup]
    split
    · next same =>
      rw [same]
      exact (absent _ missing).symm
    · rfl

/-- An older page and an older stylesheet, which the new stylesheet cannot replace. -/
def placeRefused : Store :=
  .ofFiles [(.ofString "/dist/main.html", "previous".toUTF8),
    (.ofString "/dist/main.css", "previous".toUTF8)]
    [⟨.renameTo, "/dist/main.css".toList, .permissionDenied "/dist/main.css".toList⟩]

theorem placeRefused_places :
    ∀ rule ∈ placeRefused.rules, RefusesPlace pageAndStylesheet rule := by
  intro rule member
  obtain rfl := List.mem_singleton.mp member
  exact ⟨rfl, _, List.mem_cons_of_mem _ List.mem_cons_self, rfl⟩

/-- The older page comes back, the older stylesheet does not. -/
theorem writeArtifacts_error_leaves_backup_placeRefused :
    ((writeArtifacts pageAndStylesheet : StateM Store _) placeRefused).1 =
        .error (.file (.ofString "/dist/main.css") (.permissionDenied "/dist/main.css".toList)) ∧
      ∀ key, ((writeArtifacts pageAndStylesheet : StateM Store _) placeRefused).2.tree.files[key]? =
        if key = "/dist/main.css".toList then none
        else if key = "/dist/main.css.weave-bak".toList then some "previous".toUTF8
        else placeRefused.tree.files[key]? := by
  have failed : ((writeArtifacts pageAndStylesheet : StateM Store _) placeRefused).1 =
      .error (.file (.ofString "/dist/main.css") (.permissionDenied "/dist/main.css".toList)) := by
    decide +kernel
  obtain ⟨_, refused, _, _, split, -, stops, -, ends, -⟩ :=
    writeArtifacts_error_leaves_backup placeRefused pageAndStylesheet (by decide +kernel)
      (by decide +kernel) placeRefused_places failed
  have member : refused ∈ pageAndStylesheet := split ▸ List.mem_append_right _ List.mem_cons_self
  have isStylesheet : ∀ artifact ∈ pageAndStylesheet,
      (placeRefused.failure? .renameTo artifact.path).isSome = true →
        keyOf artifact.path = "/dist/main.css".toList ∧
        backupKey artifact.path = "/dist/main.css.weave-bak".toList := by decide +kernel
  obtain ⟨atPath, atBackup⟩ := isStylesheet refused member (by rw [stops]; rfl)
  have older : placeRefused.tree.files["/dist/main.css".toList]? = some "previous".toUTF8 := by
    decide +kernel
  refine ⟨failed, fun key => ?_⟩
  rw [ends key, atPath, atBackup, older]

/-- So a write that fails does not always bring back what an artifact had replaced. -/
theorem not_restored_placeRefused :
    ¬ ∀ (store : Store) (artifacts : List Artifact),
      (storedKeys (artifacts.map Artifact.path)).Nodup →
      (∀ artifact ∈ artifacts, store.tree.isFile (stagingPath artifact.path) = false ∧
        store.tree.isFile (backupPath artifact.path) = false) →
      (∀ rule ∈ store.rules, RefusesPlace artifacts rule) →
      ∀ error, ((writeArtifacts artifacts : StateM Store _) store).1 = .error error →
        ∀ artifact ∈ artifacts,
          ((writeArtifacts artifacts : StateM Store _) store).2.tree.files[keyOf artifact.path]? =
            store.tree.files[keyOf artifact.path]? := by
  intro restores
  have failed : ((writeArtifacts pageAndStylesheet : StateM Store _) placeRefused).1 =
      .error (.file (.ofString "/dist/main.css") (.permissionDenied "/dist/main.css".toList)) := by
    decide +kernel
  have restored := restores placeRefused pageAndStylesheet (by decide +kernel) (by decide +kernel)
    placeRefused_places _ failed _ (List.mem_cons_of_mem _ List.mem_cons_self)
  exact absurd restored (by decide +kernel)

end PageCompiler
