import Mathlib.Data.List.Pairwise
import Mathlib.Data.List.Nodup
import PageCompiler.Proofs.Artifact.Atomicity

/-! # Staged writing loses no file

Any operation may fail here, also one that removes a file or moves a backup back. Two things are
followed through a write: which keys each step can touch at all, and, for one artifact that replaces
a file, where the content of that file is. It is at the path of the artifact until the artifact is
committed and at its backup from then on, so even a repair that fails half-way keeps it at one of
the two.
-/

namespace PageCompiler

open PageCompiler.Tree (keyOf)

/-! ## What a step touches -/

/-- Whatever fails, the action leaves every file alone whose key is not among `keys`. -/
def Touches {α : Type} (keys : List Text) (action : StateM Store α) : Prop :=
  ∀ (store : Store) (key : Text), key ∉ keys → (action store).2.fileMap key = store.fileMap key

namespace Touches

variable {α β : Type} {keys : List Text}

theorem pure (value : α) : Touches keys (Pure.pure value : StateM Store α) :=
  fun _ _ _ => rfl

theorem bind {first : StateM Store α} {next : α → StateM Store β} (before : Touches keys first)
    (after : ∀ value, Touches keys (next value)) : Touches keys (first >>= next) := by
  intro store key outside
  calc ((first >>= next) store).2.fileMap key
      = (next (first store).1 (first store).2).2.fileMap key := rfl
    _ = (first store).2.fileMap key := after _ _ key outside
    _ = store.fileMap key := before store key outside

theorem mono {more : List Text} {action : StateM Store α} (touches : Touches keys action)
    (fewer : keys ⊆ more) : Touches more action :=
  fun store key outside => touches store key fun member => outside (fewer member)

theorem forM {list : List β} {action : β → StateM Store PUnit}
    (steps : ∀ element ∈ list, Touches keys (action element)) :
    Touches keys (list.forM action) := by
  induction list with
  | nil => exact pure _
  | cons element list ih =>
    exact bind (steps element List.mem_cons_self) fun _ =>
      ih fun other member => steps other (List.mem_cons_of_mem _ member)

theorem of_acts {operation : StateM Store (Except FileError Unit)} {blocked : Store → Prop}
    {changed : Store → FileMap}
    (acts : ∀ store : Store, store.Acts (blocked store) (changed store) operation)
    (same : ∀ (store : Store) (key : Text), key ∉ keys → changed store key = store.fileMap key) :
    Touches keys operation := by
  intro store key outside
  obtain ⟨after, -, ⟨error, run, files, -⟩ | ⟨run, files, -⟩⟩ := acts store
  · rw [run, files]
  · rw [run, files]
    exact same store key outside

end Touches

theorem remove_touches (path : Path) :
    Touches [keyOf path] (FileSystem.remove path : StateM Store _) := by
  refine .of_acts (fun store => store.remove_acts path) fun store key outside => ?_
  rw [FileMap.remove_apply, if_neg (by simpa using outside)]

theorem rename_touches (source target : Path) :
    Touches [keyOf source, keyOf target] (FileSystem.rename source target : StateM Store _) := by
  refine .of_acts (fun store => store.rename_acts source target) fun store key outside => ?_
  rw [List.mem_cons, List.mem_singleton, not_or] at outside
  exact FileMap.rename_apply_of_ne _ outside.1 outside.2

theorem discard_touches (paths : List Path) :
    Touches (paths.map keyOf) (discard paths : StateM Store Unit) := by
  refine .forM fun path member => ?_
  refine ((remove_touches path).mono ?_).bind fun _ => .pure _
  simpa using ⟨path, member, rfl⟩

theorem restore_touches (backup path : Path) :
    Touches [keyOf backup, keyOf path] (restore backup path : StateM Store Unit) :=
  (rename_touches backup path).bind fun _ => .pure _

/-! ## Staging -/

/-- The keys that writing to one path uses. -/
def pathKeys (path : Path) : List Text :=
  [keyOf path, stagingKey path, backupKey path]

theorem storedKeys_eq_flatMap (paths : List Path) : storedKeys paths = paths.flatMap pathKeys := rfl

theorem pathKeys_subset {path : Path} {paths : List Path} (member : path ∈ paths) :
    pathKeys path ⊆ storedKeys paths :=
  fun _ used => List.mem_flatMap.mpr ⟨path, member, used⟩

theorem pathKeys_disjoint {paths : List Path} (distinct : (storedKeys paths).Nodup)
    {first second : Path} (firstMember : first ∈ paths) (secondMember : second ∈ paths)
    (different : first ≠ second) : (pathKeys first).Disjoint (pathKeys second) := by
  rw [storedKeys_eq_flatMap, List.nodup_flatMap] at distinct
  have symmetric : Std.Symm (Function.onFun List.Disjoint pathKeys) :=
    ⟨fun _ _ apart _ here there => apart there here⟩
  exact distinct.2.forall firstMember secondMember different

theorem keyOf_ne_stagingKey {paths : List Path} (distinct : (storedKeys paths).Nodup)
    {first second : Path} (firstMember : first ∈ paths) (secondMember : second ∈ paths) :
    keyOf first ≠ stagingKey second := by
  intro same
  by_cases equal : first = second
  · subst equal
    have each := (List.nodup_flatMap.mp distinct).1 first firstMember
    simp [same] at each
  · exact pathKeys_disjoint distinct firstMember secondMember equal (a := keyOf first)
      (by simp [pathKeys]) (by simp [pathKeys, same])

/-- The temporary files are at none of the paths and at none of the backups. -/
theorem not_mem_map_stagingKey {all waiting : List Path} (distinct : (storedKeys all).Nodup)
    (listed : waiting ⊆ all) {path : Path} (member : path ∈ all) :
    keyOf path ∉ waiting.map stagingKey ∧ backupKey path ∉ waiting.map stagingKey := by
  constructor
  · intro staged
    obtain ⟨other, waits, same⟩ := List.mem_map.mp staged
    exact keyOf_ne_stagingKey distinct member (listed waits) same.symm
  · intro staged
    obtain ⟨other, waits, same⟩ := List.mem_map.mp staged
    exact (ne_backupKey distinct (listed waits) member).2 same

theorem stage_touches (artifact : Artifact) :
    Touches [stagingKey artifact.path] (stage artifact : StateM Store _) := by
  intro store key outside
  rw [List.mem_singleton] at outside
  obtain ⟨after, -, ⟨error, run, files⟩ | ⟨run, files⟩⟩ := stage_stages artifact store
  · rw [run, files]
  · rw [run, files, FileMap.write_apply, if_neg outside]

theorem stageAll_touches (staged : List Path) (artifacts : List Artifact) :
    Touches (staged.map keyOf ++ artifacts.map fun artifact => stagingKey artifact.path)
      (stageAll staged artifacts : StateM Store _) := by
  induction artifacts generalizing staged with
  | nil => exact .pure _
  | cons artifact others ih =>
    refine ((stage_touches artifact).mono (by simp)).bind fun outcome => ?_
    cases outcome with
    | error error => exact ((discard_touches staged).mono (by simp)).bind fun _ => .pure _
    | ok value => exact (ih _).mono (by simp [stagingKey])

/-- Staging that succeeds leaves the content of each artifact in its temporary file. -/
theorem stageAll_ok_stagingKey {store after : Store} {staged : List Path}
    {artifacts : List Artifact}
    (distinct : (artifacts.map fun artifact => stagingKey artifact.path).Nodup)
    (done : (stageAll staged artifacts : StateM Store _) store = (.ok (), after)) :
    ∀ artifact ∈ artifacts,
      after.fileMap (stagingKey artifact.path) = some artifact.content.toBytes := by
  induction artifacts generalizing staged store with
  | nil => exact fun _ member => nomatch member
  | cons artifact others ih =>
    obtain ⟨mid, -, ⟨cause, run, -⟩ | ⟨run, files⟩⟩ := stage_stages artifact store
    · rw [stageAll, bind_run run] at done
      cases done
    · rw [stageAll, bind_run run] at done
      rw [List.map_cons, List.nodup_cons] at distinct
      intro other member
      rcases List.mem_cons.mp member with rfl | later
      · -- The other artifacts are staged elsewhere.
        obtain ⟨-, same⟩ := stageAll_ok done
        rw [same _ distinct.1, files, FileMap.write_apply, if_pos rfl]
      · exact ih distinct.2 done other later

/-! ## Committing -/

/-- However moving an artifact into its place ends, the old file goes to its backup and perhaps back
again, and nothing else moves unless the artifact gets its place. -/
theorem commit_outcome (store : Store) (path : Path) :
    ∃ after : Store,
      ((∃ error, (commit path : StateM Store _) store = (.error error, after)) ∧
          (after.fileMap = store.fileMap ∨
            after.fileMap = store.fileMap.rename (keyOf path) (backupKey path) ∨
            after.fileMap = (store.fileMap.rename (keyOf path) (backupKey path)).rename
              (backupKey path) (keyOf path))) ∨
        ((commit path : StateM Store _) store = (.ok ⟨path, backupOf store path⟩, after) ∧
          after.fileMap = store.fileMap.commit path) := by
  rw [commit]
  obtain ⟨mid, -, ⟨error, run, files⟩ | ⟨run, files⟩⟩ := backUp_run store path
  · exact ⟨mid, .inl ⟨⟨error, bind_run run⟩, .inl files⟩⟩
  rw [bind_run run]
  obtain ⟨after, -, ⟨error, moved, filesAfter, -⟩ | ⟨moved, filesAfter, -⟩⟩ :=
    mid.rename_acts (stagingPath path) path
  · rw [files] at filesAfter
    cases present : store.tree.isFile path with
    | false =>
      refine ⟨after, .inl ⟨⟨error, ?_⟩, .inr (.inl filesAfter)⟩⟩
      simp only [backupOf, present, Bool.false_eq_true, if_false]
      exact bind_run moved
    | true =>
      -- There is a backup to move back, and that may fail too.
      obtain ⟨last, -, restored⟩ := after.rename_acts (backupPath path) path
      have ends : ∃ outcome,
          (FileSystem.rename (backupPath path) path : StateM Store _) after = (outcome, last) := by
        rcases restored with ⟨cause, run, -⟩ | ⟨run, -⟩
        · exact ⟨_, run⟩
        · exact ⟨_, run⟩
      obtain ⟨outcome, ended⟩ := ends
      refine ⟨last, .inl ⟨⟨error, ?_⟩, .inr ?_⟩⟩
      · simp only [backupOf, present, if_true]
        exact (bind_run moved).trans (bind_run (bind_run ended))
      · rw [← filesAfter]
        exact restored.imp (fun refused => refused.choose_spec.2.1) fun moved => moved.2.1
  · refine ⟨after, .inr ⟨bind_run moved, ?_⟩⟩
    rw [filesAfter, files]
    rfl

theorem commit_touches (path : Path) : Touches (pathKeys path) (commit path : StateM Store _) := by
  intro store key outside
  simp only [pathKeys, List.mem_cons, List.not_mem_nil, or_false, not_or] at outside
  obtain ⟨notPath, notStaging, notBackup⟩ := outside
  have renamed := store.fileMap.rename_apply_of_ne notPath notBackup
  obtain ⟨after, ⟨⟨error, run⟩, files | files | files⟩ | ⟨run, files⟩⟩ := commit_outcome store path
  · rw [run, files]
  · rw [run, files, renamed]
  · rw [run, files, FileMap.rename_apply_of_ne _ notBackup notPath, renamed]
  · rw [run, files, FileMap.commit, FileMap.rename_apply_of_ne _ notStaging notPath, renamed]

/-- The backup, if there is one, is the one that belongs to the path. -/
structure Commit.IsOf (paths : List Path) (done : Commit) : Prop where
  path_mem : done.path ∈ paths
  backup_eq : ∀ backup, done.backup? = some backup → backup = backupPath done.path

theorem undo_touches {paths : List Path} {done : Commit} (proper : done.IsOf paths) :
    Touches (pathKeys done.path) (undo done : StateM Store Unit) := by
  refine ((discard_touches [done.path]).mono (by simp [pathKeys])).bind fun _ => ?_
  cases backed : done.backup? with
  | none => exact .pure _
  | some backup =>
    obtain rfl := proper.backup_eq backup backed
    exact (restore_touches _ _).mono (by simp [pathKeys, backupKey])

theorem undoAll_touches {paths : List Path} {committed : List Commit}
    (proper : ∀ done ∈ committed, done.IsOf paths) :
    Touches (storedKeys paths) (committed.forM undo : StateM Store Unit) :=
  .forM fun done member =>
    (undo_touches (proper done member)).mono (pathKeys_subset (proper done member).path_mem)

theorem isOf_backupOf (store : Store) {path : Path} {paths : List Path} (member : path ∈ paths) :
    Commit.IsOf paths ⟨path, backupOf store path⟩ := by
  refine ⟨member, fun backup backed => ?_⟩
  rw [backupOf] at backed
  split at backed
  · exact (Option.some.inj backed).symm
  · cases backed

theorem commitAll_touches {all : List Path} {committed : List Commit} {paths : List Path}
    (proper : ∀ done ∈ committed, done.IsOf all) (listed : paths ⊆ all) :
    Touches (storedKeys all) (commitAll committed paths : StateM Store _) := by
  induction paths generalizing committed with
  | nil => exact .pure _
  | cons path others ih =>
    intro store key outside
    rw [commitAll]
    have here := (commit_touches path).mono (pathKeys_subset (listed List.mem_cons_self)) store key
      outside
    obtain ⟨mid, ⟨⟨error, run⟩, -⟩ | ⟨run, -⟩⟩ := commit_outcome store path
    · -- After a refusal, staged files are discarded and what was committed is undone.
      rw [run] at here
      rw [bind_run run, ← here]
      refine Touches.bind ((discard_touches _).mono ?_)
        (fun _ => (undoAll_touches proper).bind fun _ => .pure _) mid key outside
      rw [List.map_map]
      intro staging used
      obtain ⟨other, member, rfl⟩ := List.mem_map.mp used
      exact pathKeys_subset (listed member) (by simp [pathKeys, stagingKey])
    · rw [run] at here
      rw [bind_run run, ← here]
      have properThen :=
        List.forall_mem_cons.mpr ⟨isOf_backupOf store (listed List.mem_cons_self), proper⟩
      exact ih properThen (fun other member => listed (.tail _ member)) mid key outside

/-! ## Where an old content is -/

/-- The content is at the path or at its backup. -/
def FileMap.Keeps (files : FileMap) (path : Path) (content : ByteArray) : Prop :=
  files (keyOf path) = some content ∨ files (backupKey path) = some content

section

variable {path : Path} {content : ByteArray}

theorem Touches.keeps {α : Type} {keys : List Text} {action : StateM Store α}
    (touches : Touches keys action) (apart : keyOf path ∉ keys ∧ backupKey path ∉ keys)
    {store : Store} (kept : store.fileMap.Keeps path content) :
    (action store).2.fileMap.Keeps path content := by
  rw [FileMap.Keeps, touches store _ apart.1, touches store _ apart.2]
  exact kept

/-- Committing moves the old content to the backup; refusing to leaves it at one of the two. -/
theorem commit_keeps {store : Store} (distinct : (pathKeys path).Nodup)
    (old : store.fileMap (keyOf path) = some content) :
    ∃ after : Store,
      ((∃ error, (commit path : StateM Store _) store = (.error error, after)) ∧
          after.fileMap.Keeps path content) ∨
        ((commit path : StateM Store _) store = (.ok ⟨path, some (backupPath path)⟩, after) ∧
          after.fileMap (backupKey path) = some content) := by
  have apart : keyOf path ≠ backupKey path := by
    simp only [pathKeys, List.nodup_cons, List.mem_cons, not_or] at distinct
    exact distinct.1.2.1
  have backed : store.fileMap.rename (keyOf path) (backupKey path) (backupKey path) =
      some content := by
    rw [FileMap.rename_apply _ apart, if_pos rfl, old, Option.some_or]
  obtain ⟨after, ⟨refused, files⟩ | ⟨run, files⟩⟩ := commit_outcome store path
  · refine ⟨after, .inl ⟨refused, ?_⟩⟩
    rcases files with files | files | files
    · exact .inl (files ▸ old)
    · exact .inr (files ▸ backed)
    · left
      rw [files, FileMap.rename_apply _ apart.symm, if_pos rfl, backed, Option.some_or]
  · refine ⟨after, .inr ⟨?_, ?_⟩⟩
    · rw [run, backupOf, Tree.isFile_eq, show store.tree.fileMap (keyOf path) = _ from old]
      rfl
    · rw [files, FileMap.commit_backupKey distinct, old, Option.some_or]

/-- Undoing a commit leaves the old content at the backup, if it does not come back. -/
theorem undo_keeps {store : Store} (distinct : (pathKeys path).Nodup)
    (backed : store.fileMap (backupKey path) = some content) :
    ((undo ⟨path, some (backupPath path)⟩ : StateM Store Unit) store).2.fileMap.Keeps path
      content := by
  have apart : backupKey path ≠ keyOf path := by
    simp only [pathKeys, List.nodup_cons, List.mem_cons, not_or] at distinct
    exact Ne.symm distinct.1.2.1
  cases discarded : (discard [path] : StateM Store Unit) store with
  | mk value mid =>
    have untouched := discard_touches [path] store (backupKey path) (by simpa using apart)
    rw [discarded, backed] at untouched
    rw [undo, bind_run discarded]
    obtain ⟨after, -, ⟨error, run, files, -⟩ | ⟨run, files, -⟩⟩ :=
      mid.rename_acts (backupPath path) path
    · have ends : (restore (backupPath path) path : StateM Store Unit) mid = ((), after) :=
        bind_run run
      right
      dsimp only
      rw [ends, files]
      exact untouched
    · have ends : (restore (backupPath path) path : StateM Store Unit) mid = ((), after) :=
        bind_run run
      left
      dsimp only
      rw [ends, files]
      exact (FileMap.rename_apply _ apart _).trans (by rw [if_pos rfl]; simp [untouched])

theorem undoAll_keeps {store : Store} {committed : List Commit}
    (distinct : (storedKeys (committed.map Commit.path)).Nodup)
    (proper : ∀ done ∈ committed, done.IsOf (committed.map Commit.path))
    (member : ⟨path, some (backupPath path)⟩ ∈ committed)
    (backed : store.fileMap (backupKey path) = some content) :
    ((committed.forM undo : StateM Store Unit) store).2.fileMap.Keeps path content := by
  induction committed generalizing store with
  | nil => cases member
  | cons done others ih =>
    rw [List.map_cons, nodup_storedKeys_cons] at distinct
    obtain ⟨here, rest, apart⟩ := distinct
    have properOthers : ∀ other ∈ others, other.IsOf (others.map Commit.path) := fun other used =>
      ⟨List.mem_map_of_mem used, (proper other (.tail _ used)).backup_eq⟩
    rcases List.mem_cons.mp member with rfl | later
    · exact (undoAll_touches properOthers).keeps
        ⟨apart _ (by simp), apart _ (by simp)⟩ (undo_keeps here backed)
    · have outside : backupKey path ∉ pathKeys done.path := fun used =>
        apart _ used (pathKeys_subset (List.mem_map_of_mem later) (by simp [pathKeys]))
      exact ih rest properOthers later
        ((undo_touches (proper done List.mem_cons_self) store _ outside).trans backed)

/-- The old content of a path is still there if the path waits to be committed, and at its backup if
the path is committed. -/
def FileMap.Tracks (files : FileMap) (committed : List Commit) (waiting : List Path) (path : Path)
    (content : ByteArray) : Prop :=
  path ∈ waiting ∧ files (keyOf path) = some content ∨
    ⟨path, some (backupPath path)⟩ ∈ committed ∧ files (backupKey path) = some content

theorem commit_tracks {store : Store} {committed : List Commit} {first : Path} {others : List Path}
    (distinct : (storedKeys (first :: (committed.map Commit.path ++ others))).Nodup)
    (tracked : store.fileMap.Tracks committed (first :: others) path content) :
    ∃ after : Store,
      ((∃ error, (commit first : StateM Store _) store = (.error error, after)) ∧
          (path ∈ first :: others ∧ after.fileMap.Keeps path content ∨
            ⟨path, some (backupPath path)⟩ ∈ committed ∧
              after.fileMap (backupKey path) = some content)) ∨
        (∃ backup? : Option Path, Commit.IsOf [first] ⟨first, backup?⟩ ∧
          (commit first : StateM Store _) store = (.ok ⟨first, backup?⟩, after) ∧
          after.fileMap.Tracks (⟨first, backup?⟩ :: committed) others path content) := by
  obtain ⟨here, -, apart⟩ := nodup_storedKeys_cons.mp distinct
  by_cases same : path = first ∧ store.fileMap (keyOf path) = some content
  · obtain ⟨rfl, old⟩ := same
    obtain ⟨after, ⟨refused, kept⟩ | ⟨run, backed⟩⟩ := commit_keeps here old
    · exact ⟨after, .inl ⟨refused, .inl ⟨List.mem_cons_self, kept⟩⟩⟩
    · refine ⟨after, .inr ⟨_, ⟨List.mem_cons_self, ?_⟩, run, .inr ⟨List.mem_cons_self, backed⟩⟩⟩
      exact fun backup backed => (Option.some.inj backed).symm
  · -- The path is another one, so committing the first one does not touch its keys.
    have untouched : ∀ key ∈ storedKeys (committed.map Commit.path ++ others),
        ((commit first : StateM Store _) store).2.fileMap key = store.fileMap key :=
      fun key used => commit_touches first store key fun touched => apart key touched used
    have stillTracked : path ∈ others ∧ store.fileMap (keyOf path) = some content ∨
        ⟨path, some (backupPath path)⟩ ∈ committed ∧
          store.fileMap (backupKey path) = some content := by
      refine tracked.imp_left fun ⟨member, old⟩ => ⟨?_, old⟩
      exact (List.mem_cons.mp member).resolve_left fun isFirst => same ⟨isFirst, old⟩
    have tracks : ((commit first : StateM Store _) store).2.fileMap.Tracks committed others path
        content := by
      refine stillTracked.imp (fun ⟨member, old⟩ => ⟨member, ?_⟩)
        fun ⟨member, backed⟩ => ⟨member, ?_⟩
      · rw [untouched _ (pathKeys_subset (List.mem_append_right _ member)
          (by simp [pathKeys])), old]
      · rw [untouched _ (pathKeys_subset (List.mem_append_left _ (List.mem_map_of_mem member))
          (by simp [pathKeys])), backed]
    obtain ⟨after, ⟨⟨error, run⟩, -⟩ | ⟨run, -⟩⟩ := commit_outcome store first
    · rw [run] at tracks
      exact ⟨after, .inl ⟨⟨error, run⟩,
        tracks.imp_left fun ⟨member, old⟩ => ⟨.tail _ member, .inl old⟩⟩⟩
    · rw [run] at tracks
      exact ⟨after, .inr ⟨_, isOf_backupOf store List.mem_cons_self, run,
        tracks.imp_right fun ⟨member, backed⟩ => ⟨.tail _ member, backed⟩⟩⟩

/-- The repairs after a refusal discard what is staged and undo what is committed; they lose no
content that is at its path, at its backup or behind a commit that is undone. -/
theorem repairs_keep {store : Store} {committed : List Commit} {waiting : List Path}
    (distinct : (storedKeys (committed.map Commit.path ++ waiting)).Nodup)
    (proper : ∀ done ∈ committed, done.IsOf (committed.map Commit.path))
    (kept : path ∈ waiting ∧ store.fileMap.Keeps path content ∨
      ⟨path, some (backupPath path)⟩ ∈ committed ∧
        store.fileMap (backupKey path) = some content) :
    ((committed.forM undo : StateM Store Unit)
      ((discard (waiting.map stagingPath) : StateM Store Unit) store).2).2.fileMap.Keeps path
        content := by
  have discards := discard_touches (waiting.map stagingPath)
  rw [List.map_map] at discards
  have unstaged := fun {other : Path} =>
    @not_mem_map_stagingKey _ _ distinct (List.subset_append_right _ _) other
  rcases kept with ⟨waits, kept⟩ | ⟨done, backed⟩
  · -- The path was never committed, so no commit that is undone touches its keys.
    have keptThen := discards.keeps (unstaged (List.mem_append_right _ waits)) kept
    rw [storedKeys_eq_flatMap, List.flatMap_append, List.nodup_append'] at distinct
    have outside := fun key (used : key ∈ pathKeys path) (there : key ∈ storedKeys _) =>
      distinct.2.2 there (pathKeys_subset waits used)
    exact (undoAll_touches proper).keeps
      ⟨outside _ (by simp [pathKeys]), outside _ (by simp [pathKeys])⟩ keptThen
  · have listed := List.mem_append_left waiting (List.mem_map_of_mem (f := Commit.path) done)
    refine undoAll_keeps ?_ proper done ((discards store _ (unstaged listed).2).trans backed)
    rw [storedKeys_eq_flatMap, List.flatMap_append] at distinct
    exact distinct.of_append_left

/-- What is tracked outlives a refusal, however the repairs after it end. -/
theorem commitAll_error_keeps {store after : Store} {committed : List Commit} {paths : List Path}
    {error : BuildError} (distinct : (storedKeys (committed.map Commit.path ++ paths)).Nodup)
    (proper : ∀ done ∈ committed, done.IsOf (committed.map Commit.path))
    (tracked : store.fileMap.Tracks committed paths path content)
    (failed : (commitAll committed paths : StateM Store _) store = (.error error, after)) :
    after.fileMap.Keeps path content := by
  induction paths generalizing committed store with
  | nil => cases failed
  | cons first others ih =>
    have reordered : (storedKeys (first :: (committed.map Commit.path ++ others))).Nodup :=
      (List.perm_middle.flatMap_right _).nodup_iff.mp distinct
    rw [commitAll] at failed
    obtain ⟨mid, ⟨⟨cause, run⟩, kept⟩ | ⟨backup?, isOf, run, tracks⟩⟩ :=
      commit_tracks reordered tracked
    · have keptThen := repairs_keep distinct proper kept
      rw [bind_run run] at failed
      cases failed
      exact keptThen
    · rw [bind_run run] at failed
      have properThen : ∀ done ∈ ⟨first, backup?⟩ :: committed,
          done.IsOf ((⟨first, backup?⟩ :: committed).map Commit.path) :=
        List.forall_mem_cons.mpr ⟨⟨List.mem_cons_self, isOf.backup_eq⟩, fun done earlier =>
          ⟨.tail _ (proper done earlier).path_mem, (proper done earlier).backup_eq⟩⟩
      refine ih ?_ properThen tracks failed
      exact reordered

end

/-! ## New contents -/

theorem FileMap.commit_keyOf {files : FileMap} {path : Path} {content : ByteArray}
    (distinct : (pathKeys path).Nodup) (staged : files (stagingKey path) = some content) :
    files.commit path (keyOf path) = some content := by
  simp only [pathKeys, List.nodup_cons, List.mem_cons, List.not_mem_nil, or_false, not_or]
    at distinct
  obtain ⟨⟨notStaging, -⟩, notBackup, -⟩ := distinct
  rw [commit, rename_apply _ (Ne.symm notStaging), if_pos rfl,
    rename_apply_of_ne _ (Ne.symm notStaging) notBackup, staged, Option.some_or]

/-- When every artifact has got its place, each path holds what was staged for it. -/
theorem commitAll_ok {store after : Store} {all : List Path} {committed done : List Commit}
    {paths : List Path} (distinct : (storedKeys paths).Nodup)
    (proper : ∀ commit ∈ committed, commit.IsOf all) (listed : paths ⊆ all)
    (staged : ∀ path ∈ paths, ∃ content, store.fileMap (stagingKey path) = some content)
    (succeeded : (commitAll committed paths : StateM Store _) store = (.ok done, after)) :
    (∀ commit ∈ done, commit.IsOf all) ∧
      (∀ path ∈ paths, after.fileMap (keyOf path) = store.fileMap (stagingKey path)) ∧
      ∀ key ∉ storedKeys paths, after.fileMap key = store.fileMap key := by
  induction paths generalizing committed store with
  | nil =>
    cases succeeded
    exact ⟨fun commit member => proper commit (List.mem_reverse.mp member), nofun, fun _ _ => rfl⟩
  | cons path others ih =>
    obtain ⟨here, rest, apart⟩ := nodup_storedKeys_cons.mp distinct
    have later : ∀ {other : Path}, other ∈ others → ∀ key ∈ pathKeys other, key ∉ pathKeys path :=
      fun member key used there => apart key there (pathKeys_subset member used)
    have touches := commit_touches path store
    obtain ⟨mid, ⟨⟨cause, run⟩, -⟩ | ⟨run, files⟩⟩ := commit_outcome store path
    · rw [commitAll, bind_run run] at succeeded
      cases succeeded
    · rw [commitAll, bind_run run] at succeeded
      rw [run] at touches
      have stagedLater : ∀ other ∈ others,
          mid.fileMap (stagingKey other) = store.fileMap (stagingKey other) := fun other member =>
        touches _ (later member _ (by simp [pathKeys]))
      have properThen :=
        List.forall_mem_cons.mpr ⟨isOf_backupOf store (listed List.mem_cons_self), proper⟩
      have stagedThen : ∀ other ∈ others, ∃ content,
          mid.fileMap (stagingKey other) = some content := by
        intro other member
        rw [stagedLater other member]
        exact staged other (.tail _ member)
      -- The other artifacts are placed elsewhere, so this one stays where it is.
      obtain ⟨kept, placed, untouched⟩ :=
        ih rest properThen (fun other member => listed (.tail _ member)) stagedThen succeeded
      refine ⟨kept, fun other member => ?_, fun key outside => ?_⟩
      · rcases List.mem_cons.mp member with rfl | member
        · obtain ⟨content, isStaged⟩ := staged other List.mem_cons_self
          rw [untouched _ (apart _ (by simp)), files, FileMap.commit_keyOf here isStaged, isStaged]
        · rw [placed other member, stagedLater other member]
      · rw [storedKeys_eq_flatMap, List.flatMap_cons, List.mem_append, not_or] at outside
        rw [untouched key outside.2, touches key outside.1]

/-! ## Writing -/

/-- A write ends while it stages, while it commits, or after the backups have been discarded. -/
theorem writeArtifacts_outcome (store : Store) (artifacts : List Artifact) :
    (∃ error after, (stageAll [] artifacts : StateM Store _) store = (.error error, after) ∧
        (writeArtifacts artifacts : StateM Store _) store = (.error error, after)) ∨
      ∃ mid, (stageAll [] artifacts : StateM Store _) store = (.ok (), mid) ∧
        ((∃ error after, (commitAll [] (artifacts.map Artifact.path) : StateM Store _) mid =
              (.error error, after) ∧
            (writeArtifacts artifacts : StateM Store _) store = (.error error, after)) ∨
          ∃ done last, (commitAll [] (artifacts.map Artifact.path) : StateM Store _) mid =
              (.ok done, last) ∧
            (writeArtifacts artifacts : StateM Store _) store = (.ok (),
              ((discard (done.filterMap Commit.backup?) : StateM Store Unit) last).2)) := by
  cases staging : (stageAll [] artifacts : StateM Store _) store with
  | mk outcome mid =>
    rw [writeArtifacts, bind_run staging]
    cases outcome with
    | error error => exact .inl ⟨error, mid, rfl, rfl⟩
    | ok value =>
      refine .inr ⟨mid, rfl, ?_⟩
      dsimp only
      cases committing : (commitAll [] (artifacts.map Artifact.path) : StateM Store _) mid with
      | mk outcome last =>
        rw [bind_run committing]
        cases outcome with
        | error error => exact .inl ⟨error, last, rfl, rfl⟩
        | ok done => exact .inr ⟨done, last, rfl, rfl⟩

section

variable {store after : Store} {artifacts : List Artifact}

theorem staging_subset (artifacts : List Artifact) :
    (artifacts.map fun artifact => stagingKey artifact.path) ⊆
      storedKeys (artifacts.map Artifact.path) := by
  intro key staging
  obtain ⟨artifact, member, rfl⟩ := List.mem_map.mp staging
  exact pathKeys_subset (List.mem_map_of_mem member) (by simp [pathKeys])

/-- After staging, every path that is to be written has a temporary file. -/
theorem staged_of_stageAll_ok (distinct : (storedKeys (artifacts.map Artifact.path)).Nodup)
    (staging : (stageAll [] artifacts : StateM Store _) store = (.ok (), after)) :
    ∀ artifact ∈ artifacts,
      after.fileMap (stagingKey artifact.path) = some artifact.content.toBytes := by
  have stagingDistinct := nodup_map_stagingKey distinct
  rw [List.map_map] at stagingDistinct
  exact stageAll_ok_stagingKey stagingDistinct staging

theorem exists_backupKey_of_discarded {all : List Path} {done : List Commit}
    (proper : ∀ commit ∈ done, commit.IsOf all) {key : Text}
    (discarded : key ∈ (done.filterMap Commit.backup?).map keyOf) :
    ∃ path ∈ all, key = backupKey path := by
  obtain ⟨backup, used, rfl⟩ := List.mem_map.mp discarded
  obtain ⟨commit, committed, backed⟩ := List.mem_filterMap.mp used
  obtain rfl := (proper commit committed).backup_eq backup backed
  exact ⟨commit.path, (proper commit committed).path_mem, rfl⟩

variable (distinct : (storedKeys (artifacts.map Artifact.path)).Nodup)

include distinct

/-- What is known when everything has been staged and committed. -/
theorem commitAll_ok_of_stageAll_ok {mid last : Store} {done : List Commit}
    (staging : (stageAll [] artifacts : StateM Store _) store = (.ok (), mid))
    (committing : (commitAll [] (artifacts.map Artifact.path) : StateM Store _) mid =
      (.ok done, last)) :
    (∀ commit ∈ done, commit.IsOf (artifacts.map Artifact.path)) ∧
      ∀ artifact ∈ artifacts,
        last.fileMap (keyOf artifact.path) = some artifact.content.toBytes := by
  have staged := staged_of_stageAll_ok distinct staging
  have everyStaged : ∀ path ∈ artifacts.map Artifact.path, ∃ content,
      mid.fileMap (stagingKey path) = some content :=
    List.forall_mem_map.mpr fun artifact member => ⟨_, staged artifact member⟩
  obtain ⟨proper, placed, -⟩ := commitAll_ok distinct (List.forall_mem_nil _)
    (List.Subset.refl _) everyStaged committing
  refine ⟨proper, fun artifact member => ?_⟩
  rw [placed _ (List.mem_map_of_mem member), staged artifact member]

theorem fileMap_of_writeArtifacts_ok
    (done : (writeArtifacts artifacts : StateM Store _) store = (.ok (), after)) :
    ∀ artifact ∈ artifacts,
      after.fileMap (keyOf artifact.path) = some artifact.content.toBytes := by
  obtain ⟨error, last, -, run⟩ | ⟨mid, staging, ⟨error, last, -, run⟩ |
    ⟨commits, last, run, ends⟩⟩ := writeArtifacts_outcome store artifacts
  · cases run.symm.trans done
  · cases run.symm.trans done
  cases ends.symm.trans done
  obtain ⟨proper, placed⟩ := commitAll_ok_of_stageAll_ok distinct staging run
  intro artifact member
  -- Only backups are discarded, and no artifact is where a backup is.
  rw [discard_touches _ last _ fun discarded => ?_, placed artifact member]
  obtain ⟨path, listed, same⟩ := exists_backupKey_of_discarded proper discarded
  exact (ne_backupKey distinct (List.mem_map_of_mem member) listed).1 same

theorem fileMap_keeps_of_writeArtifacts_error {error : BuildError}
    (failed : (writeArtifacts artifacts : StateM Store _) store = (.error error, after))
    {artifact : Artifact} (member : artifact ∈ artifacts) {content : ByteArray}
    (old : store.fileMap (keyOf artifact.path) = some content) :
    after.fileMap.Keeps artifact.path content := by
  have listed := List.mem_map_of_mem (f := Artifact.path) member
  have unstaged := (not_mem_map_stagingKey distinct (List.Subset.refl _) listed).1
  rw [List.map_map] at unstaged
  have touches := stageAll_touches [] artifacts store (keyOf artifact.path) unstaged
  obtain ⟨cause, last, staging, run⟩ | ⟨mid, staging, ⟨cause, last, committing, run⟩ |
    ⟨done, last, -, run⟩⟩ := writeArtifacts_outcome store artifacts
  · cases run.symm.trans failed
    rw [staging, old] at touches
    exact .inl touches
  · cases run.symm.trans failed
    rw [staging, old] at touches
    exact commitAll_error_keeps distinct (List.forall_mem_nil _) (.inl ⟨listed, touches⟩)
      committing
  · cases run.symm.trans failed

theorem writeArtifacts_touches :
    Touches (storedKeys (artifacts.map Artifact.path))
      (writeArtifacts artifacts : StateM Store _) := by
  intro store key outside
  have staged := (stageAll_touches [] artifacts).mono (staging_subset artifacts) store key outside
  have committed := commitAll_touches (List.forall_mem_nil _)
    (List.Subset.refl (artifacts.map Artifact.path))
  obtain ⟨cause, last, staging, run⟩ | ⟨mid, staging, ends⟩ :=
    writeArtifacts_outcome store artifacts
  · rw [staging] at staged
    rw [run, staged]
  rw [staging] at staged
  replace committed := committed mid key outside
  obtain ⟨cause, last, committing, run⟩ | ⟨done, last, committing, run⟩ := ends
  · rw [committing] at committed
    rw [run, committed, staged]
  · obtain ⟨proper, -⟩ := commitAll_ok_of_stageAll_ok distinct staging committing
    rw [committing] at committed
    rw [run, discard_touches _ last key fun discarded => ?_, committed, staged]
    obtain ⟨path, listed, rfl⟩ := exists_backupKey_of_discarded proper discarded
    exact outside (pathKeys_subset listed (by simp [pathKeys]))

end

/-- Whatever fails, a write that succeeds leaves each artifact in its place, a write that fails
leaves every old content at its path or at its backup, and no write changes any other file. -/
theorem writeArtifacts_keeps_files (store : Store) (artifacts : List Artifact)
    (distinct : (storedKeys (artifacts.map Artifact.path)).Nodup) :
    (((writeArtifacts artifacts : StateM Store _) store).1 = .ok () →
        ∀ artifact ∈ artifacts, ((writeArtifacts artifacts : StateM Store _) store).2.tree.read
          artifact.path = .ok artifact.content.toBytes) ∧
      (∀ error, ((writeArtifacts artifacts : StateM Store _) store).1 = .error error →
        ∀ artifact ∈ artifacts, ∀ content, store.tree.read artifact.path = .ok content →
          ((writeArtifacts artifacts : StateM Store _) store).2.tree.read artifact.path =
              .ok content ∨
            ((writeArtifacts artifacts : StateM Store _) store).2.tree.read
              (backupPath artifact.path) = .ok content) ∧
      ∀ key ∉ storedKeys (artifacts.map Artifact.path),
        ((writeArtifacts artifacts : StateM Store _) store).2.tree.files[key]? =
          store.tree.files[key]? := by
  refine ⟨fun done artifact member => ?_, fun error failed artifact member content old => ?_,
    writeArtifacts_touches distinct store⟩
  · exact Tree.read_eq_ok_iff.mpr
      (fileMap_of_writeArtifacts_ok distinct (Prod.ext done rfl) artifact member)
  · rw [Tree.read_eq_ok_iff] at old
    exact (fileMap_keeps_of_writeArtifacts_error distinct (Prod.ext failed rfl) member old).imp
      Tree.read_eq_ok_iff.mpr Tree.read_eq_ok_iff.mpr

/-- An older page and a note beside it. The new stylesheet is refused its place, and then the older
page is refused its way back. -/
def rollbackRefused : Store :=
  .ofFiles [(.ofString "/dist/main.html", "previous".toUTF8),
      (.ofString "/dist/note.txt", "note".toUTF8)]
    [⟨.renameFrom, "/dist/main.css.weave-tmp".toList, .permissionDenied "/dist/main.css".toList⟩,
      ⟨.renameFrom, "/dist/main.html.weave-bak".toList, .permissionDenied "/dist".toList⟩]

/-- The older page is left at its backup. -/
theorem writeArtifacts_keeps_files_rollbackRefused :
    ((writeArtifacts pageAndStylesheet : StateM Store _) rollbackRefused).1 =
        .error (.file (.ofString "/dist/main.css") (.permissionDenied "/dist/main.css".toList)) ∧
      ((writeArtifacts pageAndStylesheet : StateM Store _) rollbackRefused).2.tree.read
        (.ofString "/dist/main.html.weave-bak") = .ok "previous".toUTF8 ∧
      ((writeArtifacts pageAndStylesheet : StateM Store _) rollbackRefused).2.tree.files[
        "/dist/note.txt".toList]? = some "note".toUTF8 := by
  have failed : ((writeArtifacts pageAndStylesheet : StateM Store _) rollbackRefused).1 =
      .error (.file (.ofString "/dist/main.css") (.permissionDenied "/dist/main.css".toList)) := by
    decide +kernel
  have gone : ((writeArtifacts pageAndStylesheet : StateM Store _) rollbackRefused).2.tree.read
      (.ofString "/dist/main.html") ≠ .ok "previous".toUTF8 := by
    decide +kernel
  obtain ⟨-, keeps, others⟩ :=
    writeArtifacts_keeps_files rollbackRefused pageAndStylesheet (by decide +kernel)
  have kept := keeps _ failed _ List.mem_cons_self "previous".toUTF8 (by decide +kernel)
  exact ⟨failed, kept.resolve_left gone, (others _ (by decide +kernel)).trans (by decide +kernel)⟩

end PageCompiler
