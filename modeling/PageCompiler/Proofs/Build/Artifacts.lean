import PageCompiler.Proofs.Artifact.Keys
import PageCompiler.Proofs.Artifact.Replacement
import PageCompiler.Proofs.Build.Conclusion

/-! # A build changes exactly its artifacts

A build compiles and then writes. Compiling changes nothing, and the artifacts have different keys
whatever the output path and the entry file are called, so where nothing refuses a write the build
ends as the compilation does, and the files are the old ones with the artifacts in their places.
-/

namespace PageCompiler

open PageCompiler.Tree (keyOf)

/-! ## Builds and compilations -/

/-- The artifacts of a compiled entry file. -/
def Compiled.artifacts (config : BuildConfig) (compiled : Compiled) : List Artifact :=
  serialize config.outputMode
    (EmitPlan.forEntry compiled.entry config.outputPath config.title?) compiled.document

/-- How many files a document is divided into. -/
def OutputMode.count : OutputMode → Nat
  | .singleFile => 1
  | .split => 3

theorem length_artifacts (config : BuildConfig) (compiled : Compiled) :
    (compiled.artifacts config).length = config.outputMode.count := by
  rw [Compiled.artifacts]
  cases config.outputMode <;> rfl

theorem nodup_storedKeys_artifacts (config : BuildConfig) (compiled : Compiled) :
    (storedKeys ((compiled.artifacts config).map Artifact.path)).Nodup :=
  nodup_storedKeys_serialize _ _ _

section

variable {σ : Type} [FileSystem (StateM σ)] {config : BuildConfig} {entry : Path} {files left : σ}

theorem build_run_of_error {failure : Failure}
    (failed : (compile config entry : BuildM (StateM σ) Compiled).run.run files =
      (.error failure, left)) :
    (build config entry : BuildM (StateM σ) Built).run.run files = (.error failure, left) := by
  rw [build, build_bind_run, failed]

theorem build_run_of_ok {compiled : Compiled} {last : σ}
    (succeeded : (compile config entry : BuildM (StateM σ) Compiled).run.run files =
      (.ok compiled, left))
    (written : (writeArtifacts (compiled.artifacts config) : StateM σ _) left = (.ok (), last)) :
    (build config entry : BuildM (StateM σ) Built).run.run files =
      (.ok ⟨compiled, compiled.artifacts config⟩, last) := by
  rw [build, build_bind_run, succeeded]
  change (liftM (writeArtifacts (compiled.artifacts config)) >>= _ :
    BuildM (StateM σ) Built).run.run left = _
  rw [build_bind_run, build_lift_run, written]
  rfl

end

/-- In a store without rules a build that can compile ends well, and its artifacts are received. -/
theorem build_receives {config : BuildConfig} {entry : Path} {store : Store}
    (unruled : store.rules = []) {compiled : Compiled}
    (succeeded : ((compile config entry : BuildM (StateM Store) Compiled).run.run store).1 =
      .ok compiled) :
    ∃ after : Store, after.rules = [] ∧
      (build config entry : BuildM (StateM Store) Built).run.run store =
        (.ok ⟨compiled, compiled.artifacts config⟩, after) ∧
      store.fileMap.Receives (compiled.artifacts config) after.fileMap := by
  obtain ⟨sameTree, sameRules⟩ := compile_keeps_store config entry store
  have unruledThen := sameRules.trans unruled
  obtain ⟨after, rules, written, receives⟩ := writeArtifacts_receives
    (nodup_storedKeys_artifacts config compiled) (.of_unruled unruledThen _)
    fun artifact _ => Store.failure?_of_unruled unruledThen .renameTo artifact.path
  refine ⟨after, rules.trans unruledThen, build_run_of_ok (Prod.ext succeeded rfl) written, ?_⟩
  rwa [Store.fileMap, sameTree] at receives

/-- A build in a store without rules fails as its compilation does, with every file and every created
directory as before. Otherwise it succeeds, and of the files it changes its artifacts only: each one
has its content, no temporary file is left, and no backup of an older file. Whatever the output path
and the files are called, the artifacts, temporary files and backups are all in different places. -/
theorem build_changes_artifacts (config : BuildConfig) (entry : Path) (store : Store)
    (unruled : store.rules = []) :
    let compiling := (compile config entry : BuildM (StateM Store) Compiled).run.run store
    let building := (build config entry : BuildM (StateM Store) Built).run.run store
    (∀ failure, compiling.1 = .error failure →
      building.1 = .error failure ∧ building.2.tree = store.tree) ∧
    (∀ compiled, compiling.1 = .ok compiled →
      let artifacts := compiled.artifacts config
      building.1 = .ok ⟨compiled, artifacts⟩ ∧
      artifacts.length = config.outputMode.count ∧
      (∀ artifact ∈ artifacts,
        building.2.tree.files[keyOf artifact.path]? = some artifact.content.toBytes ∧
        building.2.tree.files[stagingKey artifact.path]? = none ∧
        building.2.tree.files[backupKey artifact.path]? =
          if store.tree.isFile artifact.path then none
          else store.tree.files[backupKey artifact.path]?) ∧
      ∀ key ∉ storedKeys (artifacts.map Artifact.path),
        building.2.tree.files[key]? = store.tree.files[key]?) ∧
    ∀ (mode : OutputMode) (plan : EmitPlan) (document : Document),
      (storedKeys ((serialize mode plan document).map Artifact.path)).Nodup := by
  intro compiling building
  refine ⟨fun failure failed => ?_, fun compiled succeeded => ?_, nodup_storedKeys_serialize⟩
  · have run := build_run_of_error (Prod.ext failed rfl)
    refine ⟨congrArg Prod.fst run, ?_⟩
    rw [show building.2 = compiling.2 from congrArg Prod.snd run]
    exact (compile_keeps_store config entry store).1
  · obtain ⟨after, -, run, receives⟩ := build_receives unruled succeeded
    have ends : building.2.fileMap = after.fileMap :=
      congrArg (fun result => Store.fileMap result.2) run
    refine ⟨congrArg Prod.fst run, length_artifacts config compiled, fun artifact member => ?_,
      fun key outside => ?_⟩
    · refine ⟨(congrFun ends _).trans (receives.placed artifact member),
        (congrFun ends _).trans (receives.unstaged artifact member),
        (congrFun ends _).trans ((receives.backups artifact member).trans ?_)⟩
      rw [Tree.isFile_eq]
      rfl
    · exact (congrFun ends key).trans (receives.others key outside)

/-- A page that imports a module, an older page, and a temporary file and a backup that were left
behind. -/
def leftovers : Store :=
  .ofFiles [(.ofString "/src/main.js", ":import ui.Button\nButton();\n".toUTF8),
    (.ofString "/src/ui/Button.js", "var Button = 1;\n".toUTF8),
    (.ofString "/dist/main.html", "previous".toUTF8),
    (.ofString "/dist/main.css.weave-tmp", "unfinished".toUTF8),
    (.ofString "/dist/main.js.weave-bak", "saved".toUTF8)] []

def splitConfig : BuildConfig :=
  { outputMode := .split, outputPath := .ofString "/dist/" }

/-- The temporary file is gone. The backup stays, because no older script was replaced. -/
theorem build_changes_artifacts_leftovers :
    leftovers.rules = [] ∧
      ∃ compiled, ((compile splitConfig (.ofString "/src/main.js") :
          BuildM (StateM Store) Compiled).run.run leftovers).1 = .ok compiled ∧
        (compiled.artifacts splitConfig).map Artifact.path =
          [.ofString "/dist/main.html", .ofString "/dist/main.css", .ofString "/dist/main.js"] ∧
        let building := (build splitConfig (.ofString "/src/main.js") :
          BuildM (StateM Store) Built).run.run leftovers
        building.1 = .ok ⟨compiled, compiled.artifacts splitConfig⟩ ∧
        building.2.tree.files["/dist/main.css.weave-tmp".toList]? = none ∧
        building.2.tree.files["/dist/main.html.weave-bak".toList]? = none ∧
        building.2.tree.files["/dist/main.js.weave-bak".toList]? = some "saved".toUTF8 ∧
        building.2.tree.files["/src/main.js".toList]? =
          some ":import ui.Button\nButton();\n".toUTF8 := by
  have places : ((compile splitConfig (.ofString "/src/main.js") :
      BuildM (StateM Store) Compiled).run.run leftovers).1.toOption.map (fun compiled =>
        (compiled.artifacts splitConfig).map Artifact.path) =
      some [.ofString "/dist/main.html", .ofString "/dist/main.css", .ofString "/dist/main.js"] := by
    decide +kernel
  refine ⟨rfl, ?_⟩
  obtain ⟨-, changes, -⟩ :=
    build_changes_artifacts splitConfig (.ofString "/src/main.js") leftovers rfl
  cases outcome : ((compile splitConfig (.ofString "/src/main.js") :
      BuildM (StateM Store) Compiled).run.run leftovers).1 with
  | error failure =>
    rw [outcome] at places
    cases places
  | ok compiled =>
    rw [outcome] at places
    replace places : (compiled.artifacts splitConfig).map Artifact.path = _ :=
      Option.some.inj places
    obtain ⟨built, -, each, others⟩ := changes compiled outcome
    have paths (path : Path) (listed : path ∈ (compiled.artifacts splitConfig).map Artifact.path) :
        ∃ artifact ∈ compiled.artifacts splitConfig, artifact.path = path :=
      List.mem_map.mp listed
    rw [places] at paths others
    obtain ⟨page, pageListed, pagePath⟩ := paths (.ofString "/dist/main.html") (by simp)
    obtain ⟨sheet, sheetListed, sheetPath⟩ := paths (.ofString "/dist/main.css") (by simp)
    obtain ⟨script, scriptListed, scriptPath⟩ := paths (.ofString "/dist/main.js") (by simp)
    obtain ⟨-, -, pageBackup⟩ := each page pageListed
    obtain ⟨-, sheetStaging, -⟩ := each sheet sheetListed
    obtain ⟨-, -, scriptBackup⟩ := each script scriptListed
    rw [pagePath] at pageBackup
    rw [sheetPath] at sheetStaging
    rw [scriptPath] at scriptBackup
    exact ⟨compiled, rfl, places, built, sheetStaging, pageBackup.trans (by decide +kernel),
      scriptBackup.trans (by decide +kernel), (others _ (by decide +kernel)).trans
        (by decide +kernel)⟩

end PageCompiler
