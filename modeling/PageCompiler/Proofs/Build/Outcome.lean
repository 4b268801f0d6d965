import PageCompiler.Build
import PageCompiler.Proofs.Resolution.Session

/-! # Outcomes of builds

`Builds action result` says how a build ends, whatever the files are: with a value for which
`result` holds, or with another failure than an import that is not registered. Resolving an entry
file ends with a sound registry that holds everything the entry imports, and what comes after it
fails only when files are written.
-/

namespace PageCompiler

variable {σ : Type}

/-! ## Operations on files -/

/-- Whatever the files are, the operation fails for another reason than an unregistered import. -/
def FailsAsExpected {α : Type} (action : StateM σ (Except BuildError α)) : Prop :=
  ∀ (files : σ) (error : BuildError), (action.run files).1 = .error error → error.IsExpected

namespace FailsAsExpected

variable {α β : Type}

theorem ok (value : α) :
    FailsAsExpected (pure (.ok value) : StateM σ (Except BuildError α)) :=
  fun _ _ failed => nomatch failed

theorem error {cause : BuildError} (expected : cause.IsExpected) :
    FailsAsExpected (pure (.error cause) : StateM σ (Except BuildError α)) := by
  intro files error failed
  cases failed
  exact expected

theorem bind {first : StateM σ β} {next : β → StateM σ (Except BuildError α)}
    (after : ∀ value, FailsAsExpected (next value)) : FailsAsExpected (first >>= next) :=
  fun files => after (first.run files).1 (first.run files).2

/-- The second operation may pass on an error of the first. -/
theorem andThen {first : StateM σ (Except BuildError β)}
    {next : Except BuildError β → StateM σ (Except BuildError α)}
    (before : FailsAsExpected first)
    (success : ∀ value, FailsAsExpected (next (.ok value)))
    (failure : ∀ error, error.IsExpected → FailsAsExpected (next (.error error))) :
    FailsAsExpected (first >>= next) := by
  intro files
  have expected := before files
  change ∀ error, ((next (first.run files).1).run (first.run files).2).1 = _ → _
  cases outcome : (first.run files).1 with
  | ok value => exact success value _
  | error error => exact failure error (expected error outcome) _

theorem ofFileError {first : StateM σ (Except FileError α)} (path : Path) :
    FailsAsExpected
      ((fun outcome => outcome.mapError (BuildError.ofFileError path)) <$> first) := by
  intro files error failed
  change ((first.run files).1.mapError _) = _ at failed
  cases outcome : (first.run files).1 with
  | ok value =>
    rw [outcome] at failed
    cases failed
  | error cause =>
    rw [outcome] at failed
    cases failed
    exact BuildError.isExpected_ofFileError path cause

end FailsAsExpected

/-! ## Builds -/

/-- Any failure but the one for an import that is not registered. -/
def Failure.IsExpected (failure : Failure) : Prop :=
  ∀ (name : Text) (path : Path), failure ≠ .build (.unresolvedImport name path)

theorem BuildError.IsExpected.failure {error : BuildError} (expected : error.IsExpected) :
    (Failure.build error).IsExpected :=
  fun name path same => expected name path (Failure.build.inj same)

/-- After a failure the next operation is not run. -/
theorem build_bind_run {α β : Type} (first : BuildM (StateM σ) β)
    (next : β → BuildM (StateM σ) α) (files : σ) :
    (first >>= next).run.run files =
      match first.run.run files with
      | (.ok value, files) => (next value).run.run files
      | (.error failure, files) => (.error failure, files) := by
  simp only [ExceptT.run_bind, StateT.run_bind]
  rcases first.run.run files with ⟨failure | value, left⟩ <;> rfl

theorem build_lift_run {α : Type} (action : StateM σ α) (files : σ) :
    (liftM action : BuildM (StateM σ) α).run.run files =
      (.ok (action files).1, (action files).2) := rfl

def Builds {α : Type} (action : BuildM (StateM σ) α) (result : α → Prop) : Prop :=
  ∀ files : σ, match (action.run.run files).1 with
    | .ok value => result value
    | .error failure => failure.IsExpected

namespace Builds

variable {α β : Type} {result : α → Prop} {between : β → Prop}

theorem pure {value : α} (holds : result value) :
    Builds (Pure.pure value : BuildM (StateM σ) α) result :=
  fun _ => holds

theorem throw {failure : Failure} (expected : failure.IsExpected) :
    Builds (throw failure : BuildM (StateM σ) α) result :=
  fun _ => expected

theorem bind {first : BuildM (StateM σ) β} {next : β → BuildM (StateM σ) α}
    (before : Builds first between) (after : ∀ value, between value → Builds (next value) result) :
    Builds (first >>= next) result := by
  intro files
  have reached := before files
  rw [build_bind_run]
  generalize first.run.run files = outcome at reached
  obtain ⟨failure | value, left⟩ := outcome
  · exact reached
  · exact after value reached left

theorem lift {action : StateM σ α} (ends : α → Prop) (holds : ∀ files, ends (action.run files).1) :
    Builds (liftM action : BuildM (StateM σ) α) ends :=
  holds

theorem orFail {outcome : Except BuildError α}
    (success : ∀ value, outcome = .ok value → result value)
    (failure : ∀ error, outcome = .error error → error.IsExpected) :
    Builds (orFail outcome : BuildM (StateM σ) α) result := by
  cases outcome with
  | ok value => exact pure (success value rfl)
  | error error => exact throw (failure error rfl).failure

end Builds

/-! ## Configurations -/

theorem bindModule_error {matching : NameMatching} {bindings : Bindings}
    {binding : ModuleBinding} {failure : Failure}
    (failed : BuildConfig.bindModule matching bindings binding = .error failure) :
    (∃ message, failure = .config message) ∨
      ∃ name existing conflicting,
        failure = .build (.duplicateModule name existing conflicting) := by
  rw [BuildConfig.bindModule] at failed
  split at failed
  · cases failed
    exact .inl ⟨_, rfl⟩
  · next name _ =>
    cases bound : bind matching bindings name binding.path with
    | ok more =>
      rw [bound] at failed
      cases failed
    | error error =>
      rw [bound] at failed
      cases failed
      obtain ⟨existing, rfl⟩ := bind_error bound
      exact .inr ⟨_, existing, _, rfl⟩

/-- Bindings are refused for a bad name or for a second file. -/
theorem bindings_error {config : BuildConfig} {failure : Failure}
    (failed : config.bindings = .error failure) :
    (∃ message, failure = .config message) ∨
      ∃ name existing conflicting,
        failure = .build (.duplicateModule name existing conflicting) := by
  obtain ⟨_, _, -, refused⟩ := exists_of_foldlM_eq_error failed
  exact bindModule_error refused

theorem bindings_isExpected {config : BuildConfig} {failure : Failure}
    (failed : config.bindings = .error failure) : failure.IsExpected := by
  rcases bindings_error failed with ⟨message, rfl⟩ | ⟨name, existing, conflicting, rfl⟩
  · exact fun _ _ => Failure.noConfusion
  · exact BuildError.IsExpected.failure fun _ _ => BuildError.noConfusion

/-! ## Operations -/

variable [FileSystem (StateM σ)]

theorem stage_failsAsExpected (artifact : Artifact) :
    FailsAsExpected (stage artifact : StateM σ (Except BuildError Unit)) := by
  have written : FailsAsExpected (do
      let written ← FileSystem.write (stagingPath artifact.path) artifact.content.toBytes
      return written.mapError (BuildError.ofFileError artifact.path) :
        StateM σ (Except BuildError Unit)) :=
    .ofFileError artifact.path
  unfold stage
  split
  · next parent _ =>
    split
    · exact written
    · exact (FailsAsExpected.ofFileError parent).andThen (fun _ => written) fun _ => .error
  · exact written

theorem stageAll_failsAsExpected (staged : List Path) (artifacts : List Artifact) :
    FailsAsExpected (stageAll staged artifacts : StateM σ (Except BuildError Unit)) := by
  induction artifacts generalizing staged with
  | nil => exact .ok ()
  | cons artifact others inductionHypothesis =>
    refine (stage_failsAsExpected artifact).andThen (fun _ => inductionHypothesis _)
      fun error expected => ?_
    exact .bind fun _ => .error expected

theorem commitAll_failsAsExpected (committed : List Commit) (paths : List Path) :
    FailsAsExpected (commitAll committed paths : StateM σ (Except BuildError (List Commit))) := by
  induction paths generalizing committed with
  | nil => exact .ok _
  | cons path others inductionHypothesis =>
    refine .bind fun outcome => ?_
    cases outcome with
    | ok done => exact inductionHypothesis _
    | error error =>
      exact .bind fun _ => .bind fun _ => .error (BuildError.isExpected_ofFileError path error)

theorem writeArtifacts_failsAsExpected (artifacts : List Artifact) :
    FailsAsExpected (writeArtifacts artifacts : StateM σ (Except BuildError Unit)) := by
  refine (stageAll_failsAsExpected [] artifacts).andThen (fun _ => ?_) fun _ => .error
  refine (commitAll_failsAsExpected [] _).andThen (fun _ => ?_) fun _ => .error
  exact .bind fun _ => .ok ()

theorem readEntry_builds (entry : Path) :
    Builds (readEntry entry : BuildM (StateM σ) SourceFile) fun _ => True := by
  refine (Builds.lift (fun _ => True) fun _ => trivial).bind fun outcome _ => ?_
  cases outcome with
  | error error => exact .throw (BuildError.isExpected_ofFileError entry error).failure
  | ok text =>
    refine .orFail (fun _ _ => trivial) fun error failed => ?_
    cases scanned : SourceFile.scan entry text with
    | ok source =>
      rw [scanned] at failed
      cases failed
    | error cause =>
      rw [scanned] at failed
      cases failed
      exact BuildError.isExpected_ofScanError entry cause

theorem resolve_builds (config : BuildConfig) (entry : Path) :
    Builds (resolve config entry : BuildM (StateM σ) Resolved) fun resolved =>
      resolved.registry.Sound ∧ resolved.registry.Holds (importedNames resolved.source) := by
  refine (readEntry_builds entry.normalize).bind fun source _ => ?_
  cases bound : config.bindings with
  | error failure =>
    exact .throw (bindings_isExpected bound)
  | ok bindings =>
    dsimp only
    generalize settings : ({ Resolver.make _ _ _ with bindings := bindings } : Resolver) = resolver
    have steps : Resolves [] (do
        loadBindings resolver
        resolveImports resolver source : ResolveM (StateM σ) Unit) (importedNames source) :=
      ((loadBindings_resolves resolver).weaken (List.Subset.refl _) (List.nil_subset _)).bind
        fun _ => resolveImports_resolves resolver source
    -- A build starts with an empty registry, and resolution keeps it sound.
    refine Builds.bind (.lift _ fun files => steps ⟨.empty config.nameMatching, 0⟩ files
      (Registry.sound_empty _) (Registry.holds_nil _)) fun result settled => ?_
    obtain ⟨outcome, resolution⟩ := result
    exact (Builds.orFail settled.success settled.failure).bind fun _ held =>
      .pure ⟨settled.sound, held⟩

/-- What an entry file was resolved with has its imports and what they need. -/
theorem resolve_sound {config : BuildConfig} {entry : Path} {files : σ} {resolved : Resolved}
    (succeeds : ((resolve config entry : BuildM (StateM σ) Resolved).run.run files).1 =
      .ok resolved) :
    resolved.registry.Sound ∧ resolved.registry.Holds (importedNames resolved.source) := by
  have ends := resolve_builds config entry files
  rw [succeeds] at ends
  exact ends

theorem compile_builds (config : BuildConfig) (entry : Path) :
    Builds (compile config entry : BuildM (StateM σ) Compiled) fun _ => True := by
  refine (resolve_builds config entry).bind fun resolved ⟨sound, held⟩ => ?_
  obtain ⟨⟨modules, ordered⟩, documents⟩ := sound.assembles held
  obtain ⟨document, assembled⟩ := documents config.options
  rw [assembled, Resolved.modules, ordered]
  exact .pure trivial

theorem build_builds (config : BuildConfig) (entry : Path) :
    Builds (build config entry : BuildM (StateM σ) Built) fun _ => True := by
  refine (compile_builds config entry).bind fun compiled _ => ?_
  refine Builds.bind (.lift
    (fun outcome : Except BuildError Unit => ∀ error, outcome = .error error → error.IsExpected)
    (writeArtifacts_failsAsExpected _)) fun outcome expected => ?_
  exact (Builds.orFail (fun _ _ => trivial) expected).bind fun _ _ => .pure trivial

theorem listFiles_builds (config : BuildConfig) (options : ListOptions) (entry : Path) :
    Builds (listFiles config options entry : BuildM (StateM σ) (List Text)) fun _ => True := by
  refine (resolve_builds config entry).bind fun resolved ⟨sound, held⟩ => ?_
  obtain ⟨⟨modules, ordered⟩, _⟩ := sound.assembles held
  rw [Resolved.modules, ordered]
  exact .pure trivial

end PageCompiler
