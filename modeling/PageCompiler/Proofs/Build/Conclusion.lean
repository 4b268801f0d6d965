import PageCompiler.Proofs.Build.Outcome
import PageCompiler.Proofs.Resolution.Nesting

/-! # What a compilation goes back to

A compilation asks the files and changes nothing. If it succeeds, its result goes back to a source
file that was read and scanned, and to a registry that was moved to from the empty one; if it fails,
then not because imports nest too deeply. `Concludes` says this of every part of a compilation.
-/

namespace PageCompiler

open FileSystem (view)

/-! ## Operations -/

/-- Any failure but the one for imports that nest too deeply. -/
def Failure.IsWithinLimit (failure : Failure) : Prop :=
  ∀ name : Text, failure ≠ .build (.nestingLimit name)

theorem BuildError.IsWithinLimit.failure {error : BuildError} (within : error.IsWithinLimit) :
    (Failure.build error).IsWithinLimit :=
  fun name same => within name (Failure.build.inj same)

section

variable {σ α β : Type}

/-- From files with the property `kept` the operation comes to files with that property, and to a
value that `gives` accepts or a failure other than the limit on nesting. -/
def Concludes (kept : σ → Prop) (action : BuildM (StateM σ) α) (gives : α → Prop) : Prop :=
  ∀ files : σ, kept files → kept (action.run.run files).2 ∧
    match (action.run.run files).1 with
    | .ok value => gives value
    | .error failure => failure.IsWithinLimit

namespace Concludes

variable {kept : σ → Prop} {gives : α → Prop} {between : β → Prop}

theorem pure {value : α} (holds : gives value) :
    Concludes kept (Pure.pure value : BuildM (StateM σ) α) gives :=
  fun _ keeps => ⟨keeps, holds⟩

theorem throw {failure : Failure} (within : failure.IsWithinLimit) :
    Concludes kept (throw failure : BuildM (StateM σ) α) gives :=
  fun _ keeps => ⟨keeps, within⟩

theorem bind {first : BuildM (StateM σ) β} {next : β → BuildM (StateM σ) α}
    (before : Concludes kept first between)
    (after : ∀ value, between value → Concludes kept (next value) gives) :
    Concludes kept (first >>= next) gives := by
  intro files keeps
  obtain ⟨keepsThen, reached⟩ := before files keeps
  rw [build_bind_run]
  generalize first.run.run files = outcome at keepsThen reached
  obtain ⟨failure | value, left⟩ := outcome
  · exact ⟨keepsThen, reached⟩
  · exact after value reached left keepsThen

theorem lift {action : StateM σ α} {question : ReaderM View α} {seen : View}
    (asks : AsksWithin kept seen action question) :
    Concludes kept (liftM action : BuildM (StateM σ) α) (fun value => value = question seen) := by
  intro files keeps
  obtain ⟨answer, keepsThen⟩ := asks files keeps
  exact ⟨keepsThen, answer⟩

theorem orFail {outcome : Except BuildError α}
    (success : ∀ value, outcome = .ok value → gives value)
    (failure : ∀ error, outcome = .error error → error.IsWithinLimit) :
    Concludes kept (orFail outcome : BuildM (StateM σ) α) gives := by
  cases outcome with
  | ok value => exact pure (success value rfl)
  | error error => exact throw (failure error rfl).failure

/-- What is known of a value in general is known of it here. -/
theorem and_builds {action : BuildM (StateM σ) α} {result : α → Prop}
    (concludes : Concludes kept action gives) (builds : Builds action result) :
    Concludes kept action (fun value => gives value ∧ result value) := by
  intro files keeps
  obtain ⟨keepsThen, ends⟩ := concludes files keeps
  have known := builds files
  refine ⟨keepsThen, ?_⟩
  cases outcome : (action.run.run files).1 with
  | ok value =>
    rw [outcome] at ends known
    exact ⟨ends, known⟩
  | error failure =>
    rw [outcome] at ends
    exact ends

end Concludes

/-- The limit on nesting ends nothing that runs a step of resolution. -/
theorem Develops.concludes {around : Surroundings σ} {step : ResolveM (StateM σ) α}
    {gives : α → Prop} (develops : Develops around step gives) {resolution : Resolution}
    (matching : resolution.registry.matching = around.matching) :
    Concludes around.kept
      (liftM (step.run.run resolution) : BuildM (StateM σ) (Except BuildError α × Resolution))
      (fun result =>
        around.seen.MovesTo around.resolver resolution.registry result.2.registry ∧
          (∀ value, result.1 = .ok value → gives value) ∧
          ∀ error, result.1 = .error error → error.IsWithinLimit) := by
  intro files keeps
  obtain ⟨keepsThen, moves, success, failure⟩ := develops resolution files matching keeps
  exact ⟨keepsThen, moves, success, failure⟩

end

/-! ## Successful runs -/

section

variable {σ α β : Type}

theorem exists_of_bind_run {first : BuildM (StateM σ) β} {next : β → BuildM (StateM σ) α}
    {files last : σ} {value : α}
    (succeeds : (first >>= next).run.run files = (.ok value, last)) :
    ∃ between left, first.run.run files = (.ok between, left) ∧
      (next between).run.run left = (.ok value, last) := by
  rw [build_bind_run] at succeeds
  generalize first.run.run files = result at succeeds
  obtain ⟨failure | between, left⟩ := result
  · cases succeeds
  · exact ⟨between, left, rfl, succeeds⟩

/-- A known part of a result shows that there is a result. -/
theorem exists_of_toOption_map {ε : Type} {outcome : Except ε α} {part : α → β} {known : β}
    (found : outcome.toOption.map part = some known) :
    ∃ value, outcome = .ok value ∧ part value = known := by
  cases outcome with
  | ok value => exact ⟨value, rfl, Option.some.inj found⟩
  | error error => cases found

theorem orFail_run {outcome : Except BuildError α} {files left : σ} {value : α}
    (succeeds : (orFail outcome : BuildM (StateM σ) α).run.run files = (.ok value, left)) :
    outcome = .ok value ∧ left = files := by
  cases outcome with
  | error error => cases succeeds
  | ok found =>
    cases succeeds
    exact ⟨rfl, rfl⟩

end

/-! ## Resolving -/

/-- The settings that the imports of an entry file are resolved with. -/
def BuildConfig.resolver (config : BuildConfig) (entry : Path) (bindings : Bindings) : Resolver :=
  { Resolver.make (config.searchRoots entry.normalize) config.namePolicy
    config.options.excludeMarkers with bindings := bindings }

section

variable {σ : Type} [FileSystem (StateM σ)] {config : BuildConfig} {entry : Path} {files left : σ}

/-- Resolving succeeds when the entry file can be read, the bindings can be made and the steps of
resolution succeed. -/
theorem resolve_eq_ok_iff {resolved : Resolved} :
    (resolve config entry : BuildM (StateM σ) Resolved).run.run files = (.ok resolved, left) ↔
      ∃ opened bindings, (readEntry entry.normalize : BuildM (StateM σ) SourceFile).run.run files =
          (.ok resolved.source, opened) ∧
        config.bindings = .ok bindings ∧
        ((resolutionSteps (config.resolver entry bindings) resolved.source :
          ResolveM (StateM σ) Unit).run.run ⟨.empty config.nameMatching, 0⟩).run opened =
            ((.ok (), ⟨resolved.registry, resolved.scans⟩), left) := by
  constructor
  · intro succeeds
    obtain ⟨source, opened, read, rest⟩ := exists_of_bind_run succeeds
    cases bound : config.bindings with
    | error failure =>
      rw [bound] at rest
      cases rest
    | ok bindings =>
      rw [bound] at rest
      obtain ⟨⟨outcome, resolution⟩, between, ran, rest⟩ := exists_of_bind_run rest
      obtain ⟨⟨⟩, last, settled, rest⟩ := exists_of_bind_run rest
      obtain ⟨rfl, rfl⟩ := orFail_run settled
      cases rest
      obtain ⟨ended, rfl⟩ := Prod.mk.inj ran
      exact ⟨opened, bindings, read, rfl, Prod.ext (Except.ok.inj ended) rfl⟩
  · rintro ⟨opened, bindings, read, bound, ran⟩
    have lifted : (liftM ((resolutionSteps (config.resolver entry bindings) resolved.source :
        ResolveM (StateM σ) Unit).run.run ⟨.empty config.nameMatching, 0⟩) :
        BuildM (StateM σ) (Except BuildError Unit × Resolution)).run.run opened =
          (.ok (.ok (), ⟨resolved.registry, resolved.scans⟩), left) :=
      congrArg (fun result : (Except BuildError Unit × Resolution) × σ =>
        ((.ok result.1 : Except Failure _), result.2)) ran
    rw [resolve, build_bind_run, read]
    dsimp only
    rw [bound]
    change (liftM ((resolutionSteps (config.resolver entry bindings) resolved.source :
      ResolveM (StateM σ) Unit).run.run ⟨.empty config.nameMatching, 0⟩) >>= _ :
      BuildM (StateM σ) Resolved).run.run opened = _
    rw [build_bind_run, lifted]
    rfl

/-- Compiling succeeds when resolving does and the document and the order can be made. -/
theorem compile_eq_ok_iff {compiled : Compiled} :
    (compile config entry : BuildM (StateM σ) Compiled).run.run files = (.ok compiled, left) ↔
      ∃ resolved, (resolve config entry : BuildM (StateM σ) Resolved).run.run files =
          (.ok resolved, left) ∧
        assemble resolved.registry config.options resolved.source = .ok compiled.document ∧
        resolved.modules = .ok compiled.modules ∧
        resolved.source.path = compiled.entry ∧ resolved.scans = compiled.scans := by
  constructor
  · intro succeeds
    obtain ⟨resolved, between, ran, rest⟩ := exists_of_bind_run succeeds
    obtain ⟨document, last, assembling, rest⟩ := exists_of_bind_run rest
    obtain ⟨modules, _, ordering, rest⟩ := exists_of_bind_run rest
    cases rest
    obtain ⟨assembled, rfl⟩ := orFail_run assembling
    obtain ⟨ordered, rfl⟩ := orFail_run ordering
    exact ⟨resolved, ran, assembled, ordered, rfl, rfl⟩
  · rintro ⟨resolved, ran, assembled, ordered, opened, scanned⟩
    rw [compile, build_bind_run, ran]
    dsimp only
    rw [assembled, ordered, opened, scanned]
    rfl

end

/-- What was read of an entry file, and the registry that was made for it. -/
structure Resolved.GoesBackTo (seen : View) (config : BuildConfig) (entry : Path)
    (resolved : Resolved) : Prop where
  scanned : ∃ text, seen.readText entry.normalize = .ok text ∧
    SourceFile.scan entry.normalize text = .ok resolved.source
  moves : ∃ bindings, config.bindings = .ok bindings ∧
    seen.MovesTo (config.resolver entry bindings) (.empty config.nameMatching) resolved.registry

/-- What a compilation was assembled from. -/
structure Compiled.GoesBackTo (seen : View) (config : BuildConfig) (entry : Path)
    (resolved : Resolved) (compiled : Compiled) : Prop where
  origin : resolved.GoesBackTo seen config entry
  sound : resolved.registry.Sound
  held : resolved.registry.Holds (importedNames resolved.source)
  document : assemble resolved.registry config.options resolved.source = .ok compiled.document
  modules : resolved.modules = .ok compiled.modules

theorem bindings_isWithinLimit {config : BuildConfig} {failure : Failure}
    (failed : config.bindings = .error failure) : failure.IsWithinLimit := by
  rcases bindings_error failed with ⟨message, rfl⟩ | ⟨name, existing, conflicting, rfl⟩
  · exact fun _ => Failure.noConfusion
  · exact BuildError.IsWithinLimit.failure fun _ => BuildError.noConfusion

theorem scan_mapError_eq_ok {path : Path} {text : Text} {source : SourceFile}
    (scanned : (SourceFile.scan path text).mapError (BuildError.ofScanError path) = .ok source) :
    SourceFile.scan path text = .ok source := by
  cases outcome : SourceFile.scan path text with
  | ok other =>
    rw [outcome] at scanned
    cases scanned
    rfl
  | error cause =>
    rw [outcome] at scanned
    cases scanned

theorem scan_mapError_isWithinLimit {path : Path} {text : Text} {error : BuildError}
    (failed : (SourceFile.scan path text).mapError (BuildError.ofScanError path) =
      .error error) : error.IsWithinLimit := by
  cases outcome : SourceFile.scan path text with
  | ok other =>
    rw [outcome] at failed
    cases failed
  | error cause =>
    rw [outcome] at failed
    cases failed
    exact fun _ => BuildError.noConfusion

section

variable {σ : Type} [FileSystem (StateM σ)] {kept : σ → Prop} {seen : View}
  (stable : Stable kept seen)

include stable

theorem readEntry_concludes (entry : Path) :
    Concludes kept (readEntry entry : BuildM (StateM σ) SourceFile) (fun source =>
      ∃ text, seen.readText entry = .ok text ∧ SourceFile.scan entry text = .ok source) := by
  refine (Concludes.lift (.readText stable entry)).bind fun outcome found => ?_
  change outcome = seen.readText entry at found
  cases outcome with
  | error error => exact .throw (BuildError.isWithinLimit_ofFileError entry error).failure
  | ok text =>
    exact .orFail (fun source scanned => ⟨text, found.symm, scan_mapError_eq_ok scanned⟩)
      fun error failed => scan_mapError_isWithinLimit failed

theorem resolve_concludes (bounded : seen.Bounded) (config : BuildConfig) (entry : Path) :
    Concludes kept (resolve config entry : BuildM (StateM σ) Resolved)
      (Resolved.GoesBackTo seen config entry) := by
  refine (readEntry_concludes stable entry.normalize).bind fun source opened => ?_
  cases bound : config.bindings with
  | error failure => exact .throw (bindings_isWithinLimit bound)
  | ok bindings =>
    obtain ⟨text, read, scanned⟩ := opened
    let around : Surroundings σ :=
      ⟨kept, seen, config.resolver entry bindings, config.nameMatching⟩
    have develops : Develops around (do
        loadBindings around.resolver
        resolveImports around.resolver source : ResolveM (StateM σ) Unit) fun _ => True :=
      (loadBindings_develops stable bounded).bind fun _ _ =>
        resolveImports_develops stable bounded scanned
    refine (develops.concludes (rfl : (Registry.empty _).matching = _)).bind ?_
    rintro result ⟨moves, -, failure⟩
    obtain ⟨outcome, resolution⟩ := result
    exact (Concludes.orFail (fun _ _ => trivial) failure).bind fun _ _ =>
      .pure ⟨⟨text, read, scanned⟩, bindings, bound, moves⟩

/-! ## Compiling -/

theorem compile_concludes (bounded : seen.Bounded) (config : BuildConfig) (entry : Path) :
    Concludes kept (compile config entry : BuildM (StateM σ) Compiled) (fun _ => True) := by
  refine ((resolve_concludes stable bounded config entry).and_builds
    (resolve_builds config entry)).bind ?_
  rintro resolved ⟨-, sound, held⟩
  -- What is sound and holds the imports of the entry can be assembled and put in order.
  obtain ⟨⟨modules, ordered⟩, documents⟩ := sound.assembles held
  obtain ⟨document, assembled⟩ := documents config.options
  rw [assembled, Resolved.modules, ordered]
  exact .pure trivial

end

/-! ## File systems -/

section

variable {σ : Type} [FileSystem (StateM σ)] [LawfulFileSystem σ]

theorem exists_goesBackTo {config : BuildConfig} {entry : Path} {files : σ} {compiled : Compiled}
    (succeeds : ((compile config entry : BuildM (StateM σ) Compiled).run.run files).1 =
      .ok compiled) :
    ∃ resolved, ((resolve config entry : BuildM (StateM σ) Resolved).run.run files).1 =
        .ok resolved ∧ compiled.GoesBackTo (view files) config entry resolved := by
  obtain ⟨resolved, ran, assembled, ordered, -⟩ := compile_eq_ok_iff.mp (Prod.ext succeeds rfl)
  have goesBack := (resolve_concludes (stable_view _) (LawfulFileSystem.bounded files) config entry
    files rfl).2
  have known := resolve_builds config entry files
  rw [ran] at goesBack known
  exact ⟨resolved, congrArg Prod.fst ran, goesBack, known.1, known.2, assembled, ordered⟩

/-- No import nests too deeply. -/
theorem compile_ne_nestingLimit (config : BuildConfig) (entry : Path) (files : σ) (name : Text) :
    ((compile config entry : BuildM (StateM σ) Compiled).run.run files).1 ≠
      .error (.build (.nestingLimit name)) := by
  intro failed
  have ends := (compile_concludes (stable_view _) (LawfulFileSystem.bounded files) config entry
    files rfl).2
  rw [failed] at ends
  exact ends name rfl

end

/-- A compilation leaves the files, the created directories and the rules of a store alone. -/
theorem compile_keeps_store (config : BuildConfig) (entry : Path) (store : Store) :
    ((compile config entry : BuildM (StateM Store) Compiled).run.run store).2.tree = store.tree ∧
      ((compile config entry : BuildM (StateM Store) Compiled).run.run store).2.rules =
        store.rules :=
  (compile_concludes store.stable (LawfulFileSystem.bounded store) config entry store
    ⟨rfl, rfl⟩).1

end PageCompiler
