import PageCompiler.Proofs.Resolution.Modules

/-! # Sessions

A session is any sequence of calls on one resolver and one registry, where an error ends a call but
not the session, and where the files may change in any way between two calls. No call removes a
module, and every call keeps the registry sound.
-/

namespace PageCompiler

structure Session (σ : Type) where
  resolver : Resolver
  resolution : Resolution
  files : σ

inductive ResolverCall (σ : Type) where
  | bind (name : ModuleName) (path : Path)
  | loadBindings
  | resolveImports (source : SourceFile)
  /-- What happens to the files between two calls. -/
  | changeFiles (files : σ)

theorem bind_error {matching : NameMatching} {bindings : Bindings} {name : ModuleName}
    {path : Path} {error : BuildError} (refused : bind matching bindings name path = .error error) :
    ∃ existing, error = .duplicateModule name.qualified existing path.normalize := by
  rw [bind] at refused
  split at refused
  · cases refused
  · split at refused
    · cases refused
    · cases refused
      exact ⟨_, rfl⟩

theorem bind_isExpected {matching : NameMatching} {bindings : Bindings} {name : ModuleName}
    {path : Path} {error : BuildError} (refused : bind matching bindings name path = .error error) :
    error.IsExpected := by
  obtain ⟨existing, rfl⟩ := bind_error refused
  exact fun _ _ => BuildError.noConfusion

namespace Session

/-- A session that starts with an empty registry. -/
def start {σ : Type} (resolver : Resolver) (matching : NameMatching) (files : σ) : Session σ :=
  ⟨resolver, ⟨.empty matching, 0⟩, files⟩

def bind {σ : Type} (session : Session σ) (name : ModuleName) (path : Path) :
    Except BuildError Unit × Session σ :=
  let resolver := session.resolver
  match PageCompiler.bind resolver.policy.matching resolver.bindings name path with
  | .ok bindings => (.ok (), { session with resolver := { resolver with bindings := bindings } })
  | .error error => (.error error, session)

theorem bind_settles {σ : Type} (session : Session σ) (sound : session.resolution.registry.Sound)
    (name : ModuleName) (path : Path) :
    session.resolution.registry.Settles []
      ((session.bind name path).1, (session.bind name path).2.resolution) := by
  rw [bind]
  cases bound : PageCompiler.bind session.resolver.policy.matching session.resolver.bindings name
    path with
  | ok bindings => exact .of_modules_eq sound (Registry.holds_nil _) rfl rfl _
  | error error =>
    refine ⟨sound, .refl _, fun _ succeeded => ?_, fun _ failed => ?_⟩
    · cases succeeded
    · cases failed
      exact bind_isExpected bound

/-- Carries out a step of resolution; what it resolved before an error stays. -/
def perform {σ : Type} (session : Session σ) (step : ResolveM (StateM σ) Unit) :
    Except BuildError Unit × Session σ :=
  let ((outcome, resolution), files) := (step.run.run session.resolution).run session.files
  (outcome, { session with resolution := resolution, files := files })

theorem perform_settles {σ : Type} {session : Session σ} {step : ResolveM (StateM σ) Unit}
    {gained : List ModuleName} (resolves : Resolves [] step gained)
    (sound : session.resolution.registry.Sound) :
    session.resolution.registry.Settles gained
      ((session.perform step).1, (session.perform step).2.resolution) :=
  resolves session.resolution session.files sound (Registry.holds_nil _)

variable {σ : Type} [FileSystem (StateM σ)]

def call (session : Session σ) : ResolverCall σ → Except BuildError Unit × Session σ
  | .bind name path => session.bind name path
  | .loadBindings => session.perform (PageCompiler.loadBindings session.resolver)
  | .resolveImports source => session.perform (PageCompiler.resolveImports session.resolver source)
  | .changeFiles files => (.ok (), { session with files := files })

/-- The session after some calls, whatever their outcomes were. -/
def run (session : Session σ) (calls : List (ResolverCall σ)) : Session σ :=
  calls.foldl (fun session call => (session.call call).2) session

/-! ## What calls keep -/

theorem call_settles (session : Session σ) (sound : session.resolution.registry.Sound)
    (call : ResolverCall σ) :
    ∃ gained, session.resolution.registry.Settles gained
      ((session.call call).1, (session.call call).2.resolution) := by
  cases call with
  | bind name path => exact ⟨_, session.bind_settles sound name path⟩
  | loadBindings => exact ⟨_, perform_settles (loadBindings_resolves session.resolver) sound⟩
  | resolveImports source =>
    exact ⟨_, perform_settles (resolveImports_resolves session.resolver source) sound⟩
  | changeFiles files =>
    exact ⟨[], .of_modules_eq sound (Registry.holds_nil _) rfl rfl ()⟩

theorem run_keeps (session : Session σ) (sound : session.resolution.registry.Sound)
    (calls : List (ResolverCall σ)) :
    (session.run calls).resolution.registry.Sound ∧
      (session.run calls).resolution.registry.Extends session.resolution.registry := by
  induction calls generalizing session with
  | nil => exact ⟨sound, .refl _⟩
  | cons call calls inductionHypothesis =>
    obtain ⟨_, settled⟩ := session.call_settles sound call
    obtain ⟨kept, extends_⟩ := inductionHypothesis (session.call call).2 settled.sound
    exact ⟨kept, extends_.trans settled.extends_⟩

/-- What one call registered is there after all later ones. -/
theorem run_holds (session : Session σ) (sound : session.resolution.registry.Sound)
    {source : SourceFile} (resolved : (session.call (.resolveImports source)).1 = .ok ())
    (later : List (ResolverCall σ)) :
    ((session.call (.resolveImports source)).2.run later).resolution.registry.Sound ∧
      ((session.call (.resolveImports source)).2.run later).resolution.registry.Holds
        (importedNames source) := by
  have settled := perform_settles (resolveImports_resolves session.resolver source) sound
  obtain ⟨kept, extends_⟩ := run_keeps _ settled.sound later
  exact ⟨kept, extends_.holds (settled.success () resolved)⟩

end Session

end PageCompiler
