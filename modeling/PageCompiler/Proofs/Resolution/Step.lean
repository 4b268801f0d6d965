import PageCompiler.Proofs.Registry.Dependencies
import PageCompiler.Resolution.Resolve

/-! # Steps of resolution

`Resolves needed step gained` says what every step of resolution does, whatever the files are: from
a sound registry that holds the names `needed` it comes to a sound registry that keeps all modules.
If the step succeeds, the names `gained` are registered after it; if it fails, then for another
reason than an import that is not registered.
-/

namespace PageCompiler

/-- Any error but the one for an import that is not registered. -/
def BuildError.IsExpected (error : BuildError) : Prop :=
  ∀ (name : Text) (path : Path), error ≠ .unresolvedImport name path

structure Registry.Settles {α : Type} (before : Registry) (gained : List ModuleName)
    (result : Except BuildError α × Resolution) : Prop where
  sound : result.2.registry.Sound
  extends_ : result.2.registry.Extends before
  success : ∀ value, result.1 = .ok value → result.2.registry.Holds gained
  failure : ∀ error, result.1 = .error error → error.IsExpected

theorem Registry.Settles.of_modules_eq {α : Type} {before : Registry} {gained : List ModuleName}
    {after : Resolution} (sound : before.Sound) (held : before.Holds gained)
    (matching : after.registry.matching = before.matching)
    (modules : after.registry.modules = before.modules) (value : α) :
    before.Settles gained (.ok value, after) := by
  have extends_ : after.registry.Extends before :=
    ⟨matching, fun key compiled found => by rwa [modules]⟩
  refine ⟨sound.congr matching modules, extends_, fun _ _ => extends_.holds held,
    fun _ failed => ?_⟩
  cases failed

/-- After an error the next step is not run. -/
theorem resolve_bind_run {σ α β : Type} (first : ResolveM (StateM σ) α)
    (next : α → ResolveM (StateM σ) β) (resolution : Resolution) (files : σ) :
    ((first >>= next).run.run resolution).run files =
      match (first.run.run resolution).run files with
      | ((.ok value, middle), files) => ((next value).run.run middle).run files
      | ((.error error, middle), files) => ((.error error, middle), files) := by
  simp only [ExceptT.run_bind, StateT.run_bind]
  rcases (first.run.run resolution).run files with ⟨⟨outcome | value, middle⟩, left⟩ <;> rfl

theorem get_bind_run {σ α : Type} (next : Resolution → ResolveM (StateM σ) α)
    (resolution : Resolution) (files : σ) :
    ((get >>= next).run.run resolution).run files =
      ((next resolution).run.run resolution).run files :=
  rfl

def Resolves {σ α : Type} (needed : List ModuleName) (step : ResolveM (StateM σ) α)
    (gained : List ModuleName) : Prop :=
  ∀ (resolution : Resolution) (files : σ), resolution.registry.Sound →
    resolution.registry.Holds needed →
    resolution.registry.Settles gained ((step.run.run resolution).run files).1

namespace Resolves

variable {σ α β : Type} {needed gained : List ModuleName}

theorem pure (value : α) (known : gained ⊆ needed) :
    Resolves needed (Pure.pure value : ResolveM (StateM σ) α) gained := by
  intro resolution files sound held
  refine ⟨sound, .refl _, fun _ _ name member => held name (known member), fun _ failed => ?_⟩
  cases failed

theorem throw {error : BuildError} (expected : error.IsExpected) :
    Resolves needed (throw error : ResolveM (StateM σ) α) gained := by
  intro resolution files sound _
  refine ⟨sound, .refl _, fun _ succeeded => ?_, fun _ failed => ?_⟩
  · cases succeeded
  · cases failed
    exact expected

theorem bind {between : List ModuleName} {first : ResolveM (StateM σ) α}
    {next : α → ResolveM (StateM σ) β} (before : Resolves needed first between)
    (after : ∀ value, Resolves between (next value) gained) :
    Resolves needed (first >>= next) gained := by
  intro resolution files sound held
  have settled := before resolution files sound held
  rw [resolve_bind_run]
  generalize (first.run.run resolution).run files = result at settled
  obtain ⟨⟨outcome, middle⟩, left⟩ := result
  cases outcome with
  | error error =>
    -- The step ends here and keeps what it reached.
    refine ⟨settled.sound, settled.extends_, fun _ succeeded => ?_, fun _ failed => ?_⟩
    · cases succeeded
    · cases failed
      exact settled.failure error rfl
  | ok value =>
    have reached := after value middle left settled.sound (settled.success value rfl)
    exact ⟨reached.sound, reached.extends_.trans settled.extends_, reached.success,
      reached.failure⟩

theorem weaken {more fewer : List ModuleName} {step : ResolveM (StateM σ) α}
    (resolves : Resolves needed step gained) (known : needed ⊆ more) (asked : fewer ⊆ gained) :
    Resolves more step fewer := by
  intro resolution files sound held
  have settled := resolves resolution files sound fun name member => held name (known member)
  exact ⟨settled.sound, settled.extends_,
    fun value succeeded name member => settled.success value succeeded name (asked member),
    settled.failure⟩

/-- Registered names stay registered. -/
theorem frame {step : ResolveM (StateM σ) α} (resolves : Resolves needed step gained)
    (kept : List ModuleName) : Resolves (kept ++ needed) step (kept ++ gained) := by
  intro resolution files sound held
  have settled := resolves resolution files sound fun name member =>
    held name (List.mem_append_right _ member)
  refine ⟨settled.sound, settled.extends_, fun value succeeded name member => ?_,
    settled.failure⟩
  rcases List.mem_append.mp member with old | new
  · exact settled.extends_.contains (held name (List.mem_append_left _ old))
  · exact settled.success value succeeded name new

theorem forM {list : List β} {step : β → ResolveM (StateM σ) PUnit} {gains : β → List ModuleName}
    (steps : ∀ element ∈ list, Resolves [] (step element) (gains element)) :
    Resolves [] (list.forM step) (list.flatMap gains) := by
  induction list with
  | nil => exact pure _ (List.Subset.refl _)
  | cons element list inductionHypothesis =>
    refine bind (steps element List.mem_cons_self) fun _ => ?_
    have others := inductionHypothesis fun other member =>
      steps other (List.mem_cons_of_mem _ member)
    have framed := others.frame (gains element)
    rwa [List.append_nil] at framed

theorem lift (action : StateM σ α) :
    Resolves needed (liftM action : ResolveM (StateM σ) α) needed := by
  intro resolution files sound held
  refine ⟨sound, .refl _, fun _ _ => held, fun _ failed => ?_⟩
  cases failed

theorem get_bind {next : Resolution → ResolveM (StateM σ) α}
    (steps : ∀ (resolution : Resolution) (files : σ), resolution.registry.Sound →
      resolution.registry.Holds needed → resolution.registry.Settles gained
        (((next resolution).run.run resolution).run files).1) :
    Resolves needed (get >>= next) gained :=
  steps

theorem modify {change : Resolution → Resolution}
    (matching : ∀ resolution, (change resolution).registry.matching = resolution.registry.matching)
    (modules : ∀ resolution, (change resolution).registry.modules = resolution.registry.modules) :
    Resolves needed (modify change : ResolveM (StateM σ) PUnit) needed :=
  fun resolution _ sound held =>
    .of_modules_eq sound held (matching resolution) (modules resolution) _

end Resolves

/-- The steps that resolve an entry file: the bindings first, then what the file asks for. -/
def resolutionSteps {m : Type → Type} [Monad m] [FileSystem m] (resolver : Resolver)
    (source : SourceFile) : ResolveM m Unit := do
  loadBindings resolver
  resolveImports resolver source

end PageCompiler
