import PageCompiler.Proofs.Resolution.Faithful

/-! # What ends a resolution

`Follows run step gives fails` says what a step of resolution does while the files answer as they
did when the resolution started: they still do afterwards, a faithful registry is still faithful, a
result is one that `gives` accepts and an error one that `fails` accepts. Followed through all
steps, an error is either a cycle of import directives that are in the files, or something stands in
the way that is not there when every file can be found, read and scanned.
-/

namespace PageCompiler

/-! ## Resolutions -/

/-- What a resolution starts from. -/
structure ResolutionStart where
  view : View
  resolver : Resolver
  matching : NameMatching
  /-- The names that are resolved. -/
  roots : List ModuleName
  /-- The source files that the names stand in. -/
  entries : List SourceFile
  /-- How deep imports can nest. -/
  depth : Nat
  /-- Whether the registry is faithful to the files. -/
  trusted : Prop

namespace ResolutionStart

/-- Resolving the imports of an entry file. -/
def ofImports (view : View) (resolver : Resolver) (matching : NameMatching) (entry : SourceFile)
    (trusted : Prop) : ResolutionStart where
  view := view
  resolver := resolver
  matching := matching
  roots := importedNames entry
  entries := [entry]
  depth := view.sizeBound + entry.text.byteSize + resolver.bindings.size
  trusted := trusted

/-- Resolving all bindings. -/
def ofBindings (view : View) (resolver : Resolver) (matching : NameMatching) (trusted : Prop) :
    ResolutionStart where
  view := view
  resolver := resolver
  matching := matching
  roots := resolver.bindings.values.map Prod.fst
  entries := []
  depth := view.sizeBound + resolver.bindings.size
  trusted := trusted

/-- Nothing but a cycle stands in the way of the resolution. -/
structure Clear (run : ResolutionStart) : Prop where
  trusted : run.trusted
  exact_ : run.matching = .exact
  deep : run.view.sizeBound + run.roots.length ≤ run.depth
  attaches : ∀ entry ∈ run.entries, ∀ segment ∈ entry.segments,
    run.view.CanAttach run.resolver entry.path segment
  loads : ∀ name, run.view.Reaches run.resolver run.roots name →
    ∃ source, run.view.Loads run.resolver name source
  attachesReached : ∀ name source, run.view.Reaches run.resolver run.roots name →
    run.view.Loads run.resolver name source →
    ∀ segment ∈ source.segments, run.view.CanAttach run.resolver source.path segment

end ResolutionStart

/-- Any error but the one for a cycle. -/
def BuildError.IsPlain (error : BuildError) : Prop :=
  ∀ chain : List Text, error ≠ .circularImport chain

/-- An error other than a cycle, where something is not the case that has to be. -/
structure BuildError.Lacks (needed : Prop) (error : BuildError) : Prop where
  plain : error.IsPlain
  lacking : ¬ needed

theorem BuildError.Lacks.imp {needed more : Prop} {error : BuildError}
    (lacks : error.Lacks needed) (needs : more → needed) : error.Lacks more :=
  ⟨lacks.plain, fun holds => lacks.lacking (needs holds)⟩

/-- What can end a resolution. -/
inductive ResolutionStart.Ends (run : ResolutionStart) : BuildError → Prop where
  | cycle {start : List ModuleName} {last : ModuleName}
      (cycle : run.view.ImportCycle run.resolver run.matching start last)
      (reached : ∀ name ∈ start, run.view.Reaches run.resolver run.roots name) :
      Ends run (.circularImport (cycleNames start last))
  | unregistered (name : Text) (path : Path) : Ends run (.unresolvedImport name path)
  | obstacle {error : BuildError} (lacks : error.Lacks run.Clear) : Ends run error

/-! ## Steps -/

section

variable {σ : Type} [FileSystem (StateM σ)]

structure ResolutionStart.Keeps (run : ResolutionStart) (registry : Registry) (files : σ) :
    Prop where
  view : FileSystem.view files = run.view
  matching : registry.matching = run.matching
  faithful : run.trusted → registry.Faithful run.view run.resolver

/-- The result that a step of resolution has come to. -/
structure ResolutionStart.Admits {α : Type} (run : ResolutionStart) (gives : α → Prop)
    (fails : BuildError → Prop) (result : (Except BuildError α × Resolution) × σ) : Prop where
  keeps : run.Keeps result.1.2.registry result.2
  success : ∀ value, result.1.1 = .ok value → gives value
  failure : ∀ error, result.1.1 = .error error → fails error

def Follows {α : Type} (run : ResolutionStart) (step : ResolveM (StateM σ) α) (gives : α → Prop)
    (fails : BuildError → Prop) : Prop :=
  ∀ (resolution : Resolution) (files : σ), run.Keeps resolution.registry files →
    run.Admits gives fails ((step.run.run resolution).run files)

namespace Follows

variable {α β : Type} {run : ResolutionStart} {gives : α → Prop} {between : β → Prop}
  {fails : BuildError → Prop}

theorem pure {value : α} (holds : gives value) :
    Follows run (Pure.pure value : ResolveM (StateM σ) α) gives fails := by
  intro resolution files kept
  refine ⟨kept, fun other same => ?_, fun _ failed => nomatch failed⟩
  cases same
  exact holds

theorem throw {error : BuildError} (holds : fails error) :
    Follows run (throw error : ResolveM (StateM σ) α) gives fails := by
  intro resolution files kept
  refine ⟨kept, (fun _ succeeded => nomatch succeeded), fun other same => ?_⟩
  cases same
  exact holds

theorem bind {first : ResolveM (StateM σ) β} {next : β → ResolveM (StateM σ) α}
    (before : Follows run first between fails)
    (after : ∀ value, between value → Follows run (next value) gives fails) :
    Follows run (first >>= next) gives fails := by
  intro resolution files kept
  have admitted := before resolution files kept
  rw [resolve_bind_run]
  generalize (first.run.run resolution).run files = result at admitted
  obtain ⟨⟨outcome, middle⟩, left⟩ := result
  cases outcome with
  | error error =>
    refine ⟨admitted.keeps, (fun _ succeeded => nomatch succeeded), fun other same => ?_⟩
    cases same
    exact admitted.failure error rfl
  | ok value => exact after value (admitted.success value rfl) middle left admitted.keeps

theorem imp {step : ResolveM (StateM σ) α} {gives' : α → Prop} {fails' : BuildError → Prop}
    (follows : Follows run step gives fails) (success : ∀ value, gives value → gives' value)
    (failure : ∀ error, fails error → fails' error) : Follows run step gives' fails' := by
  intro resolution files kept
  have admitted := follows resolution files kept
  exact ⟨admitted.keeps, fun value same => success value (admitted.success value same),
    fun error same => failure error (admitted.failure error same)⟩

theorem lift {action : StateM σ α} {question : ReaderM View α} (asks : Asks action question) :
    Follows run (liftM action : ResolveM (StateM σ) α) (fun value => value = question run.view)
      fails := by
  intro resolution files kept
  obtain ⟨answer, same⟩ := asks files
  refine ⟨⟨same.trans kept.view, kept.matching, kept.faithful⟩, fun value given => ?_,
    fun _ failed => nomatch failed⟩
  cases given
  rw [← kept.view]
  exact answer

theorem get_bind {next : Resolution → ResolveM (StateM σ) α}
    (steps : ∀ (resolution : Resolution) (files : σ), run.Keeps resolution.registry files →
      run.Admits gives fails (((next resolution).run.run resolution).run files)) :
    Follows run (get >>= next) gives fails :=
  steps

theorem modify {change : Resolution → Resolution}
    (keeps : ∀ (resolution : Resolution) (files : σ), run.Keeps resolution.registry files →
      run.Keeps (change resolution).registry files) :
    Follows run (modify change : ResolveM (StateM σ) PUnit) (fun _ => True) fails := by
  intro resolution files kept
  exact ⟨keeps resolution files kept, fun _ _ => trivial, fun _ failed => nomatch failed⟩

theorem forM {list : List β} {step : β → ResolveM (StateM σ) PUnit}
    (steps : ∀ element ∈ list, Follows run (step element) (fun _ => True) fails) :
    Follows run (list.forM step) (fun _ => True) fails := by
  induction list with
  | nil => exact pure trivial
  | cons element list inductionHypothesis =>
    refine (steps element List.mem_cons_self).bind fun _ _ => ?_
    exact inductionHypothesis fun other member => steps other (List.mem_cons_of_mem _ member)

end Follows

end

end PageCompiler
