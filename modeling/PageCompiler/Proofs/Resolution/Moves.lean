import PageCompiler.Proofs.Resolution.Faithful

/-! # What resolution does to a registry

Resolution changes a registry in three ways only: it notes that a file pulls in an attachment, it
stores an attachment that it has read, and it registers a module that it has compiled. `View.Moves`
says when it does so, and `Develops` that a step of resolution is a sequence of such moves, which
leaves the files alone. Whatever the moves keep, resolution keeps. The same walk through all steps
shows that no chain of imports is too long for the limit on nesting.
-/

namespace PageCompiler

/-! ## Moves -/

/-- One change of a registry, while the files give the answers of a view. -/
inductive View.Moves (seen : View) (resolver : Resolver) : Registry → Registry → Prop where
  | link {before after : Registry} {source path : Path}
      (links : before.link? source path = some after) : Moves seen resolver before after
  | attach {before : Registry} {path : Path} {text : Text} (read : seen.readText path = .ok text)
      (shown : resolver.excludes text = false) (source : Path) (kind : Section) :
      Moves seen resolver before (before.attach source ⟨path, kind, text⟩)
  | register {before after : Registry} {name : ModuleName} {source : SourceFile}
      {compiled stored : CompiledModule} (loads : seen.Loads resolver name source)
      (compiles : compileModule before name source = .ok compiled)
      (registered : before.register compiled = .ok (stored, after)) :
      Moves seen resolver before after

/-- Any number of changes. -/
abbrev View.MovesTo (seen : View) (resolver : Resolver) : Registry → Registry → Prop :=
  Relation.ReflTransGen (seen.Moves resolver)

theorem View.Moves.matching_eq {seen : View} {resolver : Resolver} {before after : Registry}
    (moves : seen.Moves resolver before after) : after.matching = before.matching := by
  cases moves with
  | link links => exact (Registry.link?_modules links).1
  | attach _ _ source kind => exact (before.attach_modules source _).1
  | register _ _ registered => exact Registry.register_matching registered

/-- What no single change destroys, no number of changes does. -/
theorem View.MovesTo.keeps {seen : View} {resolver : Resolver} {holds : Registry → Prop}
    (keeps : ∀ before after, seen.Moves resolver before after → holds before → holds after)
    {before after : Registry} (moves : seen.MovesTo resolver before after) (start : holds before) :
    holds after := by
  induction moves with
  | refl => exact start
  | tail _ move inductionHypothesis => exact keeps _ _ move inductionHypothesis

theorem View.MovesTo.matching_eq {seen : View} {resolver : Resolver} {before after : Registry}
    (moves : seen.MovesTo resolver before after) : after.matching = before.matching :=
  @keeps seen resolver (fun registry => registry.matching = before.matching)
    (fun _ _ move same => move.matching_eq.trans same) _ _ moves rfl

/-! ## Faithful registries -/

section

variable {seen : View} {resolver : Resolver}

theorem View.Moves.faithful {before after : Registry} (moves : seen.Moves resolver before after)
    (faithful : before.Faithful seen resolver) : after.Faithful seen resolver := by
  cases moves with
  | link links => exact faithful.link? links
  | attach _ _ source kind => exact faithful.attach source _
  | register loads compiles registered => exact faithful.register loads compiles registered

theorem View.MovesTo.faithful {matching : NameMatching} {registry : Registry}
    (moves : seen.MovesTo resolver (.empty matching) registry) :
    registry.Faithful seen resolver :=
  moves.keeps (fun _ _ move => move.faithful) (Registry.faithful_empty matching)

end

/-! ## Steps -/

/-- Any error but the one for imports that nest too deeply. -/
def BuildError.IsWithinLimit (error : BuildError) : Prop :=
  ∀ name : Text, error ≠ .nestingLimit name

/-- What is fixed while a resolution runs: which states the files can be in, what they answer, what
resolution goes by and how names are compared. -/
structure Surroundings (σ : Type) where
  kept : σ → Prop
  seen : View
  resolver : Resolver
  matching : NameMatching

section

variable {σ : Type}

structure Surroundings.Allows {α : Type} (around : Surroundings σ) (before : Registry)
    (gives : α → Prop) (result : (Except BuildError α × Resolution) × σ) : Prop where
  kept : around.kept result.2
  moves : around.seen.MovesTo around.resolver before result.1.2.registry
  success : ∀ value, result.1.1 = .ok value → gives value
  failure : ∀ error, result.1.1 = .error error → error.IsWithinLimit

/-- A step changes the registry by moves alone, and ends with a value that `gives` accepts or with
an error other than the limit on nesting. -/
def Develops {α : Type} (around : Surroundings σ) (step : ResolveM (StateM σ) α)
    (gives : α → Prop) : Prop :=
  ∀ (resolution : Resolution) (files : σ), resolution.registry.matching = around.matching →
    around.kept files →
    around.Allows resolution.registry gives ((step.run.run resolution).run files)

namespace Develops

variable {α β : Type} {around : Surroundings σ} {gives : α → Prop} {between : β → Prop}

theorem pure {value : α} (holds : gives value) :
    Develops around (Pure.pure value : ResolveM (StateM σ) α) gives := by
  intro resolution files _ kept
  refine ⟨kept, .refl, fun other same => ?_, fun _ failed => nomatch failed⟩
  cases same
  exact holds

theorem throw {error : BuildError} (within : error.IsWithinLimit) :
    Develops around (throw error : ResolveM (StateM σ) α) gives := by
  intro resolution files _ kept
  refine ⟨kept, .refl, (fun _ succeeded => nomatch succeeded), fun other same => ?_⟩
  cases same
  exact within

theorem bind {first : ResolveM (StateM σ) β} {next : β → ResolveM (StateM σ) α}
    (before : Develops around first between)
    (after : ∀ value, between value → Develops around (next value) gives) :
    Develops around (first >>= next) gives := by
  intro resolution files matching kept
  have allowed := before resolution files matching kept
  rw [resolve_bind_run]
  generalize (first.run.run resolution).run files = result at allowed
  obtain ⟨⟨outcome, middle⟩, left⟩ := result
  cases outcome with
  | error error =>
    refine ⟨allowed.kept, allowed.moves, (fun _ succeeded => nomatch succeeded),
      fun other same => ?_⟩
    cases same
    exact allowed.failure error rfl
  | ok value =>
    have reached := after value (allowed.success value rfl) middle left
      (allowed.moves.matching_eq.trans matching) allowed.kept
    exact ⟨reached.kept, allowed.moves.trans reached.moves, reached.success, reached.failure⟩

theorem imp {step : ResolveM (StateM σ) α} {gives' : α → Prop}
    (develops : Develops around step gives) (success : ∀ value, gives value → gives' value) :
    Develops around step gives' := by
  intro resolution files matching kept
  obtain ⟨keptThen, moves, gave, failure⟩ := develops resolution files matching kept
  exact ⟨keptThen, moves, fun value same => success value (gave value same), failure⟩

theorem lift {action : StateM σ α} {question : ReaderM View α}
    (asks : AsksWithin around.kept around.seen action question) :
    Develops around (liftM action : ResolveM (StateM σ) α)
      (fun value => value = question around.seen) := by
  intro resolution files _ kept
  obtain ⟨answer, keptThen⟩ := asks files kept
  refine ⟨keptThen, .refl, fun value given => ?_, fun _ failed => nomatch failed⟩
  cases given
  exact answer

theorem get_bind {next : Resolution → ResolveM (StateM σ) α}
    (steps : ∀ (resolution : Resolution) (files : σ),
      resolution.registry.matching = around.matching → around.kept files →
      around.Allows resolution.registry gives (((next resolution).run.run resolution).run files)) :
    Develops around (get >>= next) gives :=
  steps

theorem modify {change : Resolution → Resolution}
    (moves : ∀ resolution, around.seen.MovesTo around.resolver resolution.registry
      (change resolution).registry) :
    Develops around (modify change : ResolveM (StateM σ) PUnit) (fun _ => True) :=
  fun resolution _ _ kept =>
    ⟨kept, moves resolution, fun _ _ => trivial, fun _ failed => nomatch failed⟩

theorem forM {list : List β} {step : β → ResolveM (StateM σ) PUnit}
    (steps : ∀ element ∈ list, Develops around (step element) (fun _ => True)) :
    Develops around (list.forM step) (fun _ => True) := by
  induction list with
  | nil => exact pure trivial
  | cons element list inductionHypothesis =>
    refine (steps element List.mem_cons_self).bind fun _ _ => ?_
    exact inductionHypothesis fun other member => steps other (List.mem_cons_of_mem _ member)

end Develops

/-! ## Registering -/

variable {around : Surroundings σ}

theorem registerSource_develops {name : ModuleName} {source : SourceFile}
    (loads : around.seen.Loads around.resolver name source) :
    Develops around (registerSource name source : ResolveM (StateM σ) Unit) (fun _ => True) := by
  refine .get_bind fun resolution files matching kept => ?_
  dsimp only
  cases compiles : compileModule resolution.registry name source with
  | error error =>
    obtain ⟨imported, importer, rfl⟩ := compileModule_error compiles
    exact Develops.throw (fun _ => BuildError.noConfusion) resolution files matching kept
  | ok compiled =>
    have registering : (.ok compiled >>= resolution.registry.register) =
        resolution.registry.register compiled := rfl
    rw [registering]
    cases registered : resolution.registry.register compiled with
    | error error =>
      obtain ⟨_, _, _, rfl⟩ := Registry.register_error registered
      exact Develops.throw (fun _ => BuildError.noConfusion) resolution files matching kept
    | ok result =>
      obtain ⟨stored, after⟩ := result
      exact ⟨kept, .single (.register loads compiles registered), fun _ _ => trivial,
        fun _ failed => nomatch failed⟩

end

end PageCompiler
