import PageCompiler.Proofs.FileSystem.Observed
import PageCompiler.Proofs.Resolution.Modules

/-! # Resolving twice

Where names are compared as they are written, resolution sees the files through the paths that it
asks about: run on other files that answer alike for these paths, every step comes to the same
result and the same registry. The limit on nesting is the one exception, since it is made of the
size of all files, so two runs may differ in reaching it.
-/

namespace PageCompiler

/-! ## Steps -/

section

variable {α : Type}

/-- The step has ended at the limit on nesting. -/
def ReachesLimit (result : Except BuildError α × Resolution) : Prop :=
  ∃ name, result.1 = .error (.nestingLimit name)

/-- Two results are the same, or one of them is the limit on nesting. -/
def SameUnlessLimit (result other : Except BuildError α × Resolution) : Prop :=
  result = other ∨ ReachesLimit result ∨ ReachesLimit other

end

section

variable {σ τ : Type} [FileSystem (StateM σ)] [FileSystem (StateM τ)]

/-- A run that ends at the limit goes together with any other one that keeps its view. -/
theorem Repeats.limit_left {α : Type} {first second : View} {name : Text} {resolution : Resolution}
    {again : StateM τ (Except BuildError α × Resolution)}
    (keepsAgain : ∀ files, FileSystem.view files = second →
      FileSystem.view (again files).2 = second) :
    Repeats first second
      (Pure.pure (.error (.nestingLimit name), resolution) : StateM (Observed σ) _) again
      SameUnlessLimit :=
  ⟨fun _ kept => ⟨kept, List.Subset.refl _⟩, keepsAgain, fun _ _ _ _ _ => .inr (.inl ⟨name, rfl⟩)⟩

theorem Repeats.limit_right {α : Type} {first second : View} {name : Text} {resolution : Resolution}
    {action : StateM (Observed σ) (Except BuildError α × Resolution)}
    (keeps : ∀ observed, FileSystem.view observed.files = first →
      FileSystem.view (action observed).2.files = first ∧
        observed.asked ⊆ (action observed).2.asked) :
    Repeats first second action
      (Pure.pure (.error (.nestingLimit name), resolution) : StateM τ _) SameUnlessLimit :=
  ⟨keeps, fun _ kept => kept, fun _ _ _ _ _ => .inr (.inr ⟨name, rfl⟩)⟩

def StepRepeats {α : Type} (first second : View) (step : ResolveM (StateM (Observed σ)) α)
    (again : ResolveM (StateM τ) α) : Prop :=
  ∀ resolution : Resolution,
    Repeats first second (step.run.run resolution) (again.run.run resolution) SameUnlessLimit

namespace StepRepeats

variable {α β : Type} {first second : View}

theorem pure (value : α) :
    StepRepeats first second (Pure.pure value : ResolveM (StateM (Observed σ)) α)
      (Pure.pure value : ResolveM (StateM τ) α) :=
  fun _ => .pure (.inl rfl)

theorem throw (error : BuildError) :
    StepRepeats first second (throw error : ResolveM (StateM (Observed σ)) α)
      (throw error : ResolveM (StateM τ) α) :=
  fun _ => .pure (.inl rfl)

theorem bind {step : ResolveM (StateM (Observed σ)) β} {again : ResolveM (StateM τ) β}
    {next : β → ResolveM (StateM (Observed σ)) α} {nextAgain : β → ResolveM (StateM τ) α}
    (before : StepRepeats first second step again)
    (after : ∀ value, StepRepeats first second (next value) (nextAgain value)) :
    StepRepeats first second (step >>= next) (again >>= nextAgain) := by
  intro resolution
  simp only [ExceptT.run_bind, StateT.run_bind]
  refine (before resolution).bind (fun _ => .inl rfl) ?_
  rintro ⟨outcome, middle⟩ ⟨otherOutcome, otherMiddle⟩ related
  -- Where one run has ended at the limit, the other one may go on, but keeps its view.
  rcases related with same | ⟨name, ended⟩ | ⟨name, ended⟩
  · cases same
    cases outcome with
    | ok value => exact after value middle
    | error error => exact .pure (.inl rfl)
  · cases ended
    cases otherOutcome with
    | ok value => exact .limit_left (after value otherMiddle).keepsAgain
    | error error => exact .pure (.inr (.inl ⟨name, rfl⟩))
  · cases ended
    cases outcome with
    | ok value => exact .limit_right (after value middle).keeps
    | error error => exact .pure (.inr (.inr ⟨name, rfl⟩))

theorem get_bind {next : Resolution → ResolveM (StateM (Observed σ)) α}
    {nextAgain : Resolution → ResolveM (StateM τ) α}
    (steps : ∀ resolution, Repeats first second ((next resolution).run.run resolution)
      ((nextAgain resolution).run.run resolution) SameUnlessLimit) :
    StepRepeats first second (get >>= next) (get >>= nextAgain) :=
  steps

theorem modify (change : Resolution → Resolution) :
    StepRepeats first second (modify change : ResolveM (StateM (Observed σ)) PUnit)
      (modify change : ResolveM (StateM τ) PUnit) :=
  fun _ => .pure (.inl rfl)

theorem lift_bind {action : StateM (Observed σ) β} {again : StateM τ β} {between : β → β → Prop}
    (repeats : Repeats first second action again between)
    (reflexive : ∀ value, between value value)
    {next : β → ResolveM (StateM (Observed σ)) α} {nextAgain : β → ResolveM (StateM τ) α}
    (after : ∀ value other, between value other →
      StepRepeats first second (next value) (nextAgain other)) :
    StepRepeats first second (liftM action >>= next) (liftM again >>= nextAgain) :=
  fun resolution => repeats.bind reflexive fun value other related =>
    after value other related resolution

theorem forM {list : List β} {step : β → ResolveM (StateM (Observed σ)) PUnit}
    {again : β → ResolveM (StateM τ) PUnit}
    (steps : ∀ element ∈ list, StepRepeats first second (step element) (again element)) :
    StepRepeats first second (list.forM step) (list.forM again) := by
  induction list with
  | nil => exact pure _
  | cons element list inductionHypothesis =>
    refine (steps element List.mem_cons_self).bind fun _ => ?_
    exact inductionHypothesis fun other member => steps other (List.mem_cons_of_mem _ member)

end StepRepeats

/-! ## Operations -/

variable {first second : View}

theorem registerSource_repeats (name : ModuleName) (source : SourceFile) :
    StepRepeats first second (registerSource name source : ResolveM (StateM (Observed σ)) Unit)
      (registerSource name source : ResolveM (StateM τ) Unit) := by
  refine .get_bind fun resolution => ?_
  dsimp only
  split
  · exact .pure (.inl rfl)
  · exact .pure (.inl rfl)

theorem unlessMet_repeats (chain : List ModuleName) (name : ModuleName)
    {rest : ResolveM (StateM (Observed σ)) Unit} {restAgain : ResolveM (StateM τ) Unit}
    (repeats : StepRepeats first second rest restAgain) :
    StepRepeats first second (do
      let registry := (← get).registry
      if registry.contains name then return
      match chainFrom? registry.matching chain (registry.keyOf name) with
      | some start => throw (.circularImport (cycleNames start name))
      | none => rest) (do
      let registry := (← get).registry
      if registry.contains name then return
      match chainFrom? registry.matching chain (registry.keyOf name) with
      | some start => throw (.circularImport (cycleNames start name))
      | none => restAgain) := by
  refine .get_bind fun resolution => ?_
  dsimp only
  split
  · exact .pure (.inl rfl)
  · split
    · exact .pure (.inl rfl)
    · exact repeats resolution

variable [LawfulFileSystem σ] [LawfulFileSystem τ]

theorem readText_repeats (path : Path) :
    StepRepeats first second (readText path : ResolveM (StateM (Observed σ)) Text)
      (readText path : ResolveM (StateM τ) Text) := by
  refine .lift_bind (Repeats.readText path) (fun _ => rfl) ?_
  rintro outcome _ rfl
  cases outcome with
  | ok text => exact .pure text
  | error error => exact .throw _

theorem readSource_repeats (path : Path) :
    StepRepeats first second (readSource path : ResolveM (StateM (Observed σ)) SourceFile)
      (readSource path : ResolveM (StateM τ) SourceFile) := by
  refine (readText_repeats path).bind fun text => ?_
  cases SourceFile.scan path text with
  | ok source => exact .pure source
  | error error => exact .throw _

theorem attachFile_repeats (resolver : Resolver) (origin : Origin) (path : Path)
    (kind : Section) :
    StepRepeats first second
      (attachFile resolver origin path kind : ResolveM (StateM (Observed σ)) Unit)
      (attachFile resolver origin path kind : ResolveM (StateM τ) Unit) := by
  refine .get_bind fun resolution => ?_
  cases resolution.registry.link? origin.path path with
  | some linked => exact .pure (.inl rfl)
  | none =>
    refine StepRepeats.bind (readText_repeats path) (fun text => ?_) resolution
    split
    · exact .pure _
    · exact .modify _

/-- The limit may be different in the two runs. -/
theorem nestingBound_bind_repeats {α : Type} (resolver : Resolver) (text : Text)
    {next : Nat → ResolveM (StateM (Observed σ)) α} {nextAgain : Nat → ResolveM (StateM τ) α}
    (after : ∀ depth other, StepRepeats first second (next depth) (nextAgain other)) :
    StepRepeats first second (nestingBound resolver text >>= next)
      (nestingBound resolver text >>= nextAgain) := by
  simp only [nestingBound, bind_assoc, pure_bind]
  exact .lift_bind Repeats.sizeBound (fun _ => trivial) fun _ _ _ => after _ _

variable {resolver : Resolver} (exact_ : resolver.policy.matching = .exact)

include exact_

theorem locateIn_repeats (origin : Origin) (wanted : Text) (directories : List Path)
    (relative : Path) :
    StepRepeats first second
      (locateIn resolver origin wanted directories relative :
        ResolveM (StateM (Observed σ)) Path)
      (locateIn resolver origin wanted directories relative : ResolveM (StateM τ) Path) := by
  rw [locateIn, locateIn, exact_]
  refine .lift_bind (Repeats.findFirst relative directories) (fun _ => rfl) ?_
  rintro found _ rfl
  cases found with
  | some path => exact .pure path
  | none => exact .throw _

theorem locateInclude_repeats (origin : Origin) (text : Text) :
    StepRepeats first second
      (locateInclude resolver origin text : ResolveM (StateM (Observed σ)) Path)
      (locateInclude resolver origin text : ResolveM (StateM τ) Path) := by
  rw [locateInclude, locateInclude]
  split
  · refine .lift_bind (Repeats.isFile _) (fun _ => rfl) ?_
    rintro present _ rfl
    split
    · exact .pure _
    · exact .throw _
  · exact locateIn_repeats exact_ _ _ _ _

theorem locateModule_repeats (origin : Origin) (name : ModuleName) :
    StepRepeats first second
      (locateModule resolver origin name : ResolveM (StateM (Observed σ)) Path)
      (locateModule resolver origin name : ResolveM (StateM τ) Path) := by
  rw [locateModule, locateModule]
  split
  · exact .pure _
  · exact locateIn_repeats exact_ _ _ _ _

section

variable {importing : Origin → ModuleName → ResolveM (StateM (Observed σ)) Unit}
  {importingAgain : Origin → ModuleName → ResolveM (StateM τ) Unit}
  (imports : ∀ origin name,
    StepRepeats first second (importing origin name) (importingAgain origin name))

include imports

theorem resolveSegment_repeats (source : SourceFile) (segment : Segment) :
    StepRepeats first second (resolveSegment resolver importing source segment)
      (resolveSegment resolver importingAgain source segment) := by
  rw [resolveSegment, resolveSegment]
  cases segment.content with
  | script _ => exact .pure _
  | block _ _ => exact .pure _
  | directive directive =>
    cases directive with
    | importModule name => exact imports _ name
    | exportNames _ => exact .pure _
    | includeFile text =>
      exact (locateInclude_repeats exact_ _ text).bind fun path =>
        attachFile_repeats resolver _ path _
    | includeStylesheet name =>
      exact (locateIn_repeats exact_ _ _ _ _).bind fun path =>
        attachFile_repeats resolver _ path _

theorem segments_repeat (source : SourceFile) :
    StepRepeats first second (source.segments.forM (resolveSegment resolver importing source))
      (source.segments.forM (resolveSegment resolver importingAgain source)) :=
  .forM fun segment _ => resolveSegment_repeats exact_ imports source segment

/-- What follows once the file of a module has been found. -/
theorem loadModule_repeats (name : ModuleName) (path : Path) :
    StepRepeats first second (do
      let source ← readSource path
      modify fun resolution => { resolution with scans := resolution.scans + 1 }
      source.segments.forM (resolveSegment resolver importing source)
      registerSource name source) (do
      let source ← readSource path
      modify fun resolution => { resolution with scans := resolution.scans + 1 }
      source.segments.forM (resolveSegment resolver importingAgain source)
      registerSource name source) := by
  refine (readSource_repeats path).bind fun source => ?_
  refine StepRepeats.bind (.modify _) fun _ => ?_
  exact (segments_repeat exact_ imports source).bind fun _ => registerSource_repeats name source

end

/-- The depth of nesting that is left matters for the limit alone. -/
theorem resolveModule_repeats (depth other : Nat) (chain : List ModuleName) (origin : Origin)
    (name : ModuleName) :
    StepRepeats first second
      (resolveModule resolver depth chain origin name : ResolveM (StateM (Observed σ)) Unit)
      (resolveModule resolver other chain origin name : ResolveM (StateM τ) Unit) := by
  suffices bounded : ∀ bound depth other, depth ≤ bound → other ≤ bound → ∀ chain origin name,
      StepRepeats first second
        (resolveModule resolver depth chain origin name : ResolveM (StateM (Observed σ)) Unit)
        (resolveModule resolver other chain origin name : ResolveM (StateM τ) Unit) from
    bounded (max depth other) depth other (Nat.le_max_left _ _) (Nat.le_max_right _ _) chain
      origin name
  intro bound
  -- One bound for both depths, so that the run that goes on can be compared with itself.
  induction bound with
  | zero =>
    intro depth other small smallToo chain origin name
    obtain rfl := Nat.le_zero.mp small
    obtain rfl := Nat.le_zero.mp smallToo
    rw [resolveModule, resolveModule]
    exact unlessMet_repeats chain name
      ((locateModule_repeats exact_ origin name).bind fun _ => .throw _)
  | succ bound inductionHypothesis =>
    intro depth other small smallToo chain origin name
    have loads (depth other : Nat) (small : depth ≤ bound) (smallToo : other ≤ bound)
        (path : Path) := loadModule_repeats exact_ (inductionHypothesis depth other small smallToo
          (chain ++ [name])) name path
    cases depth with
    | zero =>
      cases other with
      | zero =>
        rw [resolveModule, resolveModule]
        exact unlessMet_repeats chain name
          ((locateModule_repeats exact_ origin name).bind fun _ => .throw _)
      | succ other =>
        rw [resolveModule, resolveModule]
        refine unlessMet_repeats chain name ((locateModule_repeats exact_ origin name).bind
          fun path resolution => .limit_left ?_)
        have smaller := Nat.le_of_succ_le_succ smallToo
        exact (loads other other smaller smaller path resolution).keepsAgain
    | succ depth =>
      have smaller := Nat.le_of_succ_le_succ small
      cases other with
      | zero =>
        rw [resolveModule, resolveModule]
        refine unlessMet_repeats chain name ((locateModule_repeats exact_ origin name).bind
          fun path resolution => .limit_right ?_)
        exact (loads depth depth smaller smaller path resolution).keeps
      | succ other =>
        rw [resolveModule, resolveModule]
        refine unlessMet_repeats chain name ((locateModule_repeats exact_ origin name).bind
          fun path => ?_)
        exact loads depth other smaller (Nat.le_of_succ_le_succ smallToo) path

/-! ## Calls -/

theorem resolveImports_repeats (source : SourceFile) :
    StepRepeats first second
      (resolveImports resolver source : ResolveM (StateM (Observed σ)) Unit)
      (resolveImports resolver source : ResolveM (StateM τ) Unit) :=
  nestingBound_bind_repeats resolver source.text fun depth other =>
    segments_repeat exact_ (resolveModule_repeats exact_ depth other []) source

theorem loadBindings_repeats :
    StepRepeats first second (loadBindings resolver : ResolveM (StateM (Observed σ)) Unit)
      (loadBindings resolver : ResolveM (StateM τ) Unit) :=
  nestingBound_bind_repeats resolver [] fun depth other =>
    .forM fun _ _ => resolveModule_repeats exact_ depth other [] _ _

end

end PageCompiler
