import PageCompiler.Proofs.Resolution.Mirroring

/-! # Resolving with further roots

Directories are searched one after the other, so the ones behind the first that has a file are not
asked. `CarriesOver step further` says that whenever the first step succeeds, the second one does
the same. It holds of every step of resolution and the same step with more roots behind the others;
a search that fails is the only thing that further roots can change.
-/

namespace PageCompiler

variable {σ : Type}

/-! ## Searching -/

section

variable [FileSystem (StateM σ)]

/-- The other directories are searched only if the first one does not have the file. -/
theorem findFirst_run (matching : NameMatching) (relative directory : Path) (others : List Path)
    (files : σ) :
    (findFirst matching relative (directory :: others) : StateM σ (Option Path)).run files =
      match (findIn matching relative directory : StateM σ (Option Path)).run files with
      | (some path, left) => (some path, left)
      | (none, left) => (findFirst matching relative others : StateM σ (Option Path)).run left := by
  rw [findFirst, StateT.run_bind]
  rcases (findIn matching relative directory : StateM σ (Option Path)).run files with
    ⟨found | path, left⟩ <;> rfl

/-- A file that is found is found again if there are more directories behind the others. -/
theorem findFirst_append_run {matching : NameMatching} {relative : Path} {directories : List Path}
    {files left : σ} {path : Path}
    (found : (findFirst matching relative directories : StateM σ (Option Path)).run files =
      (some path, left)) (further : List Path) :
    (findFirst matching relative (directories ++ further) : StateM σ (Option Path)).run files =
      (some path, left) := by
  induction directories generalizing files with
  | nil => cases found
  | cons directory others inductionHypothesis =>
    rw [findFirst_run] at found
    rw [List.cons_append, findFirst_run]
    generalize (findIn matching relative directory : StateM σ (Option Path)).run files =
      outcome at found ⊢
    obtain ⟨missing | here, middle⟩ := outcome
    · exact inductionHypothesis found
    · exact found

end

/-! ## Steps -/

/-- Whenever the first step succeeds, the second one ends with the same value, the same registry,
the same number of scans and the same files. -/
def CarriesOver {α : Type} (step further : ResolveM (StateM σ) α) : Prop :=
  Mirrors Eq step further

namespace CarriesOver

variable {α β : Type} {step further : ResolveM (StateM σ) α}

theorem of_run (runs : ∀ (resolution after : Resolution) (files left : σ) (value : α),
    (step.run.run resolution).run files = ((.ok value, after), left) →
      (further.run.run resolution).run files = ((.ok value, after), left)) :
    CarriesOver step further := by
  rintro resolution _ rfl after files left value succeeds
  exact ⟨after, runs resolution after files left value succeeds, rfl⟩

theorem run (carries : CarriesOver step further) {resolution after : Resolution} {files left : σ}
    {value : α} (succeeds : (step.run.run resolution).run files = ((.ok value, after), left)) :
    (further.run.run resolution).run files = ((.ok value, after), left) := by
  obtain ⟨_, succeedsToo, rfl⟩ := carries resolution resolution rfl after files left value succeeds
  exact succeedsToo

theorem refl (step : ResolveM (StateM σ) α) : CarriesOver step step :=
  of_run fun _ _ _ _ _ => id

theorem bind {first furtherFirst : ResolveM (StateM σ) β}
    {next furtherNext : β → ResolveM (StateM σ) α} (before : CarriesOver first furtherFirst)
    (behind : ∀ value, CarriesOver (next value) (furtherNext value)) :
    CarriesOver (first >>= next) (furtherFirst >>= furtherNext) :=
  Mirrors.bind before behind

theorem get_bind {next furtherNext : Resolution → ResolveM (StateM σ) α}
    (steps : ∀ resolution, CarriesOver (next resolution) (furtherNext resolution)) :
    CarriesOver (get >>= next) (get >>= furtherNext) := by
  refine Mirrors.get_bind ?_
  rintro resolution _ rfl
  exact steps resolution

theorem lift_bind {action further : StateM σ β} {next furtherNext : β → ResolveM (StateM σ) α}
    (steps : ∀ (resolution after : Resolution) (files left : σ) (value : α),
      ((next (action.run files).1).run.run resolution).run (action.run files).2 =
        ((.ok value, after), left) →
      ((furtherNext (further.run files).1).run.run resolution).run (further.run files).2 =
        ((.ok value, after), left)) :
    CarriesOver (liftM action >>= next) (liftM further >>= furtherNext) :=
  of_run steps

theorem forM {list : List β} {step further : β → ResolveM (StateM σ) PUnit}
    (steps : ∀ element, CarriesOver (step element) (further element)) :
    CarriesOver (list.forM step) (list.forM further) :=
  Mirrors.forM (List.forall₂_same.mpr fun element _ => steps element)

end CarriesOver

/-! ## Operations -/

/-- The settings with more roots, searched after the others. -/
def Resolver.withRoots (resolver : Resolver) (further : List Path) : Resolver :=
  { resolver with roots := resolver.roots ++ further }

variable [FileSystem (StateM σ)] (resolver : Resolver) (further : List Path)

theorem locateIn_carriesOver (origin : Origin) (wanted : Text) (directories : List Path)
    (relative : Path) :
    CarriesOver
      (locateIn resolver origin wanted directories relative : ResolveM (StateM σ) Path)
      (locateIn (resolver.withRoots further) origin wanted (directories ++ further) relative) := by
  refine .lift_bind fun resolution after files left value succeeds => ?_
  rcases found : (findFirst resolver.policy.matching relative directories :
    StateM σ (Option Path)).run files with ⟨missing | path, middle⟩
  · rw [found] at succeeds
    cases succeeds
  · have foundToo := findFirst_append_run found further
    rw [found] at succeeds
    change (findFirst (resolver.withRoots further).policy.matching _ _ : StateM σ _).run files = _
      at foundToo
    rw [foundToo]
    exact succeeds

theorem locateInclude_carriesOver (origin : Origin) (text : Text) :
    CarriesOver (locateInclude resolver origin text : ResolveM (StateM σ) Path)
      (locateInclude (resolver.withRoots further) origin text) := by
  rw [locateInclude, locateInclude]
  split
  · exact .refl _
  · exact locateIn_carriesOver resolver further origin text _ _

theorem includeFile_carriesOver (origin : Origin) (text : Text) :
    CarriesOver (includeFile resolver origin text : ResolveM (StateM σ) Unit)
      (includeFile (resolver.withRoots further) origin text) :=
  (locateInclude_carriesOver resolver further origin text).bind fun _ => .refl _

theorem includeStylesheet_carriesOver (origin : Origin) (name : ModuleName) :
    CarriesOver (includeStylesheet resolver origin name : ResolveM (StateM σ) Unit)
      (includeStylesheet (resolver.withRoots further) origin name) :=
  (locateIn_carriesOver resolver further origin _ _ _).bind fun _ => .refl _

theorem locateModule_carriesOver (origin : Origin) (name : ModuleName) :
    CarriesOver (locateModule resolver origin name : ResolveM (StateM σ) Path)
      (locateModule (resolver.withRoots further) origin name) := by
  rw [locateModule, locateModule]
  dsimp only [Resolver.withRoots]
  cases resolver.bindings[name.key resolver.policy.matching]? with
  | some binding => exact .refl _
  | none => exact locateIn_carriesOver resolver further origin _ _ _

theorem segments_carryOver {importing furtherImporting : Origin → ModuleName →
      ResolveM (StateM σ) Unit}
    (imports : ∀ origin name, CarriesOver (importing origin name) (furtherImporting origin name))
    (source : SourceFile) :
    CarriesOver (source.segments.forM (resolveSegment resolver importing source))
      (source.segments.forM
        (resolveSegment (resolver.withRoots further) furtherImporting source)) := by
  refine .forM fun segment => ?_
  rw [resolveSegment, resolveSegment]
  cases segment.content with
  | script _ => exact .refl _
  | block _ _ => exact .refl _
  | directive directive =>
    cases directive with
    | importModule name => exact imports _ name
    | exportNames _ => exact .refl _
    | includeFile text => exact includeFile_carriesOver resolver further _ text
    | includeStylesheet name => exact includeStylesheet_carriesOver resolver further _ name

theorem resolveModule_carriesOver (depth : Nat) (chain : List ModuleName) (origin : Origin)
    (name : ModuleName) :
    CarriesOver (resolveModule resolver depth chain origin name : ResolveM (StateM σ) Unit)
      (resolveModule (resolver.withRoots further) depth chain origin name) := by
  induction depth generalizing chain origin name with
  | zero =>
    rw [resolveModule, resolveModule]
    refine .get_bind fun resolution => ?_
    dsimp only
    split
    · exact .refl _
    · split
      · exact .refl _
      · exact (locateModule_carriesOver resolver further origin name).bind fun _ => .refl _
  | succ depth inductionHypothesis =>
    rw [resolveModule, resolveModule]
    refine .get_bind fun resolution => ?_
    dsimp only
    split
    · exact .refl _
    · split
      · exact .refl _
      · refine (locateModule_carriesOver resolver further origin name).bind fun path => ?_
        refine (CarriesOver.refl _).bind fun source => ?_
        refine (CarriesOver.refl _).bind fun _ => ?_
        refine (segments_carryOver resolver further (inductionHypothesis _) source).bind
          fun _ => ?_
        exact .refl _

/-! ## Calls -/

theorem resolveImports_carriesOver (source : SourceFile) :
    CarriesOver (resolveImports resolver source : ResolveM (StateM σ) Unit)
      (resolveImports (resolver.withRoots further) source) :=
  (CarriesOver.refl _).bind fun depth =>
    segments_carryOver resolver further (resolveModule_carriesOver resolver further depth []) source

theorem loadBindings_carriesOver :
    CarriesOver (loadBindings resolver : ResolveM (StateM σ) Unit)
      (loadBindings (resolver.withRoots further)) :=
  (CarriesOver.refl _).bind fun depth => .forM fun binding =>
    resolveModule_carriesOver resolver further depth [] ⟨binding.2, 0⟩ binding.1

theorem resolutionSteps_carriesOver (source : SourceFile) :
    CarriesOver (resolutionSteps resolver source : ResolveM (StateM σ) Unit)
      (resolutionSteps (resolver.withRoots further) source) :=
  (loadBindings_carriesOver resolver further).bind fun _ =>
    resolveImports_carriesOver resolver further source

end PageCompiler
