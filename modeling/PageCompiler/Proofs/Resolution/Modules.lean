import PageCompiler.Proofs.Assembly.Imports
import PageCompiler.Proofs.Registry.Attachments
import PageCompiler.Proofs.Resolution.Step

/-! # What resolution registers

Each operation of resolution as a step: it keeps the registry sound, and resolving a module leaves
the module registered. A module is registered last, when all its imports are.
-/

namespace PageCompiler

variable {σ : Type} {needed : List ModuleName}

/-! ## Errors -/

theorem BuildError.isExpected_ofFileError (path : Path) (error : FileError) :
    (BuildError.ofFileError path error).IsExpected := by
  intro name other
  cases error <;> exact BuildError.noConfusion

theorem BuildError.isExpected_ofScanError (path : Path) (error : ScanError) :
    (BuildError.ofScanError path error).IsExpected :=
  fun _ _ => BuildError.noConfusion

/-! ## Registering -/

theorem registerSource_resolves (name : ModuleName) (source : SourceFile) :
    Resolves (importedNames source) (registerSource name source : ResolveM (StateM σ) Unit)
      [name] := by
  refine .get_bind fun resolution files sound held => ?_
  -- Compiling finds every import, so only the registry can refuse the module.
  obtain ⟨compiled, made, named, closed⟩ := compileModule_isOk held name
  have registering : (compileModule resolution.registry name source >>=
      resolution.registry.register) = resolution.registry.register compiled := by
    rw [made]
    rfl
  dsimp only
  rw [registering]
  cases outcome : resolution.registry.register compiled with
  | ok registered =>
    obtain ⟨stored, after⟩ := registered
    obtain ⟨kept, extends_, present⟩ := sound.register closed outcome
    refine ⟨kept, extends_, fun _ _ other member => ?_, fun _ failed => ?_⟩
    · rw [List.mem_singleton.mp member, ← named]
      exact present
    · cases failed
  | error error =>
    obtain ⟨_, _, _, rfl⟩ := Registry.register_error outcome
    exact Resolves.throw (fun _ _ => BuildError.noConfusion) resolution files sound held

/-- A module that is registered or on the way to itself is not resolved. -/
theorem unlessMet_resolves (chain : List ModuleName) (name : ModuleName)
    {rest : ResolveM (StateM σ) Unit} (resolves : Resolves [] rest [name]) :
    Resolves [] (do
      let registry := (← get).registry
      if registry.contains name then return
      match chainFrom? registry.matching chain (registry.keyOf name) with
      | some start => throw (.circularImport (cycleNames start name))
      | none => rest) [name] := by
  refine .get_bind fun resolution files sound held => ?_
  dsimp only
  split
  · next registered =>
    refine Resolves.pure _ (List.Subset.refl _) resolution files sound fun other member => ?_
    rwa [List.mem_singleton.mp member]
  · split
    · exact Resolves.throw (fun _ _ => BuildError.noConfusion) resolution files sound held
    · exact resolves resolution files sound held

variable [FileSystem (StateM σ)]

/-! ## Files -/

theorem readText_resolves (path : Path) :
    Resolves needed (readText path : ResolveM (StateM σ) Text) needed := by
  refine (Resolves.lift _).bind fun outcome => ?_
  cases outcome with
  | ok text => exact .pure _ (List.Subset.refl _)
  | error error => exact .throw (BuildError.isExpected_ofFileError path error)

theorem readSource_resolves (path : Path) :
    Resolves needed (readSource path : ResolveM (StateM σ) SourceFile) needed := by
  refine (readText_resolves path).bind fun text => ?_
  cases SourceFile.scan path text with
  | ok source => exact .pure _ (List.Subset.refl _)
  | error error => exact .throw (BuildError.isExpected_ofScanError path error)

theorem locateIn_resolves (resolver : Resolver) (origin : Origin) (wanted : Text)
    (directories : List Path) (relative : Path) :
    Resolves needed
      (locateIn resolver origin wanted directories relative : ResolveM (StateM σ) Path) needed := by
  refine (Resolves.lift _).bind fun found => ?_
  cases found with
  | some path => exact .pure _ (List.Subset.refl _)
  | none => exact .throw fun _ _ => BuildError.noConfusion

/-! ## Attachments -/

theorem attachFile_resolves (resolver : Resolver) (origin : Origin) (path : Path)
    (kind : Section) :
    Resolves needed (attachFile resolver origin path kind : ResolveM (StateM σ) Unit) needed := by
  refine .get_bind fun resolution files sound held => ?_
  cases links : resolution.registry.link? origin.path path with
  | some linked =>
    obtain ⟨matching, modules⟩ := Registry.link?_modules links
    exact .of_modules_eq sound held matching modules _
  | none =>
    suffices attaches : Resolves needed (do
        let text ← readText path
        if resolver.excludes text then return
        modify fun resolution => { resolution with
          registry := resolution.registry.attach origin.path ⟨path, kind, text⟩ } :
          ResolveM (StateM σ) Unit) needed from attaches resolution files sound held
    refine (readText_resolves path).bind fun text => ?_
    split
    · exact .pure _ (List.Subset.refl _)
    · exact .modify (fun resolution => (resolution.registry.attach_modules _ _).1)
        fun resolution => (resolution.registry.attach_modules _ _).2

theorem locateInclude_resolves (resolver : Resolver) (origin : Origin) (text : Text) :
    Resolves needed (locateInclude resolver origin text : ResolveM (StateM σ) Path) needed := by
  rw [locateInclude]
  split
  · refine (Resolves.lift _).bind fun present => ?_
    split
    · exact .pure _ (List.Subset.refl _)
    · exact .throw fun _ _ => BuildError.noConfusion
  · exact locateIn_resolves _ _ _ _ _

theorem includeFile_resolves (resolver : Resolver) (origin : Origin) (text : Text) :
    Resolves needed (includeFile resolver origin text : ResolveM (StateM σ) Unit) needed :=
  (locateInclude_resolves resolver origin text).bind fun path =>
    attachFile_resolves resolver origin path _

theorem includeStylesheet_resolves (resolver : Resolver) (origin : Origin) (name : ModuleName) :
    Resolves needed (includeStylesheet resolver origin name : ResolveM (StateM σ) Unit) needed :=
  (locateIn_resolves resolver origin _ _ _).bind fun path =>
    attachFile_resolves resolver origin path _

/-! ## Modules -/

theorem locateModule_resolves (resolver : Resolver) (origin : Origin) (name : ModuleName) :
    Resolves needed (locateModule resolver origin name : ResolveM (StateM σ) Path) needed := by
  rw [locateModule]
  split
  · exact .pure _ (List.Subset.refl _)
  · exact locateIn_resolves _ _ _ _ _

theorem resolveSegment_resolves (resolver : Resolver)
    {importing : Origin → ModuleName → ResolveM (StateM σ) Unit}
    (imports : ∀ origin name, Resolves [] (importing origin name) [name]) (source : SourceFile)
    (segment : Segment) :
    Resolves [] (resolveSegment resolver importing source segment) segment.importedNames := by
  rw [resolveSegment, Segment.importedNames]
  cases segment.content with
  | script _ => exact .pure _ (List.Subset.refl _)
  | block _ _ => exact .pure _ (List.Subset.refl _)
  | directive directive =>
    cases directive with
    | importModule name => exact imports _ name
    | exportNames _ => exact .pure _ (List.Subset.refl _)
    | includeFile text => exact includeFile_resolves _ _ text
    | includeStylesheet name => exact includeStylesheet_resolves _ _ name

theorem segments_resolve (resolver : Resolver)
    {importing : Origin → ModuleName → ResolveM (StateM σ) Unit}
    (imports : ∀ origin name, Resolves [] (importing origin name) [name]) (source : SourceFile) :
    Resolves [] (source.segments.forM (resolveSegment resolver importing source))
      (importedNames source) := by
  rw [importedNames_eq_flatMap]
  exact .forM fun segment _ => resolveSegment_resolves resolver imports source segment

theorem resolveModule_resolves (resolver : Resolver) (depth : Nat) (chain : List ModuleName)
    (origin : Origin) (name : ModuleName) :
    Resolves [] (resolveModule resolver depth chain origin name : ResolveM (StateM σ) Unit)
      [name] := by
  induction depth generalizing chain origin name with
  | zero =>
    rw [resolveModule]
    refine unlessMet_resolves chain name ?_
    refine (locateModule_resolves resolver origin name).bind fun path => ?_
    -- Too long a chain of imports is an error of its own.
    exact .throw fun _ _ => BuildError.noConfusion
  | succ depth inductionHypothesis =>
    rw [resolveModule]
    refine unlessMet_resolves chain name ?_
    refine (locateModule_resolves resolver origin name).bind fun path => ?_
    refine (readSource_resolves path).bind fun source => ?_
    refine Resolves.bind (.modify (fun _ => rfl) fun _ => rfl) fun _ => ?_
    refine (segments_resolve resolver (inductionHypothesis _) source).bind fun _ => ?_
    -- Whatever the file imports is registered by now.
    exact registerSource_resolves name source

theorem nestingBound_resolves (resolver : Resolver) (text : Text) :
    Resolves needed (nestingBound resolver text : ResolveM (StateM σ) Nat) needed :=
  (Resolves.lift _).bind fun _ => .pure _ (List.Subset.refl _)

theorem resolveImports_resolves (resolver : Resolver) (source : SourceFile) :
    Resolves [] (resolveImports resolver source : ResolveM (StateM σ) Unit)
      (importedNames source) := by
  refine (nestingBound_resolves resolver source.text).bind fun depth => ?_
  exact segments_resolve resolver (resolveModule_resolves resolver depth []) source

theorem loadBindings_resolves (resolver : Resolver) :
    Resolves [] (loadBindings resolver : ResolveM (StateM σ) Unit)
      (resolver.bindings.values.flatMap fun binding => [binding.1]) := by
  refine (nestingBound_resolves resolver []).bind fun depth => ?_
  exact .forM fun (name, path) _ => resolveModule_resolves resolver depth [] ⟨path, 0⟩ name

end PageCompiler
