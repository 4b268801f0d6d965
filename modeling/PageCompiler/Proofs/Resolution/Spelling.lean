import PageCompiler.Proofs.Assembly.Imports
import PageCompiler.Proofs.Registry.Spelling
import PageCompiler.Proofs.Resolution.Faithful
import PageCompiler.Proofs.Resolution.Mirroring

/-! # Resolving with bindings in two spellings

Two tables that bind the same modules to the same files can differ in how the names of the modules
are spelled. Resolution finds the same files with either table, in the same order, and comes to
registries in two spellings. If the names are spelled alike, it comes to the same registry.
-/

namespace PageCompiler

/-! ## Names and tables -/

/-- One name in two spellings, or one spelling where names are spelled `alike`. -/
structure ModuleName.Respells (alike : Prop) (matching : NameMatching) (first second : ModuleName) :
    Prop where
  key : first.key matching = second.key matching
  same : alike → first = second

theorem ModuleName.Respells.refl {alike : Prop} {matching : NameMatching} (name : ModuleName) :
    name.Respells alike matching name :=
  ⟨rfl, fun _ => rfl⟩

/-- Bindings of one key: names in two spellings, and the same file. -/
structure BindingsMatch (alike : Prop) (matching : NameMatching) (key : Text)
    (first second : ModuleName × Path) : Prop where
  filed : first.1.key matching = key
  names : first.1.Respells alike matching second.1
  path : first.2 = second.2

structure Resolution.Respells (alike : Prop) (matching : NameMatching)
    (first second : Resolution) : Prop where
  registry : first.registry.Respells matching second.registry
  scans : first.scans = second.scans
  same : alike → first = second

theorem Resolution.Respells.of_registry {alike : Prop} {matching : NameMatching}
    {first second : Resolution} (respells : first.Respells alike matching second)
    {registry registryToo : Registry} (registries : registry.Respells matching registryToo)
    (same : alike → registry = registryToo) :
    Resolution.Respells alike matching { first with registry := registry }
      { second with registry := registryToo } :=
  ⟨registries, respells.scans, fun spelled => by rw [respells.same spelled, same spelled]⟩

/-- What can be compiled in one registry can be compiled in the other one. -/
theorem Registry.Respells.compileModule {matching : NameMatching} {first second : Registry}
    (respells : first.Respells matching second) {name nameToo : ModuleName}
    (keys : name.key matching = nameToo.key matching) {source : SourceFile}
    {compiled : CompiledModule} (compiles : compileModule first name source = .ok compiled) :
    ∃ compiledToo, compileModule second nameToo source = .ok compiledToo ∧
      compiled.Respells matching compiledToo := by
  obtain ⟨body, scripted, rfl⟩ := exists_of_compileModule compiles
  obtain ⟨script, scriptedToo⟩ :=
    sourceScript_isOk (respells.holds (holds_of_sourceScript scripted))
  rw [PageCompiler.compileModule, scriptedToo]
  exact ⟨_, rfl, keys, rfl, rfl, rfl, rfl⟩

/-! ## Files and attachments -/

section

variable {σ : Type} [FileSystem (StateM σ)]

section

variable {related : Resolution → Resolution → Prop}

theorem readText_mirrors (path : Path) :
    Mirrors related (readText path : ResolveM (StateM σ) Text) (readText path) := by
  refine (Mirrors.lift _).bind fun outcome => ?_
  cases outcome with
  | ok text => exact .pure text
  | error error => exact .throw _ _

theorem readSource_mirrors (path : Path) :
    Mirrors related (readSource path : ResolveM (StateM σ) SourceFile) (readSource path) := by
  refine (readText_mirrors path).bind fun text => ?_
  cases SourceFile.scan path text with
  | ok source => exact .pure source
  | error error => exact .throw _ _

theorem locateIn_mirrors (resolver : Resolver) (origin : Origin) (wanted : Text)
    (directories : List Path) (relative : Path) :
    Mirrors related (locateIn resolver origin wanted directories relative :
      ResolveM (StateM σ) Path) (locateIn resolver origin wanted directories relative) := by
  refine (Mirrors.lift _).bind fun found => ?_
  cases found with
  | some path => exact .pure path
  | none => exact .throw _ _

theorem locateInclude_mirrors (resolver : Resolver) (origin : Origin) (text : Text) :
    Mirrors related (locateInclude resolver origin text : ResolveM (StateM σ) Path)
      (locateInclude resolver origin text) := by
  rw [locateInclude]
  split
  · refine (Mirrors.lift _).bind fun present => ?_
    split
    · exact .pure _
    · exact .throw _ _
  · exact locateIn_mirrors resolver origin _ _ _

end

variable {alike : Prop} {matching : NameMatching}

theorem attachFile_mirrors (resolver : Resolver) (origin : Origin) (path : Path)
    (kind : Section) :
    Mirrors (Resolution.Respells alike matching)
      (attachFile resolver origin path kind : ResolveM (StateM σ) Unit)
      (attachFile resolver origin path kind) := by
  refine .get_bind fun resolution resolutionToo respells => ?_
  have linked := respells.registry.link?_rel origin.path path
  have same : alike → resolution.registry.link? origin.path path =
      resolutionToo.registry.link? origin.path path := fun spelled => by rw [respells.same spelled]
  generalize resolution.registry.link? origin.path path = found,
    resolutionToo.registry.link? origin.path path = foundToo at linked same
  cases linked with
  | some relates =>
    exact .modify fun _ _ now =>
      now.of_registry relates fun spelled => Option.some.inj (same spelled)
  | none =>
    refine (readText_mirrors path).bind fun text => ?_
    split
    · exact .pure _
    · exact .modify fun _ _ now => now.of_registry (now.registry.attach _ _)
        fun spelled => by rw [now.same spelled]

theorem includeFile_mirrors (resolver : Resolver) (origin : Origin) (text : Text) :
    Mirrors (Resolution.Respells alike matching)
      (includeFile resolver origin text : ResolveM (StateM σ) Unit)
      (includeFile resolver origin text) :=
  (locateInclude_mirrors resolver origin text).bind fun path =>
    attachFile_mirrors resolver origin path _

theorem includeStylesheet_mirrors (resolver : Resolver) (origin : Origin) (name : ModuleName) :
    Mirrors (Resolution.Respells alike matching)
      (includeStylesheet resolver origin name : ResolveM (StateM σ) Unit)
      (includeStylesheet resolver origin name) :=
  (locateIn_mirrors resolver origin _ _ _).bind fun path =>
    attachFile_mirrors resolver origin path _

omit [FileSystem (StateM σ)] in
theorem registerSource_mirrors {name nameToo : ModuleName}
    (names : name.Respells alike matching nameToo) (source : SourceFile) :
    Mirrors (Resolution.Respells alike matching)
      (registerSource name source : ResolveM (StateM σ) Unit) (registerSource nameToo source) := by
  refine .get_bind fun resolution resolutionToo respells => ?_
  cases compiles : compileModule resolution.registry name source with
  | error error => exact .throw _ _
  | ok compiled =>
    obtain ⟨compiledToo, compilesToo, modules⟩ :=
      respells.registry.compileModule names.key compiles
    have registering : (.ok compiled >>= resolution.registry.register) =
        resolution.registry.register compiled := rfl
    have registeringToo : (.ok compiledToo >>= resolutionToo.registry.register) =
        resolutionToo.registry.register compiledToo := rfl
    rw [compilesToo, registering, registeringToo]
    cases registered : resolution.registry.register compiled with
    | error error => exact .throw _ _
    | ok result =>
      obtain ⟨storedToo, afterToo, registeredToo, registries⟩ :=
        respells.registry.register modules registered
      rw [registeredToo]
      refine .set (respells.of_registry registries fun spelled => ?_)
      -- With one spelling both runs compile and register the same module.
      rw [← respells.same spelled, ← names.same spelled, compiles] at compilesToo
      cases compilesToo
      rw [← respells.same spelled, registered] at registeredToo
      cases registeredToo
      rfl

/-! ## Modules -/

theorem chainFrom?_eq_none_congr {chain chainToo : List ModuleName}
    (chains : chain.map (ModuleName.key matching) = chainToo.map (ModuleName.key matching))
    (key : Text) :
    chainFrom? matching chain key = none ↔ chainFrom? matching chainToo key = none := by
  have absent (names : List ModuleName) : (∀ passed ∈ names, passed.key matching ≠ key) ↔
      key ∉ names.map (ModuleName.key matching) := by
    rw [List.mem_map, not_exists]
    exact forall_congr' fun passed => not_and.symm
  rw [chainFrom?_eq_none_iff, chainFrom?_eq_none_iff, absent, absent, chains]

omit [FileSystem (StateM σ)] in
theorem unlessMet_mirrors {chain chainToo : List ModuleName}
    (chains : chain.map (ModuleName.key matching) = chainToo.map (ModuleName.key matching))
    {name nameToo : ModuleName} (names : name.Respells alike matching nameToo)
    {rest restToo : ResolveM (StateM σ) Unit}
    (mirrors : Mirrors (Resolution.Respells alike matching) rest restToo) :
    Mirrors (Resolution.Respells alike matching) (do
      let registry := (← get).registry
      if registry.contains name then return
      match chainFrom? registry.matching chain (registry.keyOf name) with
      | some start => throw (.circularImport (cycleNames start name))
      | none => rest) (do
      let registry := (← get).registry
      if registry.contains nameToo then return
      match chainFrom? registry.matching chainToo (registry.keyOf nameToo) with
      | some start => throw (.circularImport (cycleNames start nameToo))
      | none => restToo) := by
  refine .get_bind fun resolution resolutionToo respells => ?_
  dsimp only
  rw [respells.registry.contains_eq names.key, Registry.keyOf, Registry.keyOf,
    respells.registry.matches_, respells.registry.matchesToo, ← names.key]
  split
  · exact .pure _
  · cases closes : chainFrom? matching chain (name.key matching) with
    | some start => exact .throw _ _
    | none =>
      rw [(chainFrom?_eq_none_congr chains _).mp closes]
      exact mirrors

section

variable {resolver : Resolver} {bindings : Bindings}

theorem segments_mirror {importing importingToo : Origin → ModuleName → ResolveM (StateM σ) Unit}
    (imports : ∀ origin name,
      Mirrors (Resolution.Respells alike matching) (importing origin name)
        (importingToo origin name)) (source : SourceFile) :
    Mirrors (Resolution.Respells alike matching)
      (source.segments.forM (resolveSegment resolver importing source))
      (source.segments.forM
        (resolveSegment { resolver with bindings := bindings } importingToo source)) := by
  refine .forM (List.forall₂_same.mpr fun segment _ => ?_)
  rw [resolveSegment, resolveSegment]
  cases segment.content with
  | script _ => exact .pure _
  | block _ _ => exact .pure _
  | directive directive =>
    cases directive with
    | importModule name => exact imports _ name
    | exportNames _ => exact .pure _
    | includeFile text => exact includeFile_mirrors resolver _ text
    | includeStylesheet name => exact includeStylesheet_mirrors resolver _ name

variable (policy : resolver.policy.matching = matching)
  (tables : TablesAgree (BindingsMatch alike matching) resolver.bindings bindings)

include policy tables

/-- A name that is spelled in two ways is bound to one file; other names are searched for. -/
theorem locateModule_mirrors {related : Resolution → Resolution → Prop} (origin : Origin)
    {name nameToo : ModuleName} (names : name.Respells alike matching nameToo)
    (bound : name = nameToo ∨ name.key matching ∈ resolver.bindings) :
    Mirrors related (locateModule resolver origin name : ResolveM (StateM σ) Path)
      (locateModule { resolver with bindings := bindings } origin nameToo) := by
  have found := tables (name.key matching)
  rw [locateModule, locateModule]
  dsimp only
  rw [policy, ← names.key]
  rw [Std.TreeMap.mem_iff_isSome_getElem?] at bound
  generalize resolver.bindings[name.key matching]? = binding,
    bindings[name.key matching]? = bindingToo at found bound
  cases found with
  | some relates =>
    dsimp only
    rw [relates.path]
    exact .pure _
  | none =>
    obtain rfl := bound.resolve_right Bool.false_ne_true
    exact locateIn_mirrors resolver origin _ _ _

theorem resolveModule_mirrors (depth : Nat) {chain chainToo : List ModuleName}
    (chains : chain.map (ModuleName.key matching) = chainToo.map (ModuleName.key matching))
    (origin : Origin) {name nameToo : ModuleName} (names : name.Respells alike matching nameToo)
    (bound : name = nameToo ∨ name.key matching ∈ resolver.bindings) :
    Mirrors (Resolution.Respells alike matching)
      (resolveModule resolver depth chain origin name : ResolveM (StateM σ) Unit)
      (resolveModule { resolver with bindings := bindings } depth chainToo origin nameToo) := by
  induction depth generalizing chain chainToo origin name nameToo with
  | zero =>
    rw [resolveModule, resolveModule]
    refine unlessMet_mirrors chains names ?_
    exact (locateModule_mirrors policy tables origin names bound).bind fun _ => .throw _ _
  | succ depth inductionHypothesis =>
    rw [resolveModule, resolveModule]
    refine unlessMet_mirrors chains names ?_
    refine (locateModule_mirrors policy tables origin names bound).bind fun path => ?_
    refine (readSource_mirrors path).bind fun source => ?_
    have counted : Mirrors (Resolution.Respells alike matching)
        (modify fun resolution => { resolution with scans := resolution.scans + 1 } :
          ResolveM (StateM σ) Unit) (modify fun resolution =>
            { resolution with scans := resolution.scans + 1 }) :=
      .modify fun _ _ respells => ⟨respells.registry, by rw [respells.scans],
        fun spelled => by rw [respells.same spelled]⟩
    have longer : (chain ++ [name]).map (ModuleName.key matching) =
        (chainToo ++ [nameToo]).map (ModuleName.key matching) := by
      rw [List.map_append, List.map_append, chains, List.map_singleton, List.map_singleton,
        names.key]
    refine counted.bind fun _ => (segments_mirror (fun origin imported => ?_) source).bind
      fun _ => registerSource_mirrors names source
    -- Both runs read the imports in one file, so these names are not respelled.
    exact inductionHypothesis longer origin (.refl imported) (.inl rfl)

/-! ## Calls -/

omit policy in
theorem nestingBound_mirrors {related : Resolution → Resolution → Prop} (text : Text) :
    Mirrors related (nestingBound resolver text : ResolveM (StateM σ) Nat)
      (nestingBound { resolver with bindings := bindings } text) := by
  rw [nestingBound, nestingBound, tables.size_eq]
  exact (Mirrors.lift _).bind fun _ => .pure _

theorem resolveImports_mirrors (source : SourceFile) :
    Mirrors (Resolution.Respells alike matching)
      (resolveImports resolver source : ResolveM (StateM σ) Unit)
      (resolveImports { resolver with bindings := bindings } source) :=
  (nestingBound_mirrors tables _).bind fun depth =>
    segments_mirror (fun origin name =>
      resolveModule_mirrors policy tables depth rfl origin (.refl name) (.inl rfl)) source

theorem loadBindings_mirrors :
    Mirrors (Resolution.Respells alike matching)
      (loadBindings resolver : ResolveM (StateM σ) Unit)
      (loadBindings { resolver with bindings := bindings }) := by
  refine (nestingBound_mirrors tables _).bind fun depth => .forM ?_
  refine tables.forall₂_values.imp ?_
  rintro ⟨name, path⟩ ⟨nameToo, pathToo⟩ ⟨key, bound, filed, names, samePath⟩
  obtain rfl : path = pathToo := samePath
  obtain rfl : name.key matching = key := filed
  exact resolveModule_mirrors policy tables depth rfl _ names (.inr bound)

theorem resolutionSteps_mirrors (source : SourceFile) :
    Mirrors (Resolution.Respells alike matching)
      (resolutionSteps resolver source : ResolveM (StateM σ) Unit)
      (resolutionSteps { resolver with bindings := bindings } source) :=
  (loadBindings_mirrors policy tables).bind fun _ => resolveImports_mirrors policy tables source

end

end

end PageCompiler
