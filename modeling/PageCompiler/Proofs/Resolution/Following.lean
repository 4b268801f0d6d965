import Mathlib.Data.List.TakeWhile
import PageCompiler.Proofs.Resolution.Candidates
import PageCompiler.Proofs.Resolution.Causes

/-! # Following directives

What each operation of resolution finds in the files, and what ends it. The lemmas that end in `of`
say it for any errors that are accepted, if those that the operation itself can end with are among
them. A module is resolved along a route of import directives; if the route comes back to a key on
it, there is a cycle, and it is too short for the limit on nesting to be reached.
-/

namespace PageCompiler

variable {σ : Type} [FileSystem (StateM σ)] {run : ResolutionStart} {fails : BuildError → Prop}

/-! ## Errors -/

theorem BuildError.isPlain_ofFileError (path : Path) (error : FileError) :
    (BuildError.ofFileError path error).IsPlain := by
  intro chain
  cases error <;> exact BuildError.noConfusion

/-! ## Registering -/

/-- A module is compiled and registered, or it imports what is not registered, or the registry
refuses it. -/
theorem registerSource_follows_of {name : ModuleName} {source : SourceFile}
    (loads : run.view.Loads run.resolver name source)
    (unregistered : ∀ imported importer, fails (.unresolvedImport imported importer))
    (refused : ∀ (registry : Registry) (files : σ) compiled error, run.Keeps registry files →
      compileModule registry name source = .ok compiled →
      registry.register compiled = .error error → fails error) :
    Follows run (registerSource name source : ResolveM (StateM σ) Unit) (fun _ => True) fails := by
  refine .get_bind fun resolution files kept => ?_
  dsimp only
  cases compiles : compileModule resolution.registry name source with
  | error error =>
    obtain ⟨imported, importer, rfl⟩ := compileModule_error compiles
    exact Follows.throw (unregistered imported importer) resolution files kept
  | ok compiled =>
    -- Compiling has succeeded, so only the registry can refuse the module.
    have registering : (.ok compiled >>= resolution.registry.register) =
        resolution.registry.register compiled := rfl
    rw [registering]
    cases registered : resolution.registry.register compiled with
    | error error =>
      exact Follows.throw (refused _ files compiled error kept compiles registered) resolution
        files kept
    | ok stored =>
      obtain ⟨stored, after⟩ := stored
      refine ⟨⟨kept.view, ?_, fun trusted => ?_⟩, fun _ _ => trivial, fun _ failed => ?_⟩
      · exact (Registry.register_matching registered).trans kept.matching
      · exact (kept.faithful trusted).register loads compiles registered
      · cases failed

theorem registerSource_follows {name : ModuleName} {source : SourceFile}
    (loads : run.view.Loads run.resolver name source) :
    Follows run (registerSource name source : ResolveM (StateM σ) Unit) (fun _ => True)
      run.Ends := by
  refine registerSource_follows_of loads (fun _ _ => .unregistered _ _)
    fun registry files compiled error kept compiles registered => .obstacle ⟨?_, fun clear => ?_⟩
  · obtain ⟨_, _, _, rfl⟩ := Registry.register_error registered
    exact fun _ => BuildError.noConfusion
  · obtain ⟨stored, accepted⟩ := (kept.faithful clear.trusted).register_isOk
      (kept.matching.trans clear.exact_) loads compiles
    cases registered.symm.trans accepted

/-! ## Coming back to a module -/

/-- A module that is registered or on the way to itself is not resolved. -/
theorem unlessMet_follows_of {chain : List ModuleName} {name : ModuleName}
    {rest : ResolveM (StateM σ) Unit}
    (closes : ∀ start, chainFrom? run.matching chain (name.key run.matching) = some start →
      fails (.circularImport (cycleNames start name)))
    (follows : chainFrom? run.matching chain (name.key run.matching) = none →
      Follows run rest (fun _ => True) fails) :
    Follows run (do
      let registry := (← get).registry
      if registry.contains name then return
      match chainFrom? registry.matching chain (registry.keyOf name) with
      | some start => throw (.circularImport (cycleNames start name))
      | none => rest) (fun _ => True) fails := by
  refine .get_bind fun resolution files kept => ?_
  dsimp only
  split
  · exact Follows.pure trivial resolution files kept
  · rw [Registry.keyOf, kept.matching]
    split
    · next start found => exact Follows.throw (closes start found) resolution files kept
    · next missing => exact follows missing resolution files kept

theorem unlessMet_follows {chain : List ModuleName} {name : ModuleName}
    (route : run.view.Route run.resolver run.matching run.roots chain name)
    {rest : ResolveM (StateM σ) Unit}
    (follows : (∀ passed ∈ chain, passed.key run.matching ≠ name.key run.matching) →
      Follows run rest (fun _ => True) run.Ends) :
    Follows run (do
      let registry := (← get).registry
      if registry.contains name then return
      match chainFrom? registry.matching chain (registry.keyOf name) with
      | some start => throw (.circularImport (cycleNames start name))
      | none => rest) (fun _ => True) run.Ends := by
  refine unlessMet_follows_of (fun start found => ?_) fun missing =>
    follows (chainFrom?_eq_none_iff.mp missing)
  obtain ⟨⟨front, split⟩, closes⟩ := exists_of_chainFrom? found
  refine .cycle (route.cycle split closes) fun passed member => ?_
  rw [split] at route
  exact route.reaches passed (by simp [member])

section

variable [LawfulFileSystem σ]

/-! ## Files -/

theorem readText_follows_of {path : Path}
    (unread : ∀ error, run.view.readText path = .error error → fails (.ofFileError path error)) :
    Follows run (readText path : ResolveM (StateM σ) Text)
      (fun text => run.view.readText path = .ok text) fails := by
  refine (Follows.lift (Asks.readText path)).bind fun outcome found => ?_
  change outcome = run.view.readText path at found
  cases outcome with
  | ok text => exact .pure found.symm
  | error error => exact .throw (unread error found.symm)

theorem BuildError.lacks_canRead {path : Path} {error : FileError}
    (unread : run.view.readText path = .error error) :
    (BuildError.ofFileError path error).Lacks (run.view.CanRead path) := by
  refine ⟨BuildError.isPlain_ofFileError path error, fun ⟨text, read⟩ => ?_⟩
  cases unread.symm.trans read

theorem readSource_follows_of {path : Path}
    (unread : ∀ error, run.view.readText path = .error error → fails (.ofFileError path error))
    (unscanned : ∀ text error, run.view.readText path = .ok text →
      SourceFile.scan path text = .error error → fails (.ofScanError path error)) :
    Follows run (readSource path : ResolveM (StateM σ) SourceFile)
      (fun source => ∃ text, run.view.readText path = .ok text ∧
        SourceFile.scan path text = .ok source) fails := by
  refine (readText_follows_of unread).bind fun text read => ?_
  cases scanned : SourceFile.scan path text with
  | ok source => exact .pure ⟨text, read, scanned⟩
  | error error => exact .throw (unscanned text error read scanned)

theorem readSource_follows (path : Path) :
    Follows run (readSource path : ResolveM (StateM σ) SourceFile)
      (fun source => ∃ text, run.view.readText path = .ok text ∧
        SourceFile.scan path text = .ok source)
      (BuildError.Lacks (∃ source text, run.view.readText path = .ok text ∧
        SourceFile.scan path text = .ok source)) := by
  refine readSource_follows_of (fun error unread => ?_) fun text error read scanned => ?_
  · exact (BuildError.lacks_canRead unread).imp fun ⟨_, text, read, _⟩ => ⟨text, read⟩
  · refine ⟨fun _ => BuildError.noConfusion, fun ⟨source, other, readToo, found⟩ => ?_⟩
    cases read.symm.trans readToo
    cases scanned.symm.trans found

theorem locateIn_follows_of {origin : Origin} {wanted : Text} {directories : List Path}
    {relative : Path}
    (missed : (findFirst run.resolver.policy.matching relative directories :
        ReaderM View (Option Path)) run.view = none →
      fails (.moduleNotFound wanted origin.path origin.line
        (dropRepeatedPaths (directories.map (candidate relative))))) :
    Follows run
      (locateIn run.resolver origin wanted directories relative : ResolveM (StateM σ) Path)
      (fun path => (findFirst run.resolver.policy.matching relative directories :
        ReaderM View (Option Path)) run.view = some path) fails := by
  refine (Follows.lift (Asks.findFirst _ relative directories)).bind fun outcome same => ?_
  cases outcome with
  | some path => exact .pure same.symm
  | none => exact .throw (missed same.symm)

/-! ## Attachments -/

theorem attachFile_follows_of (origin : Origin) {path : Path} (kind : Section)
    (unread : ∀ error, run.view.readText path = .error error → fails (.ofFileError path error)) :
    Follows run (attachFile run.resolver origin path kind : ResolveM (StateM σ) Unit)
      (fun _ => True) fails := by
  refine .get_bind fun resolution files kept => ?_
  cases links : resolution.registry.link? origin.path path with
  | some linked =>
    -- The file is attached already, so it is not read again.
    obtain ⟨matching, -⟩ := Registry.link?_modules links
    exact ⟨⟨kept.view, matching.trans kept.matching, fun trusted =>
      (kept.faithful trusted).link? links⟩, fun _ _ => trivial, fun _ failed => nomatch failed⟩
  | none =>
    suffices attaches : Follows run (do
        let text ← readText path
        if run.resolver.excludes text then return
        modify fun resolution => { resolution with
          registry := resolution.registry.attach origin.path ⟨path, kind, text⟩ } :
          ResolveM (StateM σ) Unit) (fun _ => True) fails from
      attaches resolution files kept
    refine (readText_follows_of unread).bind fun text _ => ?_
    split
    · exact .pure trivial
    · exact .modify fun resolution files kept =>
        ⟨kept.view, (resolution.registry.attach_modules _ _).1.trans kept.matching,
          fun trusted => (kept.faithful trusted).attach _ _⟩

theorem locateInclude_follows_of {origin : Origin} {text : Text}
    (missed : run.view.includedFile? run.resolver origin.path text = none →
      fails (.moduleNotFound text origin.path origin.line
        (dropRepeatedPaths (run.resolver.candidates origin.path (.includeFile text))))) :
    Follows run (locateInclude run.resolver origin text : ResolveM (StateM σ) Path)
      (fun path => run.view.includedFile? run.resolver origin.path text = some path) fails := by
  rw [View.includedFile?, Resolver.candidates] at missed
  rw [locateInclude, View.includedFile?]
  split
  · next absolute =>
    rw [if_pos absolute, if_pos absolute] at missed
    refine (Follows.lift (Asks.isFile _)).bind fun present found => ?_
    change present = run.view.isFile _ at found
    subst found
    split
    · exact .pure rfl
    · next absent => exact .throw (missed (if_neg absent))
  · next relative =>
    rw [if_neg relative, if_neg relative] at missed
    exact locateIn_follows_of missed

theorem BuildError.lacks_file {located : Option Path} {wanted : Text} {importer : Path}
    {line : Nat} {searched : List Path} (missed : located = none) :
    (BuildError.moduleNotFound wanted importer line searched).Lacks
      (∃ path, located = some path) := by
  refine ⟨fun _ => BuildError.noConfusion, fun ⟨path, found⟩ => ?_⟩
  cases missed.symm.trans found

/-- The file of a directive is located first and attached then. -/
theorem attachLocated_follows {origin : Origin} {located : Option Path}
    {locate : ResolveM (StateM σ) Path} (kind : Path → Section)
    (follows : Follows run locate (fun path => located = some path)
      (BuildError.Lacks (∃ path, located = some path))) :
    Follows run (do
      let path ← locate
      attachFile run.resolver origin path (kind path)) (fun _ => True)
      (BuildError.Lacks (∃ path, located = some path ∧ run.view.CanRead path)) := by
  refine Follows.bind (follows.imp (fun _ => id) fun _ lacks =>
    lacks.imp fun ⟨path, found, _⟩ => ⟨path, found⟩) fun path found => ?_
  refine attachFile_follows_of origin _ fun error unread =>
    (BuildError.lacks_canRead unread).imp fun ⟨other, same, read⟩ => ?_
  cases found.symm.trans same
  exact read

/-! ## Modules -/

theorem locateModule_follows_of {origin : Origin} {name : ModuleName}
    (missed : run.view.moduleFile? run.resolver name = none →
      fails (.moduleNotFound name.qualified origin.path origin.line
        (dropRepeatedPaths (run.resolver.candidates origin.path (.importModule name))))) :
    Follows run (locateModule run.resolver origin name : ResolveM (StateM σ) Path)
      (fun path => run.view.moduleFile? run.resolver name = some path) fails := by
  rw [View.moduleFile?] at missed
  rw [locateModule, View.moduleFile?]
  cases bound : run.resolver.bindings[name.key run.resolver.policy.matching]? with
  | some binding => exact .pure rfl
  | none =>
    rw [bound] at missed
    exact locateIn_follows_of missed

theorem locateReached_follows (origin : Origin) {name : ModuleName}
    (reached : run.view.Reaches run.resolver run.roots name) :
    Follows run (locateModule run.resolver origin name : ResolveM (StateM σ) Path)
      (fun path => run.view.moduleFile? run.resolver name = some path) run.Ends := by
  refine locateModule_follows_of fun missed =>
    .obstacle ((BuildError.lacks_file missed).imp fun clear => ?_)
  obtain ⟨_, path, _, found, _⟩ := clear.loads name reached
  exact ⟨path, found⟩

theorem readReached_follows {name : ModuleName}
    (reached : run.view.Reaches run.resolver run.roots name) {path : Path}
    (found : run.view.moduleFile? run.resolver name = some path) :
    Follows run (readSource path : ResolveM (StateM σ) SourceFile)
      (run.view.Loads run.resolver name) run.Ends := by
  refine (readSource_follows path).imp (fun source ⟨text, read, scanned⟩ =>
    ⟨path, text, found, read, scanned⟩) fun _ lacks => .obstacle (lacks.imp fun clear => ?_)
  obtain ⟨source, other, text, foundToo, read, scanned⟩ := clear.loads name reached
  cases found.symm.trans foundToo
  exact ⟨source, text, read, scanned⟩

theorem resolveSegment_follows {importing : Origin → ModuleName → ResolveM (StateM σ) Unit}
    {source : SourceFile} {segment : Segment}
    (imports : ∀ origin, ∀ name ∈ segment.importedNames,
      Follows run (importing origin name) (fun _ => True) run.Ends)
    (attaches : run.Clear → run.view.CanAttach run.resolver source.path segment) :
    Follows run (resolveSegment run.resolver importing source segment) (fun _ => True)
      run.Ends := by
  rw [Segment.importedNames] at imports
  rw [View.CanAttach] at attaches
  rw [resolveSegment]
  cases content : segment.content with
  | script _ => exact .pure trivial
  | block _ _ => exact .pure trivial
  | directive directive =>
    rw [content] at imports attaches
    cases directive with
    | importModule name => exact imports _ name List.mem_cons_self
    | exportNames _ => exact .pure trivial
    | includeFile text =>
      exact (attachLocated_follows Section.ofPath
        (locateInclude_follows_of BuildError.lacks_file)).imp
          (fun _ => id) fun _ lacks => .obstacle (lacks.imp attaches)
    | includeStylesheet name =>
      exact (attachLocated_follows (fun _ => .stylesheet)
        (locateIn_follows_of BuildError.lacks_file)).imp
          (fun _ => id) fun _ lacks => .obstacle (lacks.imp attaches)

theorem segments_follow {importing : Origin → ModuleName → ResolveM (StateM σ) Unit}
    {source : SourceFile}
    (imports : ∀ origin, ∀ name ∈ importedNames source,
      Follows run (importing origin name) (fun _ => True) run.Ends)
    (attaches : run.Clear → ∀ segment ∈ source.segments,
      run.view.CanAttach run.resolver source.path segment) :
    Follows run (source.segments.forM (resolveSegment run.resolver importing source))
      (fun _ => True) run.Ends := by
  refine .forM fun segment member => resolveSegment_follows (fun origin name imported => ?_)
    fun clear => attaches clear segment member
  rw [importedNames_eq_flatMap] at imports
  exact imports origin name (List.mem_flatMap.mpr ⟨segment, member, imported⟩)

theorem resolveModule_follows (bounded : run.view.Bounded) (depth : Nat) {chain : List ModuleName}
    (deep : run.depth = chain.length + depth) (origin : Origin) {name : ModuleName}
    (route : run.view.Route run.resolver run.matching run.roots chain name) :
    Follows run (resolveModule run.resolver depth chain origin name : ResolveM (StateM σ) Unit)
      (fun _ => True) run.Ends := by
  -- Each import makes the chain longer by one and leaves one less to go.
  induction depth generalizing chain origin name with
  | zero =>
    rw [resolveModule]
    refine unlessMet_follows route fun fresh => ?_
    refine (locateReached_follows origin route.reached).bind fun path _ => ?_
    -- A route that goes on here would be longer than the files allow.
    refine .throw (.obstacle ⟨fun _ => BuildError.noConfusion, fun clear => ?_⟩)
    have := route.length_le bounded fresh
    have := clear.deep
    omega
  | succ depth inductionHypothesis =>
    rw [resolveModule]
    refine unlessMet_follows route fun fresh => ?_
    refine (locateReached_follows origin route.reached).bind fun path found => ?_
    refine (readReached_follows route.reached found).bind fun source loads => ?_
    refine Follows.bind (.modify fun _ _ kept => kept) fun _ _ => ?_
    refine Follows.bind (segments_follow (fun origin next imported => ?_) fun clear =>
      clear.attachesReached name source route.reached loads) fun _ _ =>
        registerSource_follows loads
    refine inductionHypothesis ?_ origin (route.extend fresh ⟨source, loads, imported⟩)
    rw [List.length_append, List.length_singleton]
    omega

end

/-! ## Calls -/

section

variable [LawfulFileSystem σ]

theorem nestingBound_follows (text : Text) :
    Follows run (nestingBound run.resolver text : ResolveM (StateM σ) Nat)
      (fun depth => depth = run.view.sizeBound + text.byteSize + run.resolver.bindings.size)
      fails := by
  refine (Follows.lift Asks.sizeBound).bind fun bound same => ?_
  rw [same]
  exact .pure rfl

theorem resolveImports_follows (bounded : run.view.Bounded) {entry : SourceFile}
    (visited : entry ∈ run.entries) (asked : importedNames entry ⊆ run.roots)
    (deep : run.depth =
      run.view.sizeBound + entry.text.byteSize + run.resolver.bindings.size) :
    Follows run (resolveImports run.resolver entry : ResolveM (StateM σ) Unit) (fun _ => True)
      run.Ends := by
  refine (nestingBound_follows entry.text).bind fun depth same => ?_
  refine segments_follow (fun origin name imported => ?_) fun clear => clear.attaches entry visited
  refine resolveModule_follows bounded depth ?_ origin (.root (asked imported))
  rw [deep, same, List.length_nil, Nat.zero_add]

theorem loadBindings_follows (bounded : run.view.Bounded)
    (asked : run.resolver.bindings.values.map Prod.fst ⊆ run.roots)
    (deep : run.depth = run.view.sizeBound + run.resolver.bindings.size) :
    Follows run (loadBindings run.resolver : ResolveM (StateM σ) Unit) (fun _ => True)
      run.Ends := by
  refine (nestingBound_follows []).bind fun depth same => ?_
  refine .forM fun binding member => ?_
  refine resolveModule_follows bounded depth ?_ _ (.root (asked (List.mem_map_of_mem member)))
  rw [deep, same, List.length_nil, Nat.zero_add]
  rfl

theorem resolveImports_admits (resolver : Resolver) (entry : SourceFile) (resolution : Resolution)
    (files : σ) {trusted : Prop}
    (faithful : trusted → resolution.registry.Faithful (FileSystem.view files) resolver) :
    let run := ResolutionStart.ofImports (FileSystem.view files) resolver
      resolution.registry.matching entry trusted
    run.Admits (fun _ => True) run.Ends
      (((resolveImports resolver entry : ResolveM (StateM σ) Unit).run.run resolution).run
        files) := by
  intro run
  have follows : Follows run (resolveImports resolver entry : ResolveM (StateM σ) Unit) _ _ :=
    resolveImports_follows (LawfulFileSystem.bounded files) List.mem_cons_self
      (List.Subset.refl _) rfl
  exact follows resolution files ⟨rfl, rfl, faithful⟩

theorem loadBindings_admits (resolver : Resolver) (resolution : Resolution) (files : σ)
    {trusted : Prop}
    (faithful : trusted → resolution.registry.Faithful (FileSystem.view files) resolver) :
    let run := ResolutionStart.ofBindings (FileSystem.view files) resolver
      resolution.registry.matching trusted
    run.Admits (fun _ => True) run.Ends
      (((loadBindings resolver : ResolveM (StateM σ) Unit).run.run resolution).run files) := by
  intro run
  have follows : Follows run (loadBindings resolver : ResolveM (StateM σ) Unit) _ _ :=
    loadBindings_follows (LawfulFileSystem.bounded files) (List.Subset.refl _) rfl
  exact follows resolution files ⟨rfl, rfl, faithful⟩

end

end PageCompiler
