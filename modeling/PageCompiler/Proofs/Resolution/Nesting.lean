import PageCompiler.Proofs.Resolution.Following
import PageCompiler.Proofs.Resolution.Moves

/-! # Every operation of resolution moves

The operations of resolution one by one, up to the calls that a build makes. A module is resolved
along a route of import directives, and a route without a cycle is too short for the limit on
nesting, so that limit ends no resolution.
-/

namespace PageCompiler

variable {σ : Type} {around : Surroundings σ}

/-! ## Errors -/

theorem BuildError.isWithinLimit_ofFileError (path : Path) (error : FileError) :
    (BuildError.ofFileError path error).IsWithinLimit := by
  intro name
  cases error <;> exact BuildError.noConfusion

/-- A module that is registered or on the way to itself is not resolved. -/
theorem unlessMet_develops (chain : List ModuleName) (name : ModuleName)
    {rest : ResolveM (StateM σ) Unit}
    (develops : (∀ passed ∈ chain, passed.key around.matching ≠ name.key around.matching) →
      Develops around rest (fun _ => True)) :
    Develops around (do
      let registry := (← get).registry
      if registry.contains name then return
      match chainFrom? registry.matching chain (registry.keyOf name) with
      | some start => throw (.circularImport (cycleNames start name))
      | none => rest) (fun _ => True) := by
  refine .get_bind fun resolution files matching kept => ?_
  dsimp only
  split
  · exact Develops.pure trivial resolution files matching kept
  · rw [Registry.keyOf, matching]
    split
    · exact Develops.throw (fun _ => BuildError.noConfusion) resolution files matching kept
    · next missing =>
      exact develops (chainFrom?_eq_none_iff.mp missing) resolution files matching kept

variable [FileSystem (StateM σ)] (stable : Stable around.kept around.seen)

include stable

/-! ## Files -/

theorem readText_develops (path : Path) :
    Develops around (readText path : ResolveM (StateM σ) Text)
      (fun text => around.seen.readText path = .ok text) := by
  refine (Develops.lift (.readText stable path)).bind fun outcome found => ?_
  change outcome = around.seen.readText path at found
  cases outcome with
  | ok text => exact .pure found.symm
  | error error => exact .throw (BuildError.isWithinLimit_ofFileError path error)

theorem readSource_develops (path : Path) :
    Develops around (readSource path : ResolveM (StateM σ) SourceFile)
      (fun source => ∃ text, around.seen.readText path = .ok text ∧
        SourceFile.scan path text = .ok source) := by
  refine (readText_develops stable path).bind fun text read => ?_
  cases scanned : SourceFile.scan path text with
  | ok source => exact .pure ⟨text, read, scanned⟩
  | error error => exact .throw fun _ => BuildError.noConfusion

theorem locateIn_develops (origin : Origin) (wanted : Text) (directories : List Path)
    (relative : Path) :
    Develops around
      (locateIn around.resolver origin wanted directories relative : ResolveM (StateM σ) Path)
      (fun path => (findFirst around.resolver.policy.matching relative directories :
        ReaderM View (Option Path)) around.seen = some path) := by
  refine (Develops.lift (.findFirst stable _ relative directories)).bind fun outcome same => ?_
  cases outcome with
  | some path => exact .pure same.symm
  | none => exact .throw fun _ => BuildError.noConfusion

/-! ## Attachments -/

theorem attachFile_develops (origin : Origin) (path : Path) (kind : Section) :
    Develops around (attachFile around.resolver origin path kind : ResolveM (StateM σ) Unit)
      (fun _ => True) := by
  refine .get_bind fun resolution files matching kept => ?_
  cases links : resolution.registry.link? origin.path path with
  | some linked =>
    exact ⟨kept, .single (.link links), fun _ _ => trivial, fun _ failed => nomatch failed⟩
  | none =>
    suffices attaches : Develops around (do
        let text ← readText path
        if around.resolver.excludes text then return
        modify fun resolution => { resolution with
          registry := resolution.registry.attach origin.path ⟨path, kind, text⟩ } :
          ResolveM (StateM σ) Unit) (fun _ => True) from attaches resolution files matching kept
    refine (readText_develops stable path).bind fun text read => ?_
    split
    · exact .pure trivial
    · next shown =>
      exact .modify fun _ => .single (.attach read (Bool.eq_false_iff.mpr shown) origin.path kind)

theorem locateInclude_develops (origin : Origin) (text : Text) :
    Develops around (locateInclude around.resolver origin text : ResolveM (StateM σ) Path)
      (fun _ => True) := by
  rw [locateInclude]
  split
  · refine (Develops.lift (.isFile stable _)).bind fun present _ => ?_
    split
    · exact .pure trivial
    · exact .throw fun _ => BuildError.noConfusion
  · exact (locateIn_develops stable _ _ _ _).imp fun _ _ => trivial

/-! ## Modules -/

theorem locateModule_develops (origin : Origin) (name : ModuleName) :
    Develops around (locateModule around.resolver origin name : ResolveM (StateM σ) Path)
      (fun path => around.seen.moduleFile? around.resolver name = some path) := by
  rw [locateModule, View.moduleFile?]
  cases around.resolver.bindings[name.key around.resolver.policy.matching]? with
  | some binding => exact .pure rfl
  | none => exact locateIn_develops stable _ _ _ _

theorem resolveSegment_develops {importing : Origin → ModuleName → ResolveM (StateM σ) Unit}
    {source : SourceFile} {segment : Segment}
    (imports : ∀ origin, ∀ name ∈ segment.importedNames,
      Develops around (importing origin name) (fun _ => True)) :
    Develops around (resolveSegment around.resolver importing source segment)
      (fun _ => True) := by
  rw [Segment.importedNames] at imports
  rw [resolveSegment]
  cases content : segment.content with
  | script _ => exact .pure trivial
  | block _ _ => exact .pure trivial
  | directive directive =>
    rw [content] at imports
    cases directive with
    | importModule name => exact imports _ name List.mem_cons_self
    | exportNames _ => exact .pure trivial
    | includeFile text =>
      exact (locateInclude_develops stable _ text).bind fun path _ =>
        attachFile_develops stable _ path _
    | includeStylesheet name =>
      exact (locateIn_develops stable _ _ _ _).bind fun path _ =>
        attachFile_develops stable _ path _

theorem segments_develop {importing : Origin → ModuleName → ResolveM (StateM σ) Unit}
    {source : SourceFile}
    (imports : ∀ origin, ∀ name ∈ importedNames source,
      Develops around (importing origin name) (fun _ => True)) :
    Develops around (source.segments.forM (resolveSegment around.resolver importing source))
      (fun _ => True) := by
  refine .forM fun segment member => resolveSegment_develops stable fun origin name imported => ?_
  rw [importedNames_eq_flatMap] at imports
  exact imports origin name (List.mem_flatMap.mpr ⟨segment, member, imported⟩)

theorem resolveModule_develops (bounded : around.seen.Bounded) {roots : List ModuleName}
    (depth : Nat) {chain : List ModuleName}
    (deep : around.seen.sizeBound + roots.length ≤ chain.length + depth) (origin : Origin)
    {name : ModuleName}
    (route : around.seen.Route around.resolver around.matching roots chain name) :
    Develops around
      (resolveModule around.resolver depth chain origin name : ResolveM (StateM σ) Unit)
      (fun _ => True) := by
  -- Each import makes the chain longer by one and leaves one less to go.
  induction depth generalizing chain origin name with
  | zero =>
    rw [resolveModule]
    refine unlessMet_develops chain name fun fresh => ?_
    -- A route that goes on here would be longer than the files allow.
    have := route.length_le bounded fresh
    omega
  | succ depth inductionHypothesis =>
    rw [resolveModule]
    refine unlessMet_develops chain name fun fresh => ?_
    refine (locateModule_develops stable origin name).bind fun path located => ?_
    refine (readSource_develops stable path).bind ?_
    rintro source ⟨text, read, scanned⟩
    have loads : around.seen.Loads around.resolver name source :=
      ⟨path, text, located, read, scanned⟩
    refine Develops.bind (.modify fun _ => .refl) fun _ _ => ?_
    refine Develops.bind (segments_develop stable fun origin next imported => ?_) fun _ _ =>
      registerSource_develops loads
    refine inductionHypothesis ?_ origin (route.extend fresh ⟨source, loads, imported⟩)
    rw [List.length_append, List.length_singleton]
    omega

/-! ## Calls -/

theorem nestingBound_develops (text : Text) :
    Develops around (nestingBound around.resolver text : ResolveM (StateM σ) Nat)
      (fun depth => depth =
        around.seen.sizeBound + text.byteSize + around.resolver.bindings.size) := by
  refine (Develops.lift (.sizeBound stable)).bind fun bound same => ?_
  rw [same]
  exact .pure rfl

/-- The bytes of the entry file are enough for the names that it imports. -/
theorem resolveImports_develops (bounded : around.seen.Bounded) {path : Path} {text : Text}
    {entry : SourceFile} (scanned : SourceFile.scan path text = .ok entry) :
    Develops around (resolveImports around.resolver entry : ResolveM (StateM σ) Unit)
      (fun _ => True) := by
  have named := length_importedNames_le_text scanned
  refine (nestingBound_develops stable entry.text).bind fun depth same => ?_
  refine segments_develop stable fun origin name imported => ?_
  refine resolveModule_develops stable bounded depth ?_ origin (.root imported)
  rw [same, List.length_nil]
  omega

/-- Each binding adds one to the limit, which is enough for its name. -/
theorem loadBindings_develops (bounded : around.seen.Bounded) :
    Develops around (loadBindings around.resolver : ResolveM (StateM σ) Unit)
      (fun _ => True) := by
  refine (nestingBound_develops stable []).bind fun depth same => ?_
  refine .forM fun binding member => ?_
  have route : around.seen.Route around.resolver around.matching around.resolver.boundNames []
      binding.1 := .root (List.mem_map_of_mem member)
  refine resolveModule_develops stable bounded depth ?_ _ route
  rw [same, Resolver.length_boundNames, List.length_nil]
  omega

end PageCompiler
