import Mathlib.Data.Finset.Dedup
import Mathlib.Data.Finset.Card
import PageCompiler.Proofs.Resolution.Cycles
import PageCompiler.Proofs.Resolution.Nesting

/-! # Chains of imports

Resolution follows import directives wherever they lead, and only the chain of modules on the way to
the current one keeps it from going round in circles. The names on a chain have different keys, and
each of them is a root or stands in a file, so imports nest at most as deep as these names have
keys. This is said of the run itself: resolution is watched at every moment, and a watch that is
silent on such chains never says anything; nor is a limit on nesting reached that is no lower than
their number of keys.
-/

namespace PageCompiler

open FileSystem (view)

/-! ## Chains -/

/-- A chain of some of the names, no two of which have one key. -/
structure ImportChain (matching : NameMatching) (names chain : List ModuleName) : Prop where
  distinct : (chain.map (ModuleName.key matching)).Nodup
  known : chain ⊆ names

/-- How many different keys the names have. -/
def keyCount (matching : NameMatching) (names : List ModuleName) : Nat :=
  (names.map (ModuleName.key matching)).toFinset.card

theorem ImportChain.length_le {matching : NameMatching} {names chain : List ModuleName}
    (simple : ImportChain matching names chain) : chain.length ≤ keyCount matching names := by
  rw [← List.length_map (ModuleName.key matching),
    ← List.toFinset_card_of_nodup simple.distinct]
  refine Finset.card_le_card fun key member => ?_
  rw [List.mem_toFinset] at member ⊢
  exact List.map_subset _ simple.known member

/-! ## Watching -/

section

variable {m : Type → Type} [Monad m] [FileSystem m] (watch : List ModuleName → ResolveM m Unit)
  (resolver : Resolver)

/-- Resolves a module; `watch` sees the chain whenever a module is asked for and whenever the chain
has become longer. -/
def resolveModuleWatched (depth : Nat) (chain : List ModuleName) (origin : Origin)
    (name : ModuleName) : ResolveM m Unit := do
  watch chain
  let registry := (← get).registry
  if registry.contains name then return
  match chainFrom? registry.matching chain (registry.keyOf name) with
  | some start => throw (.circularImport (cycleNames start name))
  | none =>
    let path ← locateModule resolver origin name
    match depth with
    | 0 => throw (.nestingLimit name.qualified)
    | depth + 1 =>
      let source ← readSource path
      modify fun resolution => { resolution with scans := resolution.scans + 1 }
      watch (chain ++ [name])
      source.segments.forM
        (resolveSegment resolver (resolveModuleWatched depth (chain ++ [name])) source)
      registerSource name source

/-- Resolves the imports of a file, which may nest up to `limit`. -/
def resolveImportsWatched (limit : Nat) (source : SourceFile) : ResolveM m Unit :=
  source.segments.forM
    (resolveSegment resolver (resolveModuleWatched watch resolver limit []) source)

/-- Resolves the bound modules, whose imports may nest up to `limit`. -/
def loadBindingsWatched (limit : Nat) : ResolveM m Unit :=
  resolver.bindings.values.forM fun (name, path) =>
    resolveModuleWatched watch resolver limit [] ⟨path, 0⟩ name

end

/-- A watch that is always silent leaves resolution as it is. -/
theorem resolveModuleWatched_silent {m : Type → Type} [Monad m] [LawfulMonad m] [FileSystem m]
    (resolver : Resolver) (depth : Nat) (chain : List ModuleName) :
    (resolveModuleWatched (fun _ => pure ()) resolver depth chain :
      Origin → ModuleName → ResolveM m Unit) = resolveModule resolver depth chain := by
  induction depth generalizing chain with
  | zero =>
    funext origin name
    rewrite [resolveModuleWatched, resolveModule, pure_bind]
    rfl
  | succ depth inductionHypothesis =>
    funext origin name
    rewrite [resolveModuleWatched, pure_bind]
    simp only [pure_bind, inductionHypothesis]
    rewrite [resolveModule]
    rfl

/-! ## Steps that run alike -/

section

variable {σ α β : Type} {around : Surroundings σ}

/-- In the states that the surroundings allow, the two steps run alike. -/
def Alike (around : Surroundings σ) (step other : ResolveM (StateM σ) α) : Prop :=
  ∀ (resolution : Resolution) (files : σ), resolution.registry.matching = around.matching →
    around.kept files →
    (step.run.run resolution).run files = (other.run.run resolution).run files

namespace Alike

theorem refl (step : ResolveM (StateM σ) α) : Alike around step step :=
  fun _ _ _ _ => rfl

theorem get_bind {next other : Resolution → ResolveM (StateM σ) α}
    (steps : ∀ (resolution : Resolution) (files : σ),
      resolution.registry.matching = around.matching → around.kept files →
      (((next resolution).run.run resolution).run files) =
        (((other resolution).run.run resolution).run files)) :
    Alike around (get >>= next) (get >>= other) :=
  steps

theorem bind {first other : ResolveM (StateM σ) β} {next nextOther : β → ResolveM (StateM σ) α}
    {between : β → Prop} (alike : Alike around first other)
    (develops : Develops around other between)
    (after : ∀ value, between value → Alike around (next value) (nextOther value)) :
    Alike around (first >>= next) (other >>= nextOther) := by
  intro resolution files matching kept
  have allowed := develops resolution files matching kept
  rw [resolve_bind_run, resolve_bind_run, alike resolution files matching kept]
  generalize (other.run.run resolution).run files = result at allowed
  obtain ⟨⟨outcome, middle⟩, left⟩ := result
  cases outcome with
  | error error => rfl
  | ok value =>
    exact after value (allowed.success value rfl) middle left
      (allowed.moves.matching_eq.trans matching) allowed.kept

theorem forM {list : List β} {step other : β → ResolveM (StateM σ) PUnit}
    (alike : ∀ element ∈ list, Alike around (step element) (other element))
    (develops : ∀ element ∈ list, Develops around (other element) (fun _ => True)) :
    Alike around (list.forM step) (list.forM other) := by
  induction list with
  | nil => exact refl _
  | cons element list inductionHypothesis =>
    refine (alike element List.mem_cons_self).bind (develops element List.mem_cons_self)
      fun _ _ => ?_
    exact inductionHypothesis (fun other member => alike other (List.mem_cons_of_mem _ member))
      fun other member => develops other (List.mem_cons_of_mem _ member)

end Alike

/-- A module that is registered or on the way to itself is not resolved, in neither run. -/
theorem unlessMet_alike (chain : List ModuleName) (name : ModuleName)
    {rest other : ResolveM (StateM σ) Unit}
    (alike : (∀ passed ∈ chain, passed.key around.matching ≠ name.key around.matching) →
      Alike around rest other) :
    Alike around
      (do
        let registry := (← get).registry
        if registry.contains name then return
        match chainFrom? registry.matching chain (registry.keyOf name) with
        | some start => throw (.circularImport (cycleNames start name))
        | none => rest)
      (do
        let registry := (← get).registry
        if registry.contains name then return
        match chainFrom? registry.matching chain (registry.keyOf name) with
        | some start => throw (.circularImport (cycleNames start name))
        | none => other) := by
  refine .get_bind fun resolution files matching kept => ?_
  dsimp only [Registry.keyOf]
  rw [matching]
  cases resolution.registry.contains name with
  | true => rfl
  | false =>
    cases met : chainFrom? around.matching chain (name.key around.matching) with
    | some start => rfl
    | none => exact alike (chainFrom?_eq_none_iff.mp met) resolution files matching kept

end

section

variable {σ : Type} {around : Surroundings σ} [FileSystem (StateM σ)]

theorem resolveSegment_alike {importing importingToo : Origin → ModuleName →
      ResolveM (StateM σ) Unit} {source : SourceFile} {segment : Segment}
    (imports : ∀ origin, ∀ name ∈ segment.importedNames,
      Alike around (importing origin name) (importingToo origin name)) :
    Alike around (resolveSegment around.resolver importing source segment)
      (resolveSegment around.resolver importingToo source segment) := by
  rw [Segment.importedNames] at imports
  rw [resolveSegment, resolveSegment]
  cases content : segment.content with
  | script _ => exact .refl _
  | block _ _ => exact .refl _
  | directive directive =>
    rw [content] at imports
    cases directive with
    | importModule name => exact imports _ name List.mem_cons_self
    | exportNames _ => exact .refl _
    | includeFile _ => exact .refl _
    | includeStylesheet _ => exact .refl _

variable (stable : Stable around.kept around.seen)

include stable

theorem segments_alike {importing importingToo : Origin → ModuleName → ResolveM (StateM σ) Unit}
    {source : SourceFile}
    (imports : ∀ origin, ∀ name ∈ importedNames source,
      Alike around (importing origin name) (importingToo origin name))
    (develops : ∀ origin, ∀ name ∈ importedNames source,
      Develops around (importingToo origin name) (fun _ => True)) :
    Alike around (source.segments.forM (resolveSegment around.resolver importing source))
      (source.segments.forM (resolveSegment around.resolver importingToo source)) := by
  have listed {segment : Segment} (member : segment ∈ source.segments) {name : ModuleName}
      (imported : name ∈ segment.importedNames) : name ∈ importedNames source := by
    rw [importedNames_eq_flatMap]
    exact List.mem_flatMap.mpr ⟨segment, member, imported⟩
  exact .forM
    (fun segment member => resolveSegment_alike fun origin name imported =>
      imports origin name (listed member imported))
    fun segment member => resolveSegment_develops stable fun origin name imported =>
      develops origin name (listed member imported)

/-- A watch that is silent on chains of different keys is never heard, and no limit is reached that
leaves room for as many names as there are keys. -/
theorem resolveModuleWatched_alike (bounded : around.seen.Bounded) {roots names : List ModuleName}
    (known : ∀ chain name, around.seen.Route around.resolver around.matching roots chain name →
      chain ++ [name] ⊆ names)
    {watch : List ModuleName → ResolveM (StateM σ) Unit}
    (silent : ∀ chain, ImportChain around.matching names chain → watch chain = pure ())
    (limit depth : Nat) {chain : List ModuleName}
    (enough : keyCount around.matching names ≤ chain.length + limit)
    (deep : around.seen.sizeBound + roots.length ≤ chain.length + depth) (origin : Origin)
    {name : ModuleName}
    (route : around.seen.Route around.resolver around.matching roots chain name) :
    Alike around (resolveModuleWatched watch around.resolver limit chain origin name)
      (resolveModule around.resolver depth chain origin name) := by
  have simple {chain : List ModuleName} {name : ModuleName}
      (route : around.seen.Route around.resolver around.matching roots chain name) :
      ImportChain around.matching names chain :=
    ⟨route.distinct, fun _ member => known chain name route (List.mem_append_left _ member)⟩
  -- The name comes to the chain when it is known not to be on it.
  have longer {chain : List ModuleName} {name : ModuleName}
      (route : around.seen.Route around.resolver around.matching roots chain name)
      (fresh : ∀ passed ∈ chain, passed.key around.matching ≠ name.key around.matching) :
      ImportChain around.matching names (chain ++ [name]) :=
    ⟨route.distinct_append fresh, known chain name route⟩
  induction limit generalizing depth chain origin name with
  | zero =>
    rw [resolveModuleWatched, silent chain (simple route), pure_bind]
    cases depth <;>
    · rw [resolveModule]
      refine unlessMet_alike chain name fun fresh => ?_
      have := (longer route fresh).length_le
      rw [List.length_append, List.length_singleton] at this
      omega
  | succ limit inductionHypothesis =>
    rw [resolveModuleWatched, silent chain (simple route), pure_bind]
    cases depth with
    | zero =>
      rw [resolveModule]
      refine unlessMet_alike chain name fun fresh => ?_
      have := route.length_le bounded fresh
      omega
    | succ depth =>
      rw [resolveModule]
      refine unlessMet_alike chain name fun fresh => ?_
      refine (Alike.refl _).bind (locateModule_develops stable origin name) fun path located => ?_
      refine (Alike.refl _).bind (readSource_develops stable path) ?_
      rintro source ⟨text, read, scanned⟩
      have loads : around.seen.Loads around.resolver name source :=
        ⟨path, text, located, read, scanned⟩
      refine (Alike.refl _).bind (.modify fun _ => .refl) fun _ _ => ?_
      rw [silent _ (longer route fresh), pure_bind]
      have next {next : ModuleName} (imported : next ∈ importedNames source) :
          around.seen.Route around.resolver around.matching roots (chain ++ [name]) next :=
        route.extend fresh ⟨source, loads, imported⟩
      have room : keyCount around.matching names ≤ (chain ++ [name]).length + limit ∧
          around.seen.sizeBound + roots.length ≤ (chain ++ [name]).length + depth := by
        rw [List.length_append, List.length_singleton]
        omega
      have develops (origin : Origin) (imported : ModuleName)
          (member : imported ∈ importedNames source) :=
        resolveModule_develops stable bounded depth room.2 origin (next member)
      exact (segments_alike stable (fun origin imported member =>
          inductionHypothesis depth room.1 room.2 origin (next member)) develops).bind
        (segments_develop stable develops) fun _ _ => .refl _

end

/-! ## Calls -/

/-- The names in the import directives of all files. -/
def Store.namesInFiles (store : Store) : List ModuleName :=
  store.tree.files.values.flatMap namesIn

/-- How resolving something in a store ends, and what it leaves. -/
def Resolution.result (resolution : Resolution) (store : Store)
    (step : ResolveM (StateM Store) Unit) : (Except BuildError Unit × Resolution) × Store :=
  (step.run.run resolution).run store

/-- What a resolution in a store is surrounded by. -/
def Store.surroundings (store : Store) (resolver : Resolver) (matching : NameMatching) :
    Surroundings Store where
  kept other := other.tree = store.tree ∧ other.rules = store.rules
  seen := view store
  resolver := resolver
  matching := matching

theorem Store.stable_surroundings (store : Store) (resolver : Resolver) (matching : NameMatching) :
    Stable (store.surroundings resolver matching).kept
      (store.surroundings resolver matching).seen :=
  store.stable

section

variable {store : Store} {resolver : Resolver} {matching : NameMatching} {roots : List ModuleName}
  {watch : List ModuleName → ResolveM (StateM Store) Unit}
  (silent : ∀ chain, ImportChain matching (roots ++ store.namesInFiles) chain →
    watch chain = pure ())
  {limit depth : Nat} (enough : keyCount matching (roots ++ store.namesInFiles) ≤ limit)
  (deep : (view store).sizeBound + roots.length ≤ depth)

include deep

theorem root_develops (origin : Origin) {name : ModuleName} (member : name ∈ roots) :
    Develops (store.surroundings resolver matching)
      (resolveModule resolver depth [] origin name : ResolveM (StateM Store) Unit)
      (fun _ => True) := by
  refine resolveModule_develops (store.stable_surroundings resolver matching)
    (LawfulFileSystem.bounded store) depth ?_ origin (.root member)
  rw [List.length_nil, Nat.zero_add]
  exact deep

include silent enough

theorem root_alike (origin : Origin) {name : ModuleName} (member : name ∈ roots) :
    Alike (store.surroundings resolver matching)
      (resolveModuleWatched watch resolver limit [] origin name)
      (resolveModule resolver depth [] origin name) := by
  have stable := store.stable_surroundings resolver matching
  refine resolveModuleWatched_alike stable (LawfulFileSystem.bounded store)
    (fun _ _ route => route.subset fun _ _ => Store.mem_values_of_read) silent limit depth ?_ ?_
    origin (.root member)
  all_goals rw [List.length_nil, Nat.zero_add]
  · exact enough
  · exact deep

end

section

variable {store : Store} {resolver : Resolver} {resolution : Resolution}
  {watch : List ModuleName → ResolveM (StateM Store) Unit} {limit : Nat}

theorem resolveImportsWatched_result {path : Path} {text : Text} {source : SourceFile}
    (scanned : SourceFile.scan path text = .ok source)
    (silent : ∀ chain, ImportChain resolution.registry.matching
      (importedNames source ++ store.namesInFiles) chain → watch chain = pure ())
    (enough : keyCount resolution.registry.matching
      (importedNames source ++ store.namesInFiles) ≤ limit) :
    resolution.result store (resolveImportsWatched watch resolver limit source) =
      resolution.result store (resolveImports resolver source) := by
  have deep : (view store).sizeBound + (importedNames source).length ≤
      (view store).sizeBound + source.text.byteSize + resolver.bindings.size := by
    have := length_importedNames_le_text scanned
    omega
  have stable := store.stable_surroundings resolver resolution.registry.matching
  exact segments_alike stable
    (fun origin name member => root_alike silent enough deep origin member)
    (fun origin name member => root_develops deep origin member) resolution store rfl ⟨rfl, rfl⟩

theorem loadBindingsWatched_result
    (silent : ∀ chain, ImportChain resolution.registry.matching
      (resolver.boundNames ++ store.namesInFiles) chain → watch chain = pure ())
    (enough : keyCount resolution.registry.matching
      (resolver.boundNames ++ store.namesInFiles) ≤ limit) :
    resolution.result store (loadBindingsWatched watch resolver limit) =
      resolution.result store (loadBindings resolver) := by
  have deep : (view store).sizeBound + resolver.boundNames.length ≤
      (view store).sizeBound + Text.byteSize [] + resolver.bindings.size := by
    rw [resolver.length_boundNames]
    omega
  have bound {binding : ModuleName × Path} (member : binding ∈ resolver.bindings.values) :
      binding.1 ∈ resolver.boundNames := List.mem_map_of_mem member
  have alike : Alike (store.surroundings resolver resolution.registry.matching)
      (loadBindingsWatched watch resolver limit) _ :=
    .forM (fun binding member => root_alike silent enough deep ⟨binding.2, 0⟩ (bound member))
      fun binding member => root_develops deep ⟨binding.2, 0⟩ (bound member)
  exact alike resolution store rfl ⟨rfl, rfl⟩

end

/-- Whatever the files import, resolution ends, and never because imports nest too deeply. At every
moment the chain consists of names with different keys, each of which stands in an import directive
of the source file, or is bound, or stands in an import directive of some file: what a watch would
do at any other chain, it never does. Such a chain has no more names than they have keys, so a limit
of as many makes no difference. -/
theorem resolution_terminates (store : Store) (resolver : Resolver) (resolution : Resolution)
    {path : Path} {text : Text} {source : SourceFile}
    (scanned : SourceFile.scan path text = .ok source) :
    let matching := resolution.registry.matching
    let sourceNames := importedNames source ++ store.namesInFiles
    let bindingNames := resolver.boundNames ++ store.namesInFiles
    (∀ name,
      (resolution.result store (resolveImports resolver source)).1.1 ≠ .error (.nestingLimit name) ∧
      (resolution.result store (loadBindings resolver)).1.1 ≠ .error (.nestingLimit name)) ∧
    (∀ (watch : List ModuleName → ResolveM (StateM Store) Unit) (limit : Nat),
      (∀ chain, ImportChain matching sourceNames chain → watch chain = pure ()) →
      keyCount matching sourceNames ≤ limit →
      resolution.result store (resolveImportsWatched watch resolver limit source) =
        resolution.result store (resolveImports resolver source)) ∧
    (∀ (watch : List ModuleName → ResolveM (StateM Store) Unit) (limit : Nat),
      (∀ chain, ImportChain matching bindingNames chain → watch chain = pure ()) →
      keyCount matching bindingNames ≤ limit →
      resolution.result store (loadBindingsWatched watch resolver limit) =
        resolution.result store (loadBindings resolver)) ∧
    ∀ names chain, ImportChain matching names chain → chain.length ≤ keyCount matching names := by
  intro matching sourceNames bindingNames
  have stable := store.stable_surroundings resolver matching
  have bounded : (view store).Bounded := LawfulFileSystem.bounded store
  have imports := resolveImports_develops stable bounded scanned resolution store rfl ⟨rfl, rfl⟩
  have bindings := loadBindings_develops stable bounded resolution store rfl ⟨rfl, rfl⟩
  exact ⟨fun name => ⟨fun failed => imports.failure _ failed name rfl,
      fun failed => bindings.failure _ failed name rfl⟩,
    fun _ _ silent enough => resolveImportsWatched_result scanned silent enough,
    fun _ _ silent enough => loadBindingsWatched_result silent enough,
    fun _ _ simple => simple.length_le⟩

/-- Two modules that import each other, one of them in another letter case. -/
def circularPanels : Store :=
  .ofFiles [(.ofString "/src/ui/Panel.js", ":import ui.Icon\n".toUTF8),
    (.ofString "/src/ui/Icon.js", ":import UI.panel\n".toUTF8)] []

def panelEntry : SourceFile :=
  scanned "/src/main.js" ":import ui.Panel\n"

/-- Ends the resolution where the chain is longer. -/
def refuseBeyond (length : Nat) (chain : List ModuleName) : ResolveM (StateM Store) Unit :=
  if chain.length ≤ length then pure () else throw (.nestingLimit [])

/-- The names have two keys. No chain is longer than that, and one is as long. -/
theorem resolution_terminates_circularPanels :
    let resolver : Resolver := .make [.ofString "/src"] (.make .ignoreCase .nested "js".toList) []
    let resolution : Resolution := ⟨.empty .ignoreCase, 0⟩
    keyCount .ignoreCase (importedNames panelEntry ++ circularPanels.namesInFiles) = 2 ∧
      resolution.result circularPanels
          (resolveImportsWatched (refuseBeyond 2) resolver 2 panelEntry) =
        resolution.result circularPanels (resolveImports resolver panelEntry) ∧
      (resolution.result circularPanels (resolveImports resolver panelEntry)).1.1 =
        .error (.circularImport ["ui.Panel".toList, "ui.Icon".toList, "UI.panel".toList]) ∧
      (resolution.result circularPanels
        (resolveImportsWatched (refuseBeyond 1) resolver 2 panelEntry)).1.1 =
          .error (.nestingLimit []) := by
  intro resolver resolution
  have scans : SourceFile.scan (.ofString "/src/main.js") ":import ui.Panel\n".toList =
      .ok panelEntry := scan_eq_scanned (by decide +kernel)
  have keys : keyCount .ignoreCase (importedNames panelEntry ++ circularPanels.namesInFiles) =
      2 := by
    decide +kernel
  obtain ⟨-, watched, -, short⟩ := resolution_terminates circularPanels resolver resolution scans
  refine ⟨keys, watched (refuseBeyond 2) 2 (fun chain simple => ?_) keys.le, ?_, ?_⟩
  · exact if_pos ((short _ chain simple).trans keys.le)
  · decide +kernel
  · decide +kernel

end PageCompiler
