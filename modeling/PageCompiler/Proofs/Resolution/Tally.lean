import PageCompiler.Proofs.Build.RegisteredImports
import PageCompiler.Proofs.FileSystem.ReadCount
import PageCompiler.Proofs.Resolution.Following

/-! # What resolution counts

While modules are resolved, the scanned files are those of the registered modules and those of the
modules on the way, which are scanned but not registered yet. The files that were read are these
and the stored attachments. A module on the way cannot be registered by what it imports, since that
would be a cycle, so in the end it is registered under a new key. `Tallies` says this of every step,
and that the step would be the same if registering refused every name that is registered.
-/

namespace PageCompiler

/-! ## Registering new names only -/

section

variable {m : Type → Type} [Monad m]

/-- Registers a module but refuses every name that is registered, be it for the same file. -/
def registerNew (name : ModuleName) (source : SourceFile) : ResolveM m Unit := do
  match (← get).registry.lookup? name with
  | some existing => throw (.duplicateModule name.qualified existing.path source.path)
  | none => registerSource name source

variable [FileSystem m] (registering : ModuleName → SourceFile → ResolveM m Unit)
  (resolver : Resolver)

/-- Resolves a module; `registering` registers it and the modules that it imports. -/
def resolveModuleBy (depth : Nat) (chain : List ModuleName) (origin : Origin)
    (name : ModuleName) : ResolveM m Unit := do
  let registry := (← get).registry
  if registry.contains name then return
  match chainFrom? registry.matching chain (registry.keyOf name) with
  | some start => throw (.circularImport (cycleNames start name))
  | none =>
    let path ← locateModule resolver origin name
    match depth with
    | 0 => throw (.nestingLimit name.qualified)
    | depth + 1 =>
      let source ← readSource path
      modify fun resolution => { resolution with scans := resolution.scans + 1 }
      source.segments.forM
        (resolveSegment resolver (resolveModuleBy depth (chain ++ [name])) source)
      registering name source

def loadBindingsBy : ResolveM m Unit := do
  let depth ← nestingBound resolver []
  resolver.bindings.values.forM fun (name, path) =>
    resolveModuleBy registering resolver depth [] ⟨path, 0⟩ name

def resolveImportsBy (source : SourceFile) : ResolveM m Unit := do
  let depth ← nestingBound resolver source.text
  source.segments.forM
    (resolveSegment resolver (resolveModuleBy registering resolver depth []) source)

/-- The steps that resolve an entry file, where `registering` registers the modules. -/
def resolutionStepsBy (source : SourceFile) : ResolveM m Unit := do
  loadBindingsBy registering resolver
  resolveImportsBy registering resolver source

end

section

variable {m : Type → Type} [Monad m] [FileSystem m] (resolver : Resolver)

theorem resolveModuleBy_registerSource (depth : Nat) (chain : List ModuleName) :
    (resolveModuleBy registerSource resolver depth chain :
      Origin → ModuleName → ResolveM m Unit) = resolveModule resolver depth chain := by
  induction depth generalizing chain with
  | zero =>
    funext origin name
    rewrite [resolveModuleBy, resolveModule]
    rfl
  | succ depth inductionHypothesis =>
    funext origin name
    rewrite [resolveModuleBy, resolveModule]
    dsimp only
    rewrite [inductionHypothesis]
    rfl

/-- Registering as resolution does gives resolution itself. -/
theorem resolutionStepsBy_registerSource (source : SourceFile) :
    (resolutionStepsBy registerSource resolver source : ResolveM m Unit) =
      resolutionSteps resolver source := by
  simp only [resolutionStepsBy, loadBindingsBy, resolveImportsBy, resolutionSteps, loadBindings,
    resolveImports, resolveModuleBy_registerSource]

end

/-! ## The books -/

/-- Any error but the one for a second file of one module. -/
def BuildError.IsNoClash (error : BuildError) : Prop :=
  ∀ (name : Text) (existing conflicting : Path), error ≠ .duplicateModule name existing conflicting

/-- What is under way: the names that are being resolved, and how many files have been scanned or
read for something that is not in the registry yet. -/
structure UnderWay where
  chain : List ModuleName
  scanned : Nat
  read : Nat

/-- What is fixed while a resolution is counted. -/
structure Counting (σ : Type) where
  count : σ → Nat
  /-- How many files had been read before. -/
  start : Nat
  /-- No included file is left out. -/
  complete : Prop

section

variable {σ : Type}

/-- The scanned files are those of the registered modules and those under way, the files that were
read are these and the stored attachments, and no name on the way is registered or there twice. -/
structure Counting.Balances (counting : Counting σ) (underWay : UnderWay)
    (resolution : Resolution) (files : σ) : Prop where
  unregistered : ∀ name ∈ underWay.chain, resolution.registry.contains name = false
  distinct : (underWay.chain.map resolution.registry.keyOf).Nodup
  scans : resolution.scans = resolution.registry.size + underWay.scanned
  reads : counting.complete → counting.count files = counting.start + resolution.registry.size +
    resolution.registry.attachments.size + underWay.read

/-- From one balance the step comes to the other one, unless it ends with an error, which is not a
clash of modules; and the step that registers new names only does the same. -/
def Tallies {α : Type} (counting : Counting σ) (before : UnderWay)
    (step new : ResolveM (StateM σ) α) (after : UnderWay) : Prop :=
  ∀ (resolution : Resolution) (files : σ), counting.Balances before resolution files →
    (new.run.run resolution).run files = (step.run.run resolution).run files ∧
      match (step.run.run resolution).run files with
      | ((.ok _, resolution), files) => counting.Balances after resolution files
      | ((.error error, _), _) => error.IsNoClash

namespace Tallies

variable {α β : Type} {counting : Counting σ} {before between after : UnderWay}

theorem pure (value : α) :
    Tallies counting before (Pure.pure value : ResolveM (StateM σ) α) (Pure.pure value) before :=
  fun _ _ balances => ⟨rfl, balances⟩

theorem throw {error : BuildError} (noClash : error.IsNoClash) :
    Tallies counting before (throw error : ResolveM (StateM σ) α) (throw error) after :=
  fun _ _ _ => ⟨rfl, noClash⟩

theorem bind {first firstNew : ResolveM (StateM σ) β} {next nextNew : β → ResolveM (StateM σ) α}
    (early : Tallies counting before first firstNew between)
    (late : ∀ value, Tallies counting between (next value) (nextNew value) after) :
    Tallies counting before (first >>= next) (firstNew >>= nextNew) after := by
  intro resolution files balances
  obtain ⟨same, reached⟩ := early resolution files balances
  rw [resolve_bind_run, resolve_bind_run, same]
  generalize (first.run.run resolution).run files = result at reached
  obtain ⟨⟨error | value, middle⟩, left⟩ := result
  · exact ⟨rfl, reached⟩
  · exact late value middle left reached

theorem get_bind {next nextNew : Resolution → ResolveM (StateM σ) α}
    (steps : ∀ (resolution : Resolution) (files : σ), counting.Balances before resolution files →
      ((nextNew resolution).run.run resolution).run files =
          ((next resolution).run.run resolution).run files ∧
        match ((next resolution).run.run resolution).run files with
        | ((.ok _, resolution), files) => counting.Balances after resolution files
        | ((.error error, _), _) => error.IsNoClash) :
    Tallies counting before (get >>= next) (get >>= nextNew) after :=
  steps

theorem forM {list : List β} {step new : β → ResolveM (StateM σ) PUnit}
    (steps : ∀ element ∈ list, Tallies counting before (step element) (new element) before) :
    Tallies counting before (list.forM step) (list.forM new) before := by
  induction list with
  | nil => exact pure _
  | cons element list inductionHypothesis =>
    refine (steps element List.mem_cons_self).bind fun _ => ?_
    exact inductionHypothesis fun other member => steps other (List.mem_cons_of_mem _ member)

/-- A question that reads no file. -/
theorem lift {action : StateM σ α} (keeps : KeepsCount counting.count action) :
    Tallies counting before (liftM action : ResolveM (StateM σ) α) (liftM action) before :=
  fun _ files balances => ⟨rfl, balances.unregistered, balances.distinct, balances.scans,
    fun complete => (keeps files).trans (balances.reads complete)⟩

end Tallies

end

/-! ## Operations -/

section

variable {σ : Type} {counting : Counting σ} {underWay : UnderWay}

/-- Attachments and reads may change while the modules stay as they are. -/
theorem Counting.Balances.withRegistry {resolution : Resolution} {files : σ}
    (balances : counting.Balances underWay resolution files) (registry : Registry)
    (matching : registry.matching = resolution.registry.matching)
    (modules : registry.modules = resolution.registry.modules) (left : σ) (read : Nat)
    (reads : counting.complete → counting.count left = counting.start + resolution.registry.size +
      registry.attachments.size + read) :
    counting.Balances { underWay with read := read } ⟨registry, resolution.scans⟩ left := by
  have keys : registry.keyOf = resolution.registry.keyOf := by
    funext name
    rw [Registry.keyOf, Registry.keyOf, matching]
  have size : registry.size = resolution.registry.size := by
    rw [Registry.size, Registry.size, modules]
  refine ⟨fun name member => ?_, ?_, ?_, ?_⟩
  · dsimp only
    rw [Registry.contains, keys, modules]
    exact balances.unregistered name member
  · dsimp only
    rw [keys]
    exact balances.distinct
  · dsimp only
    rw [size]
    exact balances.scans
  · dsimp only
    rw [size]
    exact reads

theorem BuildError.isNoClash_ofFileError (path : Path) (error : FileError) :
    (BuildError.ofFileError path error).IsNoClash := by
  intro name existing conflicting
  cases error <;> exact BuildError.noConfusion

namespace Registry

/-- An attachment that cannot be linked is not stored, so attaching stores one more. -/
theorem size_attach {registry : Registry} {source path : Path}
    (missing : registry.link? source path = none) (attachment : Attachment)
    (located : attachment.path = path) :
    (registry.attach source attachment).attachments.size = registry.attachments.size + 1 := by
  have fresh : registry.attachments.contains path.key = false := by
    rw [← registry.isSome_link? source, missing]
    rfl
  rw [← Bool.not_eq_true, Std.TreeMap.contains_iff_mem] at fresh
  rw [attach_attachments, located, Std.TreeMap.size_insertIfNew, if_neg fresh]

variable {registry : Registry} {compiled : CompiledModule}

theorem lookup?_eq_none_iff {name : ModuleName} :
    registry.lookup? name = none ↔ registry.contains name = false := by
  rw [lookup?, contains, Std.TreeMap.contains_eq_isSome_getElem?, Option.isSome_eq_false_iff,
    Option.isNone_iff_eq_none]

theorem register_of_fresh (fresh : registry.contains compiled.name = false) :
    registry.register compiled = .ok (compiled, registry.add compiled) := by
  rw [register, check, lookup?_eq_none_iff.mpr fresh]
  rfl

theorem size_add (fresh : registry.contains compiled.name = false) :
    (registry.add compiled).size = registry.size + 1 := by
  rw [contains] at fresh
  rw [size, add, Std.TreeMap.size_insert, fresh, size]
  rfl

theorem contains_add_of_ne {name : ModuleName}
    (different : registry.keyOf compiled.name ≠ registry.keyOf name) :
    (registry.add compiled).contains name = registry.contains name := by
  have same : (registry.add compiled).modules[registry.keyOf name]? =
      registry.modules[registry.keyOf name]? := by
    rw [getElem?_add, if_neg different]
  rw [contains, contains, Std.TreeMap.contains_eq_isSome_getElem?,
    Std.TreeMap.contains_eq_isSome_getElem?]
  exact congrArg Option.isSome same

end Registry

/-- A module that was on the way is registered under a new key. -/
theorem Counting.Balances.add {chain : List ModuleName} {scanned read : Nat}
    {resolution : Resolution} {files : σ} {compiled : CompiledModule}
    (balances : counting.Balances ⟨chain ++ [compiled.name], scanned + 1, read + 1⟩ resolution
      files) :
    counting.Balances ⟨chain, scanned, read⟩
      { resolution with registry := resolution.registry.add compiled } files := by
  have fresh : resolution.registry.contains compiled.name = false :=
    balances.unregistered _ (List.mem_append_right _ List.mem_cons_self)
  have size := Registry.size_add fresh
  obtain ⟨unregistered, distinct, scans, reads⟩ := balances
  rw [List.map_append, List.nodup_append] at distinct
  obtain ⟨distinct, -, apart⟩ := distinct
  refine ⟨fun name member => ?_, distinct, ?_, fun complete => ?_⟩
  · have different := apart _ (List.mem_map_of_mem member) _ List.mem_cons_self
    rw [Registry.contains_add_of_ne different.symm]
    exact unregistered name (List.mem_append_left _ member)
  · dsimp only at scans ⊢
    omega
  · have counted := reads complete
    change counting.count files = counting.start + (resolution.registry.add compiled).size +
      resolution.registry.attachments.size + read
    dsimp only at counted
    omega

theorem registerSource_tallies (chain : List ModuleName) (name : ModuleName) (scanned read : Nat)
    (source : SourceFile) :
    Tallies counting ⟨chain ++ [name], scanned + 1, read + 1⟩
      (registerSource name source : ResolveM (StateM σ) Unit) (registerNew name source)
      ⟨chain, scanned, read⟩ := by
  refine .get_bind fun resolution files balances => ?_
  -- The name has been on the way since it was met, so nothing registered it meanwhile.
  have fresh : resolution.registry.contains name = false :=
    balances.unregistered name (List.mem_append_right _ List.mem_cons_self)
  dsimp only
  rw [Registry.lookup?_eq_none_iff.mpr fresh]
  refine ⟨rfl, ?_⟩
  cases compiles : compileModule resolution.registry name source with
  | error error =>
    obtain ⟨imported, importer, rfl⟩ := compileModule_error compiles
    exact fun _ _ _ => BuildError.noConfusion
  | ok compiled =>
    obtain rfl : compiled.name = name := by
      obtain ⟨body, -, made⟩ := exists_of_compileModule compiles
      rw [made]
    have registering : (.ok compiled >>= resolution.registry.register) =
        resolution.registry.register compiled := rfl
    rw [registering, Registry.register_of_fresh fresh]
    exact balances.add

/-- A module that is registered or on the way to itself is not resolved; any other one is on the way
from here on. -/
theorem unlessMet_tallies {chain : List ModuleName} {name : ModuleName} {scanned read : Nat}
    {rest restNew : ResolveM (StateM σ) Unit}
    (tallies : Tallies counting ⟨chain ++ [name], scanned, read⟩ rest restNew
      ⟨chain, scanned, read⟩) :
    Tallies counting ⟨chain, scanned, read⟩ (do
      let registry := (← get).registry
      if registry.contains name then return
      match chainFrom? registry.matching chain (registry.keyOf name) with
      | some start => throw (.circularImport (cycleNames start name))
      | none => rest) (do
      let registry := (← get).registry
      if registry.contains name then return
      match chainFrom? registry.matching chain (registry.keyOf name) with
      | some start => throw (.circularImport (cycleNames start name))
      | none => restNew) ⟨chain, scanned, read⟩ := by
  refine .get_bind fun resolution files balances => ?_
  dsimp only
  split
  · exact Tallies.pure () resolution files balances
  · next unmet =>
    split
    · exact ⟨rfl, fun _ _ _ => BuildError.noConfusion⟩
    · next missing =>
      refine tallies resolution files ⟨fun other member => ?_, ?_, balances.scans, balances.reads⟩
      · rcases List.mem_append.mp member with old | last
        · exact balances.unregistered other old
        · rw [List.mem_singleton.mp last]
          exact Bool.eq_false_iff.mpr unmet
      · rw [List.map_append]
        refine List.nodup_append.mpr ⟨balances.distinct, List.nodup_singleton _, ?_⟩
        intro key passed other last
        obtain ⟨earlier, member, rfl⟩ := List.mem_map.mp passed
        rw [List.mem_singleton.mp last]
        exact chainFrom?_eq_none_iff.mp missing earlier member

theorem scanned_tallies {underWay : UnderWay} :
    Tallies counting underWay
      (modify fun resolution => { resolution with scans := resolution.scans + 1 } :
        ResolveM (StateM σ) PUnit)
      (modify fun resolution => { resolution with scans := resolution.scans + 1 })
      { underWay with scanned := underWay.scanned + 1 } := by
  intro resolution files balances
  refine ⟨rfl, balances.unregistered, balances.distinct, ?_, balances.reads⟩
  have scans := balances.scans
  dsimp only
  omega

variable [FileSystem (StateM σ)]

/-- Reading leaves what was resolved as it is. -/
theorem readText_run (path : Path) (resolution : Resolution) (files : σ) :
    ((readText path : ResolveM (StateM σ) Text).run.run resolution).run files =
      ((((FileSystem.readText path : StateM σ _).run files).1.mapError (.ofFileError path),
        resolution), ((FileSystem.readText path : StateM σ _).run files).2) := by
  rw [readText, resolve_bind_run]
  have asked : ((liftM (FileSystem.readText path : StateM σ _) :
      ResolveM (StateM σ) (Except FileError Text)).run.run resolution).run files =
        ((.ok ((FileSystem.readText path : StateM σ _).run files).1, resolution),
          ((FileSystem.readText path : StateM σ _).run files).2) := rfl
  rw [asked]
  cases ((FileSystem.readText path : StateM σ _).run files).1 <;> rfl

theorem readSource_run (path : Path) (resolution : Resolution) (files : σ) :
    ((readSource path : ResolveM (StateM σ) SourceFile).run.run resolution).run files =
      match (FileSystem.readText path : StateM σ _).run files with
      | (.error error, left) => ((.error (.ofFileError path error), resolution), left)
      | (.ok text, left) =>
        (((SourceFile.scan path text).mapError (.ofScanError path), resolution), left) := by
  rw [readSource, resolve_bind_run, readText_run]
  obtain ⟨error | text, left⟩ := (FileSystem.readText path : StateM σ _).run files
  · rfl
  · dsimp only [Except.mapError]
    cases SourceFile.scan path text <;> rfl

/-- What attaching a file comes to. -/
theorem attachFile_run (resolver : Resolver) (origin : Origin) (path : Path) (kind : Section)
    (resolution : Resolution) (files : σ) :
    ((attachFile resolver origin path kind : ResolveM (StateM σ) Unit).run.run resolution).run
        files =
      match resolution.registry.link? origin.path path,
        (FileSystem.readText path : StateM σ _).run files with
      | some linked, _ => ((.ok (), { resolution with registry := linked }), files)
      | none, (.error error, left) => ((.error (.ofFileError path error), resolution), left)
      | none, (.ok text, left) =>
        ((.ok (), if resolver.excludes text then resolution else { resolution with
          registry := resolution.registry.attach origin.path ⟨path, kind, text⟩ }), left) := by
  rw [attachFile, get_bind_run]
  cases resolution.registry.link? origin.path path with
  | some linked => rfl
  | none =>
    dsimp only
    rw [resolve_bind_run, readText_run]
    obtain ⟨error | text, left⟩ := (FileSystem.readText path : StateM σ _).run files
    · rfl
    · dsimp only [Except.mapError]
      cases resolver.excludes text <;> rfl

variable (counts : CountsReads counting.count)

include counts

theorem readText_tallies (path : Path) :
    Tallies counting underWay (readText path : ResolveM (StateM σ) Text) (readText path)
      { underWay with read := underWay.read + 1 } := by
  have asked : Tallies counting underWay
      (liftM (FileSystem.readText path : StateM σ _) : ResolveM (StateM σ) _)
      (liftM (FileSystem.readText path : StateM σ _))
      { underWay with read := underWay.read + 1 } := by
    intro resolution files balances
    refine ⟨rfl, balances.withRegistry _ rfl rfl _ _ fun complete => ?_⟩
    have counted := balances.reads complete
    have more := counts.readText path files
    change counting.count ((FileSystem.readText path : StateM σ _).run files).2 = _
    omega
  refine asked.bind fun outcome => ?_
  cases outcome with
  | ok text => exact .pure text
  | error error => exact .throw (BuildError.isNoClash_ofFileError path error)

theorem readSource_tallies (path : Path) :
    Tallies counting underWay (readSource path : ResolveM (StateM σ) SourceFile) (readSource path)
      { underWay with read := underWay.read + 1 } := by
  refine (readText_tallies counts path).bind fun text => ?_
  cases SourceFile.scan path text with
  | ok source => exact .pure source
  | error error => exact .throw fun _ _ _ => BuildError.noConfusion

theorem locateIn_tallies (resolver : Resolver) (origin : Origin) (wanted : Text)
    (directories : List Path) (relative : Path) :
    Tallies counting underWay
      (locateIn resolver origin wanted directories relative : ResolveM (StateM σ) Path)
      (locateIn resolver origin wanted directories relative) underWay := by
  refine (Tallies.lift (counts.findFirst _ relative directories)).bind fun found => ?_
  cases found with
  | some path => exact .pure path
  | none => exact .throw fun _ _ _ => BuildError.noConfusion

/-- An included file is read if it is not stored, and then it is stored. -/
theorem attachFile_tallies {resolver : Resolver}
    (complete : counting.complete → resolver.exclusions = []) (origin : Origin) (path : Path)
    (kind : Section) :
    Tallies counting underWay (attachFile resolver origin path kind : ResolveM (StateM σ) Unit)
      (attachFile resolver origin path kind) underWay := by
  intro resolution files balances
  refine ⟨rfl, ?_⟩
  rw [attachFile_run]
  cases links : resolution.registry.link? origin.path path with
  | some linked =>
    obtain ⟨matching, modules⟩ := Registry.link?_modules links
    refine balances.withRegistry linked matching modules files _ fun whole => ?_
    rw [Registry.link?_attachments links]
    exact balances.reads whole
  | none =>
    have counted := counts.readText path files
    generalize (FileSystem.readText path : StateM σ _).run files = result at counted
    obtain ⟨error | text, left⟩ := result
    · exact BuildError.isNoClash_ofFileError path error
    · dsimp only
      by_cases excluded : resolver.excludes text = true
      · -- Something is excluded, so this is not a run in which reads are counted.
        rw [if_pos excluded]
        refine balances.withRegistry _ rfl rfl left _ fun whole => ?_
        rw [Resolver.excludes, complete whole] at excluded
        cases excluded
      · rw [if_neg excluded]
        obtain ⟨matching, modules⟩ :=
          resolution.registry.attach_modules origin.path ⟨path, kind, text⟩
        refine balances.withRegistry _ matching modules left _ fun whole => ?_
        have before := balances.reads whole
        have stored := Registry.size_attach links ⟨path, kind, text⟩ rfl
        dsimp only at counted
        omega

theorem locateInclude_tallies (resolver : Resolver) (origin : Origin) (text : Text) :
    Tallies counting underWay (locateInclude resolver origin text : ResolveM (StateM σ) Path)
      (locateInclude resolver origin text) underWay := by
  rw [locateInclude]
  split
  · refine (Tallies.lift (counts.isFile _)).bind fun present => ?_
    split
    · exact .pure _
    · exact .throw fun _ _ _ => BuildError.noConfusion
  · exact locateIn_tallies counts _ _ _ _ _

theorem locateModule_tallies (resolver : Resolver) (origin : Origin) (name : ModuleName) :
    Tallies counting underWay (locateModule resolver origin name : ResolveM (StateM σ) Path)
      (locateModule resolver origin name) underWay := by
  rw [locateModule]
  split
  · exact .pure _
  · exact locateIn_tallies counts _ _ _ _ _

theorem segments_tally {resolver : Resolver}
    (complete : counting.complete → resolver.exclusions = [])
    {importing importingNew : Origin → ModuleName → ResolveM (StateM σ) Unit}
    (imports : ∀ origin name, Tallies counting underWay (importing origin name)
      (importingNew origin name) underWay) (source : SourceFile) :
    Tallies counting underWay (source.segments.forM (resolveSegment resolver importing source))
      (source.segments.forM (resolveSegment resolver importingNew source)) underWay := by
  refine .forM fun segment _ => ?_
  rw [resolveSegment, resolveSegment]
  cases segment.content with
  | script _ => exact .pure _
  | block _ _ => exact .pure _
  | directive directive =>
    cases directive with
    | importModule name => exact imports _ name
    | exportNames _ => exact .pure _
    | includeFile text =>
      exact (locateInclude_tallies counts _ _ text).bind fun path =>
        attachFile_tallies counts complete _ path _
    | includeStylesheet name =>
      exact (locateIn_tallies counts _ _ _ _ _).bind fun path =>
        attachFile_tallies counts complete _ path _

theorem resolveModule_tallies {resolver : Resolver}
    (complete : counting.complete → resolver.exclusions = []) (depth : Nat)
    (chain : List ModuleName) (scanned read : Nat) (origin : Origin) (name : ModuleName) :
    Tallies counting ⟨chain, scanned, read⟩
      (resolveModule resolver depth chain origin name : ResolveM (StateM σ) Unit)
      (resolveModuleBy registerNew resolver depth chain origin name) ⟨chain, scanned, read⟩ := by
  induction depth generalizing chain scanned read origin name with
  | zero =>
    rw [resolveModule, resolveModuleBy]
    refine unlessMet_tallies ?_
    refine (locateModule_tallies counts resolver origin name).bind fun path => ?_
    exact .throw fun _ _ _ => BuildError.noConfusion
  | succ depth inductionHypothesis =>
    rw [resolveModule, resolveModuleBy]
    refine unlessMet_tallies ?_
    refine (locateModule_tallies counts resolver origin name).bind fun path => ?_
    refine (readSource_tallies counts path).bind fun source => ?_
    -- From here on the file is scanned, and its module is not registered yet.
    refine scanned_tallies.bind fun _ => ?_
    refine (segments_tally counts complete (inductionHypothesis _ _ _) source).bind fun _ => ?_
    exact registerSource_tallies chain name scanned read source

theorem resolutionSteps_tallies {resolver : Resolver}
    (complete : counting.complete → resolver.exclusions = []) (source : SourceFile) :
    Tallies counting ⟨[], 0, 0⟩ (resolutionSteps resolver source : ResolveM (StateM σ) Unit)
      (resolutionStepsBy registerNew resolver source) ⟨[], 0, 0⟩ := by
  have limits (text : Text) : Tallies counting ⟨[], 0, 0⟩
      (nestingBound resolver text : ResolveM (StateM σ) Nat) (nestingBound resolver text)
      ⟨[], 0, 0⟩ :=
    (Tallies.lift counts.sizeBound).bind fun _ => .pure _
  have bindings : Tallies counting ⟨[], 0, 0⟩
      (loadBindings resolver : ResolveM (StateM σ) Unit) (loadBindingsBy registerNew resolver)
      ⟨[], 0, 0⟩ :=
    (limits []).bind fun depth => .forM fun (name, path) _ =>
      resolveModule_tallies counts complete depth [] 0 0 ⟨path, 0⟩ name
  refine bindings.bind fun _ => (limits source.text).bind fun depth => ?_
  exact segments_tally counts complete (resolveModule_tallies counts complete depth [] 0 0) source

end

/-! ## Whole resolutions -/

theorem Counting.balances_empty {σ : Type} (count : σ → Nat) (complete : Prop)
    (matching : NameMatching) (files : σ) :
    (Counting.mk count (count files) complete).Balances ⟨[], 0, 0⟩ ⟨.empty matching, 0⟩ files :=
  ⟨fun _ member => absurd member List.not_mem_nil, .nil, rfl, fun _ => rfl⟩

/-- Resolution registers names that are not registered and asks for no other: it ends in the same
way if registering refuses all others, and modules never clash. If it succeeds, it has scanned as
many files as there are modules now, and it has read these files and the attachments, each one once,
unless some included files were left out. -/
theorem resolution_reads_once {σ : Type} [FileSystem (StateM σ)] {count : σ → Nat}
    (counts : CountsReads count) (resolver : Resolver) (matching : NameMatching)
    (source : SourceFile) {files left : σ} {outcome : Except BuildError Unit}
    {resolution : Resolution}
    (ran : ((resolutionSteps resolver source : ResolveM (StateM σ) Unit).run.run
      ⟨.empty matching, 0⟩).run files = ((outcome, resolution), left)) :
    (resolutionStepsBy registerSource resolver source : ResolveM (StateM σ) Unit) =
        resolutionSteps resolver source ∧
      ((resolutionStepsBy registerNew resolver source : ResolveM (StateM σ) Unit).run.run
        ⟨.empty matching, 0⟩).run files = ((outcome, resolution), left) ∧
      (∀ name existing conflicting, outcome ≠ .error (.duplicateModule name existing conflicting)) ∧
      (outcome = .ok () →
        resolution.scans = resolution.registry.size ∧
          (resolver.exclusions = [] → count left =
            count files + resolution.registry.size + resolution.registry.attachments.size)) := by
  let counting : Counting σ := ⟨count, count files, resolver.exclusions = []⟩
  have tallies : Tallies counting ⟨[], 0, 0⟩ (resolutionSteps resolver source)
      (resolutionStepsBy registerNew resolver source) ⟨[], 0, 0⟩ :=
    resolutionSteps_tallies counts id source
  obtain ⟨same, ends⟩ := tallies ⟨.empty matching, 0⟩ files
    (Counting.balances_empty count _ matching files)
  rw [ran] at same ends
  refine ⟨resolutionStepsBy_registerSource resolver source, same,
    fun name existing conflicting failed => ?_, fun succeeded => ?_⟩
  · rw [failed] at ends
    exact ends name existing conflicting rfl
  · rw [succeeded] at ends
    exact ⟨ends.scans, ends.reads⟩

/-- A panel and a list that import one icon in different letter case and include one stylesheet. The
icon is bound to a file outside of the searched directory. -/
def sharedIcon : Store :=
  .ofFiles [(.ofString "/src/ui/Panel.js",
      ":import theme.icon\n:include /src/base.css\nvar Panel = 1;\n".toUTF8),
    (.ofString "/src/ui/List.js",
      ":import Theme.Icon\n:include /src/base.css\nvar List = 1;\n".toUTF8),
    (.ofString "/images/Icon.js", "var Icon = 1;\n".toUTF8),
    (.ofString "/src/base.css", "p \x7b margin: 0 \x7d\n".toUTF8)] []

def iconResolver : Resolver :=
  { Resolver.make [.ofString "/src"] (.make .ignoreCase .nested "js".toList) [] with
    bindings := (∅ : Bindings).insert "theme.icon".toList
      (⟨["theme".toList], "Icon".toList, by decide, by decide⟩, .ofString "/images/Icon.js") }

def iconPage : SourceFile :=
  scanned "/src/main.js" ":import ui.List\n:include base.css\n:import ui.Panel\nPanel(List);\n"

theorem resolution_reads_once_sharedIcon :
    let result := ((resolutionSteps iconResolver iconPage :
      ResolveM (StateM Store) Unit).run.run ⟨.empty .ignoreCase, 0⟩).run sharedIcon
    let again := ((resolutionStepsBy registerNew iconResolver iconPage :
      ResolveM (StateM Store) Unit).run.run ⟨.empty .ignoreCase, 0⟩).run sharedIcon
    again = result ∧ result.1.1 = .ok () ∧
      result.1.2.registry.size = 3 ∧ result.1.2.registry.attachments.size = 1 ∧
      result.1.2.scans = 3 ∧ result.2.reads.length = 4 := by
  intro result again
  have facts : (result.1.1, result.1.2.registry.size, result.1.2.registry.attachments.size) =
      (.ok (), 3, 1) := by decide +kernel
  obtain ⟨succeeded, sizes⟩ := Prod.mk.inj facts
  obtain ⟨modules, attachments⟩ := Prod.mk.inj sizes
  have ran : ((resolutionSteps iconResolver iconPage :
      ResolveM (StateM Store) Unit).run.run ⟨.empty .ignoreCase, 0⟩).run sharedIcon =
        ((result.1.1, result.1.2), result.2) := rfl
  obtain ⟨-, same, -, counted⟩ :=
    resolution_reads_once Store.countsReads iconResolver .ignoreCase iconPage ran
  obtain ⟨scans, reads⟩ := counted succeeded
  refine ⟨same, succeeded, modules, attachments, scans.trans modules, ?_⟩
  rw [reads rfl, modules, attachments]
  rfl

end PageCompiler
