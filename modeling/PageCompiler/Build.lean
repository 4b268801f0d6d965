import PageCompiler.Artifact.Staging
import PageCompiler.Assembly.Page
import PageCompiler.Error.Report
import PageCompiler.Resolution.Resolve

/-! # Builds

The operations that a user of the compiler calls: `compile` makes the document of an entry file,
`build` also writes its artifacts, and `listFiles` lists the files that take part. Each call starts
with an empty registry and leaves nothing behind but the files it writes.
-/

namespace PageCompiler

/-! ## Configuration -/

/-- A module name, as written, and the file it is bound to. -/
structure ModuleBinding where
  name : Text
  path : Path
deriving DecidableEq

structure BuildConfig where
  /-- The directories searched for modules; if there is none, the directory of the entry is. -/
  moduleSearchPaths : List Path := []
  outputMode : OutputMode := .singleFile
  outputPath : Path := .ofString "dist"
  scriptExtension : Text := "js".toList
  nameMatching : NameMatching := .exact
  namespaceLayout : NamespaceLayout := .nested
  title? : Option Text := none
  modules : List ModuleBinding := []
  options : BuildOptions := {}
deriving DecidableEq, Inhabited

namespace BuildConfig

def namePolicy (config : BuildConfig) : NamePolicy :=
  .make config.nameMatching config.namespaceLayout config.scriptExtension

/-- The directories searched for the modules of an entry file. -/
def searchRoots (config : BuildConfig) (entry : Path) : List Path :=
  if config.moduleSearchPaths.isEmpty then [entry.directory] else config.moduleSearchPaths

def bindModule (matching : NameMatching) (bindings : Bindings) (binding : ModuleBinding) :
    Except Failure Bindings :=
  match ModuleName.parse binding.name with
  | .error error =>
    .error (.config
      ("invalid module binding '".toList ++ binding.name ++ "': ".toList ++ error.message))
  | .ok name => (bind matching bindings name binding.path).mapError .build

def bindings (config : BuildConfig) : Except Failure Bindings :=
  config.modules.foldlM (bindModule config.nameMatching) ∅

end BuildConfig

/-! ## Results -/

/-- An entry file with everything it imports or includes. -/
structure Resolved where
  source : SourceFile
  registry : Registry
  scans : Nat

structure Compiled where
  entry : Path
  document : Document
  /-- The modules that the entry reaches, dependencies first. -/
  modules : List CompiledModule
  /-- The number of module files that were scanned. -/
  scans : Nat

structure Built where
  compiled : Compiled
  artifacts : List Artifact

structure ListOptions where
  before : Text := []
  after : Text := []
  /-- What relative paths are relative to, if absolute ones are wanted. -/
  base? : Option Path := none
deriving DecidableEq, Inhabited

def ListOptions.line (options : ListOptions) (path : Path) : Text :=
  let shown :=
    match options.base? with
    | some base => if path.isAbsolute then path else (base.join path).normalize
    | none => path
  options.before ++ shown.text ++ options.after

/-- The paths of the files that take part, each source behind the attachments it is the first to
pull in. -/
def participants (registry : Registry) (sources : List Path) : List Path :=
  sources.foldl
    (fun paths source =>
      (registry.attachmentsOf source).foldl
          (fun paths attachment =>
            if paths.any attachment.path.same then paths else paths ++ [attachment.path])
          paths
        ++ [source])
    []

/-! ## Operations -/

/-- A build in a file system; it can fail. -/
abbrev BuildM (m : Type → Type) := ExceptT Failure m

section

variable {m : Type → Type} [Monad m] [FileSystem m]

/-- Fails with a build error if `outcome` does. -/
def orFail {α : Type} (outcome : Except BuildError α) : BuildM m α :=
  match outcome with
  | .ok value => return value
  | .error error => throw (.build error)

def readEntry (entry : Path) : BuildM m SourceFile := do
  match ← (FileSystem.readText entry : m (Except FileError Text)) with
  | .error error => throw (.build (.ofFileError entry error))
  | .ok text => orFail ((SourceFile.scan entry text).mapError (.ofScanError entry))

/-- Loads the bindings of a configuration, then everything that the entry imports or includes. -/
def resolve (config : BuildConfig) (entry : Path) : BuildM m Resolved := do
  let source ← readEntry entry.normalize
  match config.bindings with
  | .error failure => throw failure
  | .ok bindings =>
    let resolver := { Resolver.make (config.searchRoots entry.normalize) config.namePolicy
      config.options.excludeMarkers with bindings := bindings }
    let steps : ResolveM m Unit := do
      loadBindings resolver
      resolveImports resolver source
    let (outcome, resolution) ← (steps.run.run ⟨.empty config.nameMatching, 0⟩ :
      m (Except BuildError Unit × Resolution))
    orFail outcome
    return ⟨source, resolution.registry, resolution.scans⟩

def Resolved.modules (resolved : Resolved) : Except BuildError (List CompiledModule) :=
  resolved.registry.order (importedNames resolved.source) resolved.source.path

def compile (config : BuildConfig) (entry : Path) : BuildM m Compiled := do
  let resolved ← resolve config entry
  let document ← orFail (assemble resolved.registry config.options resolved.source)
  let modules ← orFail resolved.modules
  return ⟨resolved.source.path, document, modules, resolved.scans⟩

/-- Makes the document of an entry file and writes its artifacts. -/
def build (config : BuildConfig) (entry : Path) : BuildM m Built := do
  let compiled ← compile config entry
  let plan := EmitPlan.forEntry compiled.entry config.outputPath config.title?
  let artifacts := serialize config.outputMode plan compiled.document
  orFail (← (writeArtifacts artifacts : m (Except BuildError Unit)))
  return ⟨compiled, artifacts⟩

/-- Lists the files that take part, modules in dependency order and the entry last. -/
def listFiles (config : BuildConfig) (options : ListOptions) (entry : Path) :
    BuildM m (List Text) := do
  let resolved ← resolve config entry
  let modules ← orFail resolved.modules
  let sources := modules.map CompiledModule.path ++ [resolved.source.path]
  return (participants resolved.registry sources).map options.line

end

end PageCompiler
