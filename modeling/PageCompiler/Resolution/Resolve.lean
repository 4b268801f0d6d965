import PageCompiler.Assembly.Script
import PageCompiler.Registry.Order
import PageCompiler.Resolution.Search

/-! # Resolving imports

Resolution follows the directives of a source file: it finds each imported module, reads and scans
it, resolves its directives in turn, compiles it and registers it. A module that is registered is
not looked at again, and a module that is met again on the way to itself closes a cycle. Included
files are read and attached to the file that includes them.

A chain of imports cannot be longer than there are names in the files, and every name takes at least
a byte, so the bytes of all files bound the nesting; `resolveModule` counts down from that bound.
-/

namespace PageCompiler

/-! ## Bindings -/

/-- The modules that are bound to files, by the keys of their names. -/
abbrev Bindings := Std.TreeMap Text (ModuleName × Path) compare

/-- Binds a module to a file; binding it to the same file again changes nothing. -/
def bind (matching : NameMatching) (bindings : Bindings) (name : ModuleName) (path : Path) :
    Except BuildError Bindings :=
  match bindings[name.key matching]? with
  | none => .ok (bindings.insert (name.key matching) (name, path.normalize))
  | some (_, existing) =>
    if existing.same path.normalize then .ok bindings
    else .error (.duplicateModule name.qualified existing path.normalize)

/-! ## Settings and state -/

/-- What resolution goes by. -/
structure Resolver where
  /-- The directories searched for modules, in this order. -/
  roots : List Path
  policy : NamePolicy
  bindings : Bindings
  /-- An included file that holds one of these markers is left out. -/
  exclusions : List Text

namespace Resolver

/-- Settings with normal roots, without bindings and without empty markers. -/
def make (roots : List Path) (policy : NamePolicy) (exclusions : List Text) : Resolver where
  roots := roots.map Path.normalize
  policy := policy
  bindings := ∅
  exclusions := exclusions.filter fun marker => !marker.isEmpty

def excludes (resolver : Resolver) (text : Text) : Bool :=
  resolver.exclusions.any (Text.contains text)

end Resolver

/-- Where a directive stands. -/
structure Origin where
  path : Path
  line : Nat

structure Resolution where
  registry : Registry
  /-- The number of module files that were scanned. -/
  scans : Nat

/-- A step of resolution; an error leaves what was resolved before it. -/
abbrev ResolveM (m : Type → Type) := ExceptT BuildError (StateT Resolution m)

section

variable {m : Type → Type} [Monad m] [FileSystem m]

/-! ## Files -/

def readText (path : Path) : ResolveM m Text := do
  match ← (FileSystem.readText path : m (Except FileError Text)) with
  | .ok text => return text
  | .error error => throw (.ofFileError path error)

def readSource (path : Path) : ResolveM m SourceFile := do
  match SourceFile.scan path (← readText path) with
  | .ok source => return source
  | .error error => throw (.ofScanError path error)

/-- The first of the directories' files at a relative path; `wanted` is what the directive asks for.
-/
def locateIn (resolver : Resolver) (origin : Origin) (wanted : Text) (directories : List Path)
    (relative : Path) : ResolveM m Path := do
  match ← (findFirst resolver.policy.matching relative directories : m (Option Path)) with
  | some path => return path
  | none =>
    throw (.moduleNotFound wanted origin.path origin.line
      (dropRepeatedPaths (directories.map (candidate relative))))

/-! ## Attachments -/

/-- Attaches a file to the source file that includes it, reading it if that has not been done. -/
def attachFile (resolver : Resolver) (origin : Origin) (path : Path) (kind : Section) :
    ResolveM m Unit := do
  match (← get).registry.link? origin.path path with
  | some registry => modify ({ · with registry := registry })
  | none =>
    let text ← readText path
    if resolver.excludes text then return
    modify fun resolution =>
      { resolution with registry := resolution.registry.attach origin.path ⟨path, kind, text⟩ }

/-- The file that an include directive names: beside the including file, else under the roots. -/
def locateInclude (resolver : Resolver) (origin : Origin) (text : Text) : ResolveM m Path := do
  if Path.isAbsolute ⟨text⟩ then
    let path := Path.normalize ⟨text⟩
    if ← (FileSystem.isFile path : m Bool) then return path
    else throw (.moduleNotFound text origin.path origin.line [path])
  else
    locateIn resolver origin text (origin.path.directory.normalize :: resolver.roots) ⟨text⟩

def includeFile (resolver : Resolver) (origin : Origin) (text : Text) : ResolveM m Unit := do
  let path ← locateInclude resolver origin text
  attachFile resolver origin path (.ofPath path)

/-- Attaches the stylesheet that belongs to a module name. -/
def includeStylesheet (resolver : Resolver) (origin : Origin) (name : ModuleName) :
    ResolveM m Unit := do
  let policy := { resolver.policy with extension := "css".toList }
  let path ← locateIn resolver origin name.qualified resolver.roots (policy.relativePath name)
  attachFile resolver origin path .stylesheet

/-! ## Modules -/

/-- The file of a module: the one it is bound to, else the first one under the roots. -/
def locateModule (resolver : Resolver) (origin : Origin) (name : ModuleName) : ResolveM m Path := do
  match resolver.bindings[name.key resolver.policy.matching]? with
  | some (_, path) => return path
  | none =>
    locateIn resolver origin name.qualified resolver.roots (resolver.policy.relativePath name)

/-- Compiles a module whose directives have been resolved, and registers it. -/
def registerSource (name : ModuleName) (source : SourceFile) : ResolveM m Unit := do
  let resolution ← get
  let registered := do
    resolution.registry.register (← compileModule resolution.registry name source)
  match registered with
  | .ok (_, registry) => set { resolution with registry := registry }
  | .error error => throw error

/-- Does what a segment asks for; `importing` resolves an imported module. -/
def resolveSegment (resolver : Resolver) (importing : Origin → ModuleName → ResolveM m Unit)
    (source : SourceFile) (segment : Segment) : ResolveM m Unit :=
  let origin := ⟨source.path, source.lineOf segment⟩
  match segment.content with
  | .directive (.importModule name) => importing origin name
  | .directive (.includeFile text) => includeFile resolver origin text
  | .directive (.includeStylesheet name) => includeStylesheet resolver origin name
  | _ => return

/-- Resolves a module that is reached through the modules of `chain`. -/
def resolveModule (resolver : Resolver) (depth : Nat) (chain : List ModuleName) (origin : Origin)
    (name : ModuleName) : ResolveM m Unit := do
  let registry := (← get).registry
  if registry.contains name then return
  match chainFrom? registry.matching chain (registry.keyOf name) with
  | some start => throw (.circularImport (cycleNames start name))
  | none =>
    let path ← locateModule resolver origin name
    match depth with
    | 0 => throw (.nestingLimit name.qualified)
    | depth + 1 =>
      let source ← readSource path
      modify fun resolution => { resolution with scans := resolution.scans + 1 }
      source.segments.forM
        (resolveSegment resolver (resolveModule resolver depth (chain ++ [name])) source)
      registerSource name source

/-- How deep imports can nest that start in a text. -/
def nestingBound (resolver : Resolver) (text : Text) : ResolveM m Nat := do
  return (← (FileSystem.sizeBound : m Nat)) + text.byteSize + resolver.bindings.size

def resolveImports (resolver : Resolver) (source : SourceFile) : ResolveM m Unit := do
  let depth ← nestingBound resolver source.text
  source.segments.forM (resolveSegment resolver (resolveModule resolver depth []) source)

/-- Resolves every module that is bound to a file, in the order of the keys. -/
def loadBindings (resolver : Resolver) : ResolveM m Unit := do
  let depth ← nestingBound resolver []
  resolver.bindings.values.forM fun (name, path) =>
    resolveModule resolver depth [] ⟨path, 0⟩ name

end

end PageCompiler
