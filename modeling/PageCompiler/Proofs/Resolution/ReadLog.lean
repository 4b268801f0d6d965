import PageCompiler.Proofs.Resolution.Step

/-! # What files are read for

Resolution reads a file for one of two reasons: the file of a module is loaded, or a directive asks
for a file to be attached, which need not read it. The list of reads of a file system does not tell
them apart. The steps of resolution are written here over the two operations, a `Reader`: with the
plain ones they are resolution itself, and with the noting ones each operation also leaves a note.
-/

namespace PageCompiler

/-! ## Notes -/

/-- What a file is wanted for. -/
inductive ReadEvent where
  /-- The file of a module is loaded. -/
  | load (path : Path)
  /-- A directive asks for the file to be attached. -/
  | request (path : Path)
deriving DecidableEq

/-- What files were wanted for, oldest first. -/
abbrev ReadLog := List ReadEvent

namespace ReadEvent

def isLoadOf (path : Path) : ReadEvent → Bool
  | load other => path.same other
  | request _ => false

def isRequestOf (path : Path) : ReadEvent → Bool
  | load _ => false
  | request other => path.same other

end ReadEvent

namespace ReadLog

/-- How often the file at a place was loaded as a module. -/
def loads (log : ReadLog) (path : Path) : Nat :=
  log.countP (·.isLoadOf path)

/-- How often a directive asked for the file at a place. -/
def requests (log : ReadLog) (path : Path) : Nat :=
  log.countP (·.isRequestOf path)

variable (log : ReadLog) (path other : Path)

@[simp] theorem loads_append_load : loads (log ++ [.load other]) path =
    log.loads path + if path.same other then 1 else 0 := by
  simp [loads, ReadEvent.isLoadOf, List.countP_singleton]

@[simp] theorem loads_append_request :
    loads (log ++ [.request other]) path = log.loads path := by
  simp [loads, ReadEvent.isLoadOf]

@[simp] theorem requests_append_load :
    requests (log ++ [.load other]) path = log.requests path := by
  simp [requests, ReadEvent.isRequestOf]

@[simp] theorem requests_append_request : requests (log ++ [.request other]) path =
    log.requests path + if path.same other then 1 else 0 := by
  simp [requests, ReadEvent.isRequestOf, List.countP_singleton]

end ReadLog

/-- Files with notes on what they were wanted for. -/
structure Noted (σ : Type) where
  files : σ
  log : ReadLog

namespace Noted

section

variable {σ α β : Type}

/-- An action on the files that leaves no note. -/
def carry (action : StateM σ α) : StateM (Noted σ) α := fun noted =>
  ((action.run noted.files).1, { noted with files := (action.run noted.files).2 })

def note (event : ReadEvent) : StateM (Noted σ) Unit := fun noted =>
  ((), { noted with log := noted.log ++ [event] })

theorem carry_bind (first : StateM σ β) (next : β → StateM σ α) :
    carry (first >>= next) = carry first >>= fun value => carry (next value) :=
  rfl

end

section

variable {σ : Type} [FileSystem (StateM σ)]

instance : FileSystem (StateM (Noted σ)) where
  read path := carry (FileSystem.read path)
  write path content := carry (FileSystem.write path content)
  rename source target := carry (FileSystem.rename source target)
  remove path := carry (FileSystem.remove path)
  makeDirectories path := carry (FileSystem.makeDirectories path)
  isFile path := carry (FileSystem.isFile path)
  listDirectory path := carry (FileSystem.listDirectory path)
  sizeBound := carry FileSystem.sizeBound

theorem readText_run (path : Path) (files : σ) (log : ReadLog) :
    (FileSystem.readText path : StateM (Noted σ) _).run ⟨files, log⟩ =
      (((FileSystem.readText path : StateM σ _).run files).1,
        ⟨((FileSystem.readText path : StateM σ _).run files).2, log⟩) :=
  rfl

theorem findIgnoringCase_eq_carry (current : Path) (names : List Text) :
    (findIgnoringCase current names : StateM (Noted σ) _) =
      carry (findIgnoringCase current names) := by
  induction names generalizing current with
  | nil =>
    rw [findIgnoringCase, findIgnoringCase, carry_bind]
    congr 1
    funext present
    split <;> rfl
  | cons name names inductionHypothesis =>
    rw [findIgnoringCase, findIgnoringCase, carry_bind]
    congr 1
    funext listed
    cases listed with
    | error error => rfl
    | ok children =>
      dsimp only
      split
      · next child _ => exact inductionHypothesis child
      · rfl

theorem findIn_eq_carry (matching : NameMatching) (relative directory : Path) :
    (findIn matching relative directory : StateM (Noted σ) _) =
      carry (findIn matching relative directory) := by
  rw [findIn.eq_def, findIn.eq_def, carry_bind]
  congr 1
  funext present
  split
  · rfl
  · cases matching with
    | exact => rfl
    | ignoreCase => exact findIgnoringCase_eq_carry _ _

/-- A search leaves no note. -/
theorem findFirst_eq_carry (matching : NameMatching) (relative : Path) (directories : List Path) :
    (findFirst matching relative directories : StateM (Noted σ) _) =
      carry (findFirst matching relative directories) := by
  induction directories with
  | nil => rfl
  | cons directory others inductionHypothesis =>
    rw [findFirst, findFirst, carry_bind, findIn_eq_carry]
    congr 1
    funext found
    cases found with
    | some path => rfl
    | none => exact inductionHypothesis

end

end Noted

/-! ## Resolution over a reader -/

/-- The two operations of resolution that read files. -/
structure Reader (m : Type → Type) where
  /-- Loads the file of a module. -/
  load : Path → ResolveM m SourceFile
  /-- Attaches a file to the source file that asks for it. -/
  attach : Origin → Path → Section → ResolveM m Unit

section

variable {m : Type → Type} [Monad m] [FileSystem m]

/-- The operations of resolution. -/
def Reader.plain (resolver : Resolver) : Reader m where
  load := readSource
  attach := attachFile resolver

/-- The operations of resolution, each of them behind a note. -/
def Reader.noting {σ : Type} [FileSystem (StateM σ)] (resolver : Resolver) :
    Reader (StateM (Noted σ)) where
  load path := do
    liftM (Noted.note (.load path) : StateM (Noted σ) Unit)
    readSource path
  attach origin path kind := do
    liftM (Noted.note (.request path) : StateM (Noted σ) Unit)
    attachFile resolver origin path kind

theorem noting_load_run {σ : Type} [FileSystem (StateM σ)] (resolver : Resolver) (path : Path)
    (resolution : Resolution) (files : σ) (log : ReadLog) :
    (((Reader.noting resolver).load path).run.run resolution).run ⟨files, log⟩ =
      ((readSource path : ResolveM (StateM (Noted σ)) SourceFile).run.run resolution).run
        ⟨files, log ++ [.load path]⟩ :=
  rfl

theorem noting_attach_run {σ : Type} [FileSystem (StateM σ)] (resolver : Resolver)
    (origin : Origin) (path : Path) (kind : Section) (resolution : Resolution) (files : σ)
    (log : ReadLog) :
    (((Reader.noting resolver).attach origin path kind).run.run resolution).run ⟨files, log⟩ =
      ((attachFile resolver origin path kind : ResolveM (StateM (Noted σ)) Unit).run.run
        resolution).run ⟨files, log ++ [.request path]⟩ :=
  rfl

variable (reader : Reader m) (resolver : Resolver)

def resolveSegmentWith (importing : Origin → ModuleName → ResolveM m Unit) (source : SourceFile)
    (segment : Segment) : ResolveM m Unit :=
  let origin := ⟨source.path, source.lineOf segment⟩
  match segment.content with
  | .directive (.importModule name) => importing origin name
  | .directive (.includeFile text) => do
    let path ← locateInclude resolver origin text
    reader.attach origin path (.ofPath path)
  | .directive (.includeStylesheet name) => do
    let policy := { resolver.policy with extension := "css".toList }
    let path ← locateIn resolver origin name.qualified resolver.roots (policy.relativePath name)
    reader.attach origin path .stylesheet
  | _ => return

def resolveModuleWith (depth : Nat) (chain : List ModuleName) (origin : Origin)
    (name : ModuleName) : ResolveM m Unit := do
  let registry := (← get).registry
  if registry.contains name then return
  match chainFrom? registry.matching chain (registry.keyOf name) with
  | some start => throw (.circularImport (cycleNames start name))
  | none =>
    let path ← locateModule resolver origin name
    match depth with
    | 0 => throw (.nestingLimit name.qualified)
    | depth + 1 =>
      let source ← reader.load path
      modify fun resolution => { resolution with scans := resolution.scans + 1 }
      source.segments.forM
        (resolveSegmentWith reader resolver (resolveModuleWith depth (chain ++ [name])) source)
      registerSource name source

def loadBindingsWith : ResolveM m Unit := do
  let depth ← nestingBound resolver []
  resolver.bindings.values.forM fun (name, path) =>
    resolveModuleWith reader resolver depth [] ⟨path, 0⟩ name

def resolveImportsWith (source : SourceFile) : ResolveM m Unit := do
  let depth ← nestingBound resolver source.text
  source.segments.forM
    (resolveSegmentWith reader resolver (resolveModuleWith reader resolver depth []) source)

/-- The steps that resolve an entry file, where `reader` reads the files. -/
def resolutionStepsWith (source : SourceFile) : ResolveM m Unit := do
  loadBindingsWith reader resolver
  resolveImportsWith reader resolver source

omit reader

theorem resolveSegmentWith_plain (importing : Origin → ModuleName → ResolveM m Unit) :
    resolveSegmentWith (.plain resolver) resolver importing =
      resolveSegment resolver importing := by
  funext source segment
  rw [resolveSegmentWith, resolveSegment]
  cases segment.content with
  | script _ => rfl
  | block _ _ => rfl
  | directive directive => cases directive <;> rfl

theorem resolveModuleWith_plain (depth : Nat) (chain : List ModuleName) :
    (resolveModuleWith (.plain resolver) resolver depth chain :
      Origin → ModuleName → ResolveM m Unit) = resolveModule resolver depth chain := by
  induction depth generalizing chain with
  | zero =>
    funext origin name
    rewrite [resolveModuleWith, resolveModule]
    rfl
  | succ depth inductionHypothesis =>
    funext origin name
    rw [resolveModuleWith, resolveModule]
    simp only [inductionHypothesis, resolveSegmentWith_plain]
    rfl

/-- Reading as resolution does gives resolution itself. -/
theorem resolutionStepsWith_plain (source : SourceFile) :
    (resolutionStepsWith (.plain resolver) resolver source : ResolveM m Unit) =
      resolutionSteps resolver source := by
  simp only [resolutionStepsWith, loadBindingsWith, resolveImportsWith, resolutionSteps,
    loadBindings, resolveImports, resolveModuleWith_plain, resolveSegmentWith_plain]

end

end PageCompiler
