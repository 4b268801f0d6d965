import PageCompiler.Proofs.Path.Components
import PageCompiler.Proofs.Resolution.ReadLog
import PageCompiler.Proofs.Resolution.Tally

/-! # Reads of included files

A file that has been attached is stored, and whoever asks for it again gets it without a read. A
file that is left out is not stored, so everyone who asks for it reads it. `Watch` looks at one
place: `Accounts` says of a step of resolution that the notes tell how often the place was read, and
that leaving notes changes nothing else.
-/

namespace PageCompiler

open FileSystem (view)

/-- The text can be read at the place that a path names. -/
def View.Offers (seen : View) (path : Path) (text : Text) : Prop :=
  ∃ other, path.same other = true ∧ seen.readText other = .ok text

/-- A place whose reads are counted. -/
structure Watch (σ : Type) where
  path : Path
  count : σ → Nat
  /-- How often the place had been read before. -/
  start : Nat
  seen : View
  /-- Whether an included file with this text is left out. -/
  leavesOut : Text → Bool
  /-- Whether the file at the place is stored when it is included. -/
  kept : Bool

namespace Watch

section

variable {σ : Type} (watch : Watch σ)

/-- Every text that can be read at the place is stored, or every one is left out. -/
def Decided : Prop :=
  ∀ text, watch.seen.Offers watch.path text → watch.leavesOut text = !watch.kept

/-- How often the place has been read, by the notes. -/
def readsBy (log : ReadLog) : Nat :=
  watch.start + log.loads watch.path +
    if watch.kept then min 1 (log.requests watch.path) else log.requests watch.path

/-- Whether the file is stored, by the notes. -/
def storedBy (log : ReadLog) : Bool :=
  watch.kept && decide (0 < log.requests watch.path)

variable (log : ReadLog) (path : Path)

theorem readsBy_load : watch.readsBy (log ++ [.load path]) =
    watch.readsBy log + if watch.path.same path then 1 else 0 := by
  simp only [readsBy, ReadLog.loads_append_load, ReadLog.requests_append_load]
  omega

theorem storedBy_load : watch.storedBy (log ++ [.load path]) = watch.storedBy log := by
  simp [storedBy]

/-- Asking for a file reads it unless it is stored. -/
theorem readsBy_request : watch.readsBy (log ++ [.request path]) =
    watch.readsBy log + if watch.path.same path && !watch.storedBy log then 1 else 0 := by
  cases same : watch.path.same path with
  | false => simp [readsBy, same]
  | true =>
    cases kept : watch.kept with
    | false => simp [readsBy, storedBy, same, kept, Nat.add_assoc]
    | true =>
      simp only [readsBy, storedBy, kept, same, ReadLog.loads_append_request,
        ReadLog.requests_append_request, Bool.true_and, if_true, Bool.not_eq_true',
        decide_eq_false_iff_not]
      split <;> omega

theorem storedBy_request : watch.storedBy (log ++ [.request path]) =
    (watch.storedBy log || watch.path.same path && watch.kept) := by
  cases kept : watch.kept <;> cases same : watch.path.same path <;> simp [storedBy, kept, same]

omit log path

variable [FileSystem (StateM σ)]

/-- The place has been read as often as the notes say. -/
structure Settled (log : ReadLog) (files : σ) : Prop where
  view : view files = watch.seen
  reads : watch.Decided → watch.count files = watch.readsBy log

/-- Besides, the file is stored if the notes say so. -/
structure Balances (log : ReadLog) (resolution : Resolution) (files : σ) : Prop extends
    watch.Settled log files where
  stored : watch.Decided →
    resolution.registry.attachments.contains watch.path.key = watch.storedBy log

end

end Watch

section

variable {σ α β : Type} [FileSystem (StateM σ)] {watch : Watch σ}

/-- From these notes, the noting step does the same as the step and leaves notes that tell the
reads. -/
def AccountsFrom (watch : Watch σ) (log : ReadLog) (resolution : Resolution) (files : σ)
    (step : ResolveM (StateM σ) α) (noting : ResolveM (StateM (Noted σ)) α) : Prop :=
  ∃ notes : ReadLog, (noting.run.run resolution).run ⟨files, log⟩ =
      (((step.run.run resolution).run files).1, ⟨((step.run.run resolution).run files).2, notes⟩) ∧
    match (step.run.run resolution).run files with
    | ((.ok _, resolution), files) => watch.Balances notes resolution files
    | ((.error _, _), files) => watch.Settled notes files

/-- The step and the noting one agree, and the notes tell the reads, from wherever they did. -/
def Accounts (watch : Watch σ) (step : ResolveM (StateM σ) α)
    (noting : ResolveM (StateM (Noted σ)) α) : Prop :=
  ∀ (log : ReadLog) (resolution : Resolution) (files : σ), watch.Balances log resolution files →
    AccountsFrom watch log resolution files step noting

namespace Accounts

theorem pure (value : α) : Accounts watch (Pure.pure value) (Pure.pure value) :=
  fun log _ _ balances => ⟨log, rfl, balances⟩

theorem throw (error : BuildError) :
    Accounts watch (throw error : ResolveM (StateM σ) α) (throw error) :=
  fun log _ _ balances => ⟨log, rfl, balances.toSettled⟩

theorem bind {first : ResolveM (StateM σ) β} {firstNoting : ResolveM (StateM (Noted σ)) β}
    {next : β → ResolveM (StateM σ) α} {nextNoting : β → ResolveM (StateM (Noted σ)) α}
    (before : Accounts watch first firstNoting)
    (after : ∀ value, Accounts watch (next value) (nextNoting value)) :
    Accounts watch (first >>= next) (firstNoting >>= nextNoting) := by
  intro log resolution files balances
  obtain ⟨notes, same, reached⟩ := before log resolution files balances
  rw [AccountsFrom, resolve_bind_run, resolve_bind_run, same]
  generalize (first.run.run resolution).run files = result at reached
  obtain ⟨⟨outcome, middle⟩, left⟩ := result
  cases outcome with
  | error error => exact ⟨notes, rfl, reached⟩
  | ok value => exact after value notes middle left reached

theorem get_bind {next : Resolution → ResolveM (StateM σ) α}
    {nextNoting : Resolution → ResolveM (StateM (Noted σ)) α}
    (steps : ∀ (log : ReadLog) (resolution : Resolution) (files : σ),
      watch.Balances log resolution files →
        AccountsFrom watch log resolution files (next resolution) (nextNoting resolution)) :
    Accounts watch (get >>= next) (get >>= nextNoting) :=
  steps

theorem forM {list : List β} {step : β → ResolveM (StateM σ) PUnit}
    {noting : β → ResolveM (StateM (Noted σ)) PUnit}
    (steps : ∀ element, Accounts watch (step element) (noting element)) :
    Accounts watch (list.forM step) (list.forM noting) := by
  induction list with
  | nil => exact pure _
  | cons element list inductionHypothesis =>
    exact (steps element).bind fun _ => inductionHypothesis

variable (watch) in
/-- A question that reads no file. -/
theorem lift {action : StateM σ α} (keeps : KeepsCount watch.count action)
    (sees : ∀ files, view (action.run files).2 = view files) :
    Accounts watch (liftM action) (liftM (Noted.carry action)) := by
  intro log resolution files balances
  refine ⟨log, rfl, ?_⟩
  exact ⟨⟨(sees files).trans balances.view,
    fun decided => (keeps files).trans (balances.reads decided)⟩, balances.stored⟩

end Accounts

/-! ## Operations -/

theorem registerSource_accounts (name : ModuleName) (source : SourceFile) :
    Accounts watch (registerSource name source) (registerSource name source) := by
  apply Accounts.get_bind
  intro log resolution files balances
  dsimp only
  cases compileModule resolution.registry name source with
  | error error => exact Accounts.throw error log resolution files balances
  | ok compiled =>
    have registering : (.ok compiled >>= resolution.registry.register) =
        resolution.registry.register compiled := rfl
    rw [registering]
    cases registered : resolution.registry.register compiled with
    | error error => exact Accounts.throw error log resolution files balances
    | ok result =>
      refine ⟨log, rfl, balances.toSettled, fun decided => ?_⟩
      rw [(Registry.register_attachments registered).1]
      exact balances.stored decided

/-- A module that is registered or on the way to itself is not resolved. -/
theorem unlessMet_accounts {chain : List ModuleName} {name : ModuleName}
    {rest : ResolveM (StateM σ) Unit} {restNoting : ResolveM (StateM (Noted σ)) Unit}
    (accounts : Accounts watch rest restNoting) :
    Accounts watch (do
      let registry := (← get).registry
      if registry.contains name then return
      match chainFrom? registry.matching chain (registry.keyOf name) with
      | some start => throw (.circularImport (cycleNames start name))
      | none => rest) (do
      let registry := (← get).registry
      if registry.contains name then return
      match chainFrom? registry.matching chain (registry.keyOf name) with
      | some start => throw (.circularImport (cycleNames start name))
      | none => restNoting) := by
  apply Accounts.get_bind
  intro log resolution files balances
  dsimp only
  split
  · exact Accounts.pure () log resolution files balances
  · split
    · exact Accounts.throw _ log resolution files balances
    · exact accounts log resolution files balances

theorem scanned_accounts :
    Accounts watch
      (modify fun resolution => { resolution with scans := resolution.scans + 1 } :
        ResolveM (StateM σ) PUnit)
      (modify fun resolution => { resolution with scans := resolution.scans + 1 }) :=
  fun log _ _ balances => ⟨log, rfl, balances.toSettled, balances.stored⟩

/-- Attaching does the same beside notes, and leaves none itself. -/
theorem attachFile_run_noted (resolver : Resolver) (origin : Origin) (path : Path) (kind : Section)
    (resolution : Resolution) (files : σ) (log : ReadLog) :
    ((attachFile resolver origin path kind : ResolveM (StateM (Noted σ)) Unit).run.run
        resolution).run ⟨files, log⟩ =
      ((((attachFile resolver origin path kind : ResolveM (StateM σ) Unit).run.run resolution).run
          files).1,
        ⟨(((attachFile resolver origin path kind : ResolveM (StateM σ) Unit).run.run
          resolution).run files).2, log⟩) := by
  rw [attachFile_run, attachFile_run, Noted.readText_run]
  cases resolution.registry.link? origin.path path with
  | some linked => rfl
  | none => obtain ⟨error | text, left⟩ := (FileSystem.readText path : StateM σ _).run files <;> rfl

theorem Registry.contains_attach (registry : Registry) (source : Path) (attachment : Attachment)
    (path : Path) : (registry.attach source attachment).attachments.contains path.key =
      (path.same attachment.path || registry.attachments.contains path.key) := by
  have keyed : (compare attachment.path.key path.key == .eq) = path.same attachment.path := by
    rw [Bool.eq_iff_iff, beq_iff_eq, Std.LawfulEqOrd.compare_eq_iff_eq, Path.same_iff_key_eq]
    exact eq_comm
  rw [attach_attachments, Std.TreeMap.contains_insertIfNew, keyed]

/-- A file that is read is stored afterwards, unless it is left out. -/
theorem Watch.Balances.stored_of_read {log : ReadLog} {resolution : Resolution} {files : σ}
    (balances : watch.Balances log resolution files) {resolver : Resolver}
    (agrees : ∀ text, resolver.excludes text = watch.leavesOut text) {path : Path} {text : Text}
    (read : watch.seen.readText path = .ok text) (origin : Origin) (kind : Section)
    (decided : watch.Decided) :
    (if resolver.excludes text then resolution else { resolution with
      registry := resolution.registry.attach origin.path ⟨path, kind, text⟩
    }).registry.attachments.contains watch.path.key = watch.storedBy (log ++ [.request path]) := by
  have fate (same : watch.path.same path = true) : watch.kept = !resolver.excludes text := by
    rw [agrees, decided text ⟨path, same, read⟩, Bool.not_not]
  rw [Watch.storedBy_request, ← balances.stored decided]
  cases excluded : resolver.excludes text with
  | true =>
    cases same : watch.path.same path with
    | false => simp
    | true => simp [fate same, excluded]
  | false =>
    rw [if_neg Bool.false_ne_true, Registry.contains_attach]
    cases same : watch.path.same path with
    | false => simp
    | true => simp [fate same, excluded]

variable [LawfulFileSystem σ] (counts : CountsReadsOf watch.path watch.count)

include counts

theorem attachFile_accounts {resolver : Resolver}
    (agrees : ∀ text, resolver.excludes text = watch.leavesOut text) (origin : Origin)
    (path : Path) (kind : Section) :
    Accounts watch (attachFile resolver origin path kind)
      ((Reader.noting resolver).attach origin path kind) := by
  intro log resolution files balances
  refine ⟨log ++ [.request path], ?_, ?_⟩
  · rw [noting_attach_run, attachFile_run_noted]
  have linked := resolution.registry.isSome_link? origin.path path
  -- If this is the place that is watched, then the notes know whether the file is stored.
  have here (decided : watch.Decided) (same : watch.path.same path = true) :
      resolution.registry.attachments.contains path.key = watch.storedBy log := by
    rw [← Path.same_iff_key_eq.mp same]
    exact balances.stored decided
  rw [attachFile_run]
  cases links : resolution.registry.link? origin.path path with
  | some registry =>
    rw [links] at linked
    refine ⟨⟨balances.view, fun decided => ?_⟩, fun decided => ?_⟩
    · rw [Watch.readsBy_request, balances.reads decided]
      cases same : watch.path.same path <;> simp [← here decided, same, ← linked]
    · rw [Registry.link?_attachments links, balances.stored decided, Watch.storedBy_request]
      cases same : watch.path.same path <;> simp [← here decided, same, ← linked]
  | none =>
    rw [links] at linked
    have asked := Asks.readText (σ := σ) path files
    have viewed : view ((FileSystem.readText path : StateM σ _).run files).2 = watch.seen :=
      asked.2.trans balances.view
    have answered : ((FileSystem.readText path : StateM σ _).run files).1 =
        watch.seen.readText path := by
      rw [← balances.view]
      exact asked.1
    have read (decided : watch.Decided) :
        watch.count ((FileSystem.readText path : StateM σ _).run files).2 =
          watch.readsBy (log ++ [.request path]) := by
      rw [Watch.readsBy_request, counts.readText, balances.reads decided]
      cases same : watch.path.same path <;> simp [← here decided, same, ← linked]
    generalize (FileSystem.readText path : StateM σ _).run files = result at viewed answered read
    obtain ⟨error | text, left⟩ := result
    · exact ⟨viewed, read⟩
    · exact ⟨⟨viewed, read⟩, balances.stored_of_read agrees answered.symm origin kind⟩

theorem readSource_accounts (resolver : Resolver) (path : Path) :
    Accounts watch (readSource path) ((Reader.noting resolver).load path) := by
  intro log resolution files balances
  refine ⟨log ++ [.load path], ?_, ?_⟩
  · rw [noting_load_run, readSource_run, readSource_run, Noted.readText_run]
    obtain ⟨error | text, left⟩ := (FileSystem.readText path : StateM σ _).run files <;> rfl
  have viewed : view ((FileSystem.readText path : StateM σ _).run files).2 = watch.seen :=
    (Asks.readText path files).2.trans balances.view
  have read (decided : watch.Decided) :
      watch.count ((FileSystem.readText path : StateM σ _).run files).2 =
        watch.readsBy (log ++ [.load path]) := by
    rw [Watch.readsBy_load, counts.readText, balances.reads decided]
  rw [readSource_run]
  generalize (FileSystem.readText path : StateM σ _).run files = result at viewed read
  obtain ⟨error | text, left⟩ := result
  · exact ⟨viewed, read⟩
  · have stored := balances.stored
    rw [← watch.storedBy_load log path] at stored
    dsimp only
    cases SourceFile.scan path text with
    | error error => exact ⟨viewed, read⟩
    | ok source => exact ⟨⟨viewed, read⟩, stored⟩

section

variable (resolver : Resolver) (origin : Origin)

theorem locateIn_accounts (wanted : Text) (directories : List Path) (relative : Path) :
    Accounts watch (locateIn resolver origin wanted directories relative)
      (locateIn resolver origin wanted directories relative) := by
  have asked := Accounts.lift watch
    (KeepsCount.findFirst counts.isFile counts.listDirectory resolver.policy.matching relative
      directories)
    fun files => (Asks.findFirst _ _ _ files).2
  rw [← Noted.findFirst_eq_carry] at asked
  apply asked.bind
  intro found
  cases found with
  | some path => exact .pure path
  | none => exact .throw _

theorem locateInclude_accounts (text : Text) :
    Accounts watch (locateInclude resolver origin text) (locateInclude resolver origin text) := by
  rw [locateInclude, locateInclude]
  split
  · have asked := Accounts.lift watch (counts.isFile (Path.normalize ⟨text⟩))
      fun files => (Asks.isFile _ files).2
    apply asked.bind
    intro present
    split
    · exact .pure _
    · exact .throw _
  · exact locateIn_accounts counts resolver origin _ _ _

theorem locateModule_accounts (name : ModuleName) :
    Accounts watch (locateModule resolver origin name) (locateModule resolver origin name) := by
  rw [locateModule, locateModule]
  split
  · exact .pure _
  · exact locateIn_accounts counts resolver origin _ _ _

theorem nestingBound_accounts (text : Text) :
    Accounts watch (nestingBound resolver text) (nestingBound resolver text) := by
  have asked := Accounts.lift watch counts.sizeBound
    fun files => (Asks.sizeBound files).2
  exact asked.bind fun _ => .pure _

end

/-! ## Modules -/

variable {resolver : Resolver} (agrees : ∀ text, resolver.excludes text = watch.leavesOut text)

include agrees

theorem resolveSegment_accounts
    {importing : Origin → ModuleName → ResolveM (StateM σ) Unit}
    {importingNoting : Origin → ModuleName → ResolveM (StateM (Noted σ)) Unit}
    (imports : ∀ origin name, Accounts watch (importing origin name) (importingNoting origin name))
    (source : SourceFile) (segment : Segment) :
    Accounts watch (resolveSegment resolver importing source segment)
      (resolveSegmentWith (.noting resolver) resolver importingNoting source segment) := by
  rw [resolveSegment, resolveSegmentWith]
  cases segment.content with
  | script _ => exact .pure _
  | block _ _ => exact .pure _
  | directive directive =>
    cases directive with
    | importModule name => exact imports _ name
    | exportNames _ => exact .pure _
    | includeFile text =>
      exact (locateInclude_accounts counts _ _ text).bind fun path =>
        attachFile_accounts counts agrees _ path _
    | includeStylesheet name =>
      exact (locateIn_accounts counts _ _ _ _ _).bind fun path =>
        attachFile_accounts counts agrees _ path _

theorem resolveModule_accounts (depth : Nat) (chain : List ModuleName) (origin : Origin)
    (name : ModuleName) :
    Accounts watch (resolveModule resolver depth chain origin name)
      (resolveModuleWith (.noting resolver) resolver depth chain origin name) := by
  induction depth generalizing chain origin name with
  | zero =>
    rw [resolveModule, resolveModuleWith]
    apply unlessMet_accounts
    exact (locateModule_accounts counts _ origin name).bind fun _ => .throw _
  | succ depth inductionHypothesis =>
    rw [resolveModule, resolveModuleWith]
    apply unlessMet_accounts
    apply (locateModule_accounts counts _ origin name).bind
    intro path
    apply (readSource_accounts counts resolver path).bind
    intro source
    apply scanned_accounts.bind
    intro _
    -- The imported modules are one level deeper and know of this one.
    have segments : Accounts watch
        (source.segments.forM (resolveSegment resolver
          (resolveModule resolver depth (chain ++ [name])) source)) _ :=
      .forM (resolveSegment_accounts counts agrees (inductionHypothesis (chain ++ [name])) source)
    exact segments.bind fun _ => registerSource_accounts name source

/-- Whatever the files are, the notes tell how often the place is read. -/
theorem resolutionSteps_accounts (source : SourceFile) :
    Accounts watch (resolutionSteps resolver source)
      (resolutionStepsWith (.noting resolver) resolver source) := by
  have bindings : Accounts watch (loadBindings resolver)
      (loadBindingsWith (.noting resolver) resolver) :=
    (nestingBound_accounts counts _ []).bind fun depth => .forM fun (name, path) =>
      resolveModule_accounts counts agrees depth [] ⟨path, 0⟩ name
  apply bindings.bind
  intro _
  apply (nestingBound_accounts counts _ source.text).bind
  intro depth
  exact .forM (resolveSegment_accounts counts agrees
    (resolveModule_accounts counts agrees depth []) source)

end

end PageCompiler
