import PageCompiler.Proofs.Build.Conclusion
import PageCompiler.Proofs.Resolution.AttachmentReads

/-! # Reads of a compilation

A compilation reads the entry file, loads the files of modules and attaches the files that
directives ask for. `compileWith` leaves the last two to a `Reader`; with the noting one it tells
how often each file was wanted for what, and from that how often it was read.
-/

namespace PageCompiler

open FileSystem (view)

/-- Whether an included file with this text is left out. -/
def BuildOptions.leavesOut (options : BuildOptions) (text : Text) : Bool :=
  options.excludeMarkers.any fun marker => !marker.isEmpty && text.contains marker

theorem BuildConfig.resolver_excludes (config : BuildConfig) (entry : Path) (bindings : Bindings)
    (text : Text) :
    (config.resolver entry bindings).excludes text = config.options.leavesOut text :=
  List.any_filter

/-! ## Compiling over a reader -/

section

variable {m : Type → Type} [Monad m] [FileSystem m] (reader : Resolver → Reader m)

/-- Resolves an entry file; `reader` reads all other files. -/
def resolveWith (config : BuildConfig) (entry : Path) : BuildM m Resolved := do
  let source ← readEntry entry.normalize
  match config.bindings with
  | .error failure => throw failure
  | .ok bindings =>
    let resolver := config.resolver entry bindings
    let steps : ResolveM m Unit := resolutionStepsWith (reader resolver) resolver source
    let (outcome, resolution) ← (steps.run.run ⟨.empty config.nameMatching, 0⟩ :
      m (Except BuildError Unit × Resolution))
    orFail outcome
    return ⟨source, resolution.registry, resolution.scans⟩

def compileWith (config : BuildConfig) (entry : Path) : BuildM m Compiled := do
  let resolved ← resolveWith reader config entry
  let document ← orFail (assemble resolved.registry config.options resolved.source)
  let modules ← orFail resolved.modules
  return ⟨resolved.source.path, document, modules, resolved.scans⟩

omit reader

theorem resolveWith_plain (config : BuildConfig) (entry : Path) :
    (resolveWith .plain config entry : BuildM m Resolved) = resolve config entry := by
  simp only [resolveWith, resolutionStepsWith_plain]
  rfl

/-- Reading as a compilation does gives the compilation itself. -/
theorem compileWith_plain (config : BuildConfig) (entry : Path) :
    (compileWith .plain config entry : BuildM m Compiled) = compile config entry := by
  rw [compileWith, resolveWith_plain, compile]

end

/-! ## Accounting for a compilation -/

section

variable {σ α β : Type} [FileSystem (StateM σ)] {watch : Watch σ}

/-- From these files, the noting operation does the same as the operation and leaves notes that tell
the reads. -/
def Recounts (watch : Watch σ) (log : ReadLog) (files : σ) (action : BuildM (StateM σ) α)
    (noting : BuildM (StateM (Noted σ)) α) : Prop :=
  ∃ notes : ReadLog, noting.run.run ⟨files, log⟩ =
      ((action.run.run files).1, ⟨(action.run.run files).2, notes⟩) ∧
    watch.Settled notes (action.run.run files).2

namespace Recounts

variable {log : ReadLog} {files : σ}

theorem bind {first : BuildM (StateM σ) β} {firstNoting : BuildM (StateM (Noted σ)) β}
    {next : β → BuildM (StateM σ) α} {nextNoting : β → BuildM (StateM (Noted σ)) α}
    (before : Recounts watch log files first firstNoting)
    (after : ∀ (value : β) (notes : ReadLog) (left : σ), watch.Settled notes left →
      Recounts watch notes left (next value) (nextNoting value)) :
    Recounts watch log files (first >>= next) (firstNoting >>= nextNoting) := by
  obtain ⟨notes, same, settled⟩ := before
  rw [Recounts, build_bind_run, build_bind_run, same]
  generalize first.run.run files = result at settled
  obtain ⟨outcome, left⟩ := result
  cases outcome with
  | error failure => exact ⟨notes, rfl, settled⟩
  | ok value => exact after value notes left settled

theorem pure (settled : watch.Settled log files) (value : α) :
    Recounts watch log files (Pure.pure value) (Pure.pure value) :=
  ⟨log, rfl, settled⟩

/-- A step of resolution, whose failure is a result here. -/
theorem lift {step : ResolveM (StateM σ) α} {noting : ResolveM (StateM (Noted σ)) α}
    (accounts : Accounts watch step noting) {resolution : Resolution}
    (balances : watch.Balances log resolution files) :
    Recounts watch log files
      (liftM (step.run.run resolution) : BuildM (StateM σ) (Except BuildError α × Resolution))
      (liftM (noting.run.run resolution)) := by
  obtain ⟨notes, same, reached⟩ := accounts log resolution files balances
  refine ⟨notes, congrArg (fun result : (Except BuildError α × Resolution) × Noted σ =>
    ((.ok result.1 : Except Failure _), result.2)) same, ?_⟩
  change watch.Settled notes ((step.run.run resolution).run files).2
  generalize (step.run.run resolution).run files = result at reached
  obtain ⟨⟨error | value, after⟩, left⟩ := result
  · exact reached
  · exact reached.toSettled

theorem orFail (settled : watch.Settled log files) (outcome : Except BuildError α) :
    Recounts watch log files (orFail outcome) (orFail outcome) := by
  cases outcome <;> exact ⟨log, rfl, settled⟩

end Recounts

theorem readEntry_run (entry : Path) (files : σ) :
    (readEntry entry : BuildM (StateM σ) SourceFile).run.run files =
      match (FileSystem.readText entry : StateM σ _).run files with
      | (.error error, left) => (.error (.build (.ofFileError entry error)), left)
      | (.ok text, left) =>
        (((SourceFile.scan entry text).mapError (.ofScanError entry)).mapError .build, left) := by
  have asked : (liftM (FileSystem.readText entry : StateM σ _) :
      BuildM (StateM σ) (Except FileError Text)).run.run files =
        (.ok ((FileSystem.readText entry : StateM σ _).run files).1,
          ((FileSystem.readText entry : StateM σ _).run files).2) := rfl
  rw [readEntry, build_bind_run, asked]
  obtain ⟨error | text, left⟩ := (FileSystem.readText entry : StateM σ _).run files
  · rfl
  · dsimp only
    cases SourceFile.scan entry text <;> rfl

variable [LawfulFileSystem σ] (counts : CountsReadsOf watch.path watch.count)

include counts

/-- After the entry file has been read, the notes tell how often the place is read. -/
theorem resolve_recounts {config : BuildConfig}
    (agrees : config.options.leavesOut = watch.leavesOut) (entry : Path) {files : σ}
    (settled : watch.Settled []
      ((FileSystem.readText entry.normalize : StateM σ _).run files).2) :
    Recounts watch [] files (resolve config entry) (resolveWith .noting config entry) := by
  rw [Recounts, resolve, resolveWith, build_bind_run, build_bind_run, readEntry_run, readEntry_run,
    Noted.readText_run]
  generalize (FileSystem.readText entry.normalize : StateM σ _).run files = result at settled
  obtain ⟨error | text, left⟩ := result
  · exact ⟨[], rfl, settled⟩
  · dsimp only
    cases SourceFile.scan entry.normalize text with
    | error error => exact ⟨[], rfl, settled⟩
    | ok source =>
      cases config.bindings with
      | error failure => exact ⟨[], rfl, settled⟩
      | ok bindings =>
        have balances : watch.Balances [] ⟨.empty config.nameMatching, 0⟩ left :=
          ⟨settled, fun _ => by simp [Watch.storedBy, ReadLog.requests, Registry.empty]⟩
        have agreesToo (text : Text) :
            (config.resolver entry bindings).excludes text = watch.leavesOut text := by
          rw [BuildConfig.resolver_excludes, agrees]
        have accounts := resolutionSteps_accounts counts agreesToo source
        exact (Recounts.lift accounts balances).bind fun result notes left settled =>
          (Recounts.orFail settled result.1).bind fun _ notes left settled => .pure settled _

theorem compile_recounts {config : BuildConfig}
    (agrees : config.options.leavesOut = watch.leavesOut) (entry : Path) {files : σ}
    (settled : watch.Settled []
      ((FileSystem.readText entry.normalize : StateM σ _).run files).2) :
    Recounts watch [] files (compile config entry) (compileWith .noting config entry) := by
  apply (resolve_recounts counts agrees entry settled).bind
  intro resolved notes left settled
  apply (Recounts.orFail settled _).bind
  intro document notes left settled
  apply (Recounts.orFail settled _).bind
  intro modules notes left settled
  exact .pure settled _

end

section

variable {σ : Type} [FileSystem (StateM σ)] [LawfulFileSystem σ]

/-- Leaving notes changes neither the outcome of a compilation nor what it does to the files. If it
is the entry file, a file is read once; it is read whenever it is loaded as a module; and it is read
once for all directives that ask for it, unless it is left out: then each of them reads it. This
holds however the compilation ends. -/
theorem compile_reads_included {path : Path} {count : σ → Nat}
    (counts : CountsReadsOf path count) (config : BuildConfig) (entry : Path) (files : σ) :
    let plain := (compile config entry : BuildM (StateM σ) Compiled).run.run files
    let noted := (compileWith .noting config entry :
      BuildM (StateM (Noted σ)) Compiled).run.run ⟨files, []⟩
    let read := count files + (if path.same entry.normalize then 1 else 0) +
      noted.2.log.loads path
    (compileWith .plain config entry : BuildM (StateM σ) Compiled) = compile config entry ∧
      noted.1 = plain.1 ∧ noted.2.files = plain.2 ∧
      ((∀ text, (view files).Offers path text → config.options.leavesOut text = false) →
        count plain.2 = read + min 1 (noted.2.log.requests path)) ∧
      ((∀ text, (view files).Offers path text → config.options.leavesOut text = true) →
        count plain.2 = read + noted.2.log.requests path) := by
  intro plain noted read
  let watch (kept : Bool) : Watch σ :=
    ⟨path, count, count files + (if path.same entry.normalize then 1 else 0), view files,
      config.options.leavesOut, kept⟩
  -- The entry file is read before the first note.
  have settled (kept : Bool) : (watch kept).Settled []
      ((FileSystem.readText entry.normalize : StateM σ _).run files).2 :=
    ⟨(Asks.readText _ files).2, fun _ => by cases kept <;> exact counts.readText _ files⟩
  have recounts (kept : Bool) : ∃ notes : ReadLog, noted = (plain.1, ⟨plain.2, notes⟩) ∧
      (watch kept).Settled notes plain.2 :=
    compile_recounts counts rfl entry (settled kept)
  have agree : noted.1 = plain.1 ∧ noted.2.files = plain.2 := by
    obtain ⟨notes, same, -⟩ := recounts true
    rw [same]
    exact ⟨rfl, rfl⟩
  refine ⟨compileWith_plain config entry, agree.1, agree.2, ?_, ?_⟩
  · intro shown
    obtain ⟨notes, same, reached⟩ := recounts true
    simp only [read, same]
    exact reached.reads shown
  · intro hidden
    obtain ⟨notes, same, reached⟩ := recounts false
    simp only [read, same]
    exact reached.reads hidden

end

/-- A page and its panel that include one stylesheet. -/
def sharedDraft : Store :=
  .ofFiles [(.ofString "/src/main.js",
      ":import ui.Panel\n:include base.css\nPanel(); // draft\n".toUTF8),
    (.ofString "/src/ui/Panel.js", ":include /src/base.css\nvar Panel = 1; // draft\n".toUTF8),
    (.ofString "/src/base.css", "p \x7b margin: 0 \x7d /* draft */\n".toUTF8)] []

def withoutDrafts : BuildConfig :=
  { options := { excludeMarkers := ["draft".toList] } }

/-- The stylesheet is read once if it is kept, and twice if it is left out. -/
theorem compile_reads_included_sharedDraft :
    ((compile {} (.ofString "/src/main.js") :
        BuildM (StateM Store) Compiled).run.run sharedDraft).2.readsOf (.ofString "/src/base.css") =
          1 ∧
      ((compile withoutDrafts (.ofString "/src/main.js") :
        BuildM (StateM Store) Compiled).run.run sharedDraft).2.readsOf (.ofString "/src/base.css") =
          2 := by
  obtain ⟨-, -, -, kept, -⟩ := compile_reads_included
    (Store.countsReadsOf (.ofString "/src/base.css")) {} (.ofString "/src/main.js") sharedDraft
  obtain ⟨-, -, -, -, leftOut⟩ := compile_reads_included
    (Store.countsReadsOf (.ofString "/src/base.css")) withoutDrafts (.ofString "/src/main.js")
    sharedDraft
  have marked : ∀ content ∈ sharedDraft.tree.files.values, ∀ text ∈ Text.ofBytes? content,
      withoutDrafts.options.leavesOut text = true := by
    decide +kernel
  constructor
  · rw [kept fun _ _ => rfl]
    decide +kernel
  · rw [leftOut fun text offered => ?_]
    · decide +kernel
    · obtain ⟨other, -, read⟩ := offered
      obtain ⟨content, found, decoded⟩ := View.exists_of_readText read
      exact marked content (Store.mem_values_of_read found) text decoded

/-- The stylesheet is neither the entry file nor the file of a module. -/
theorem left_out_read_twice_sharedDraft :
    ∃ compiled, ((compile withoutDrafts (.ofString "/src/main.js") :
        BuildM (StateM Store) Compiled).run.run sharedDraft).1 = .ok compiled ∧
      compiled.entry = .ofString "/src/main.js" ∧
      compiled.modules.map CompiledModule.path = [.ofString "/src/ui/Panel.js"] ∧
      ((compile withoutDrafts (.ofString "/src/main.js") :
        BuildM (StateM Store) Compiled).run.run sharedDraft).2.reads =
          [.ofString "/src/main.js", .ofString "/src/ui/Panel.js", .ofString "/src/base.css",
            .ofString "/src/base.css"] := by
  have facts : ((compile withoutDrafts (.ofString "/src/main.js") :
      BuildM (StateM Store) Compiled).run.run sharedDraft).1.toOption.map (fun compiled =>
        (compiled.entry, compiled.modules.map CompiledModule.path)) =
          some (.ofString "/src/main.js", [.ofString "/src/ui/Panel.js"]) := by
    decide +kernel
  obtain ⟨compiled, compiles, parts⟩ := exists_of_toOption_map facts
  obtain ⟨opened, modules⟩ := Prod.mk.inj parts
  exact ⟨compiled, compiles, opened, modules, by decide +kernel⟩

end PageCompiler
