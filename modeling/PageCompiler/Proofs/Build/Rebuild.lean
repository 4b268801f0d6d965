import PageCompiler.Proofs.Build.Artifacts
import PageCompiler.Proofs.Resolution.Repetition

/-! # Rebuilding changes nothing

Where names are compared as they are written, a compilation depends on the files through the paths
that it asks about. A build that writes none of them can be done again: the second compilation comes
to the same document, and its artifacts are in their places already.
-/

namespace PageCompiler

open PageCompiler.Tree (keyOf)
open FileSystem (view)

/-! ## Compiling twice -/

/-- The operation has failed at the limit on nesting. -/
def FailsAtLimit {α : Type} (result : Except Failure α) : Prop :=
  ∃ name, result = .error (.build (.nestingLimit name))

section

variable {σ τ : Type} [FileSystem (StateM σ)] [FileSystem (StateM τ)]

def BuildRepeats {α : Type} (first second : View) (action : BuildM (StateM (Observed σ)) α)
    (again : BuildM (StateM τ) α) : Prop :=
  Repeats first second action.run again.run fun result other =>
    result = other ∨ FailsAtLimit result ∨ FailsAtLimit other

namespace BuildRepeats

variable {α β : Type} {first second : View}

theorem pure (value : α) :
    BuildRepeats first second (Pure.pure value : BuildM (StateM (Observed σ)) α)
      (Pure.pure value : BuildM (StateM τ) α) :=
  Repeats.pure (.inl rfl)

theorem throw (failure : Failure) :
    BuildRepeats first second (throw failure : BuildM (StateM (Observed σ)) α)
      (throw failure : BuildM (StateM τ) α) :=
  Repeats.pure (.inl rfl)

theorem orFail (outcome : Except BuildError α) :
    BuildRepeats first second (orFail outcome : BuildM (StateM (Observed σ)) α)
      (orFail outcome : BuildM (StateM τ) α) := by
  cases outcome with
  | ok value => exact pure value
  | error error => exact throw _

theorem bind {action : BuildM (StateM (Observed σ)) β} {again : BuildM (StateM τ) β}
    {next : β → BuildM (StateM (Observed σ)) α} {nextAgain : β → BuildM (StateM τ) α}
    (before : BuildRepeats first second action again)
    (after : ∀ value, BuildRepeats first second (next value) (nextAgain value)) :
    BuildRepeats first second (action >>= next) (again >>= nextAgain) := by
  rw [BuildRepeats, ExceptT.run_bind, ExceptT.run_bind]
  refine Repeats.bind before (fun _ => .inl rfl) ?_
  rintro outcome otherOutcome (rfl | ⟨name, rfl⟩ | ⟨name, rfl⟩)
  · cases outcome with
    | ok value => exact after value
    | error failure => exact .pure (.inl rfl)
  · cases otherOutcome with
    | ok value =>
      exact ⟨fun _ kept => ⟨kept, List.Subset.refl _⟩, (after value).keepsAgain,
        fun _ _ _ _ _ => .inr (.inl ⟨name, rfl⟩)⟩
    | error failure => exact .pure (.inr (.inl ⟨name, rfl⟩))
  · cases outcome with
    | ok value =>
      exact ⟨(after value).keeps, fun _ kept => kept, fun _ _ _ _ _ => .inr (.inr ⟨name, rfl⟩)⟩
    | error failure => exact .pure (.inr (.inr ⟨name, rfl⟩))

theorem lift_bind {action : StateM (Observed σ) β} {again : StateM τ β} {between : β → β → Prop}
    (repeats : Repeats first second action again between)
    (reflexive : ∀ value, between value value)
    {next : β → BuildM (StateM (Observed σ)) α} {nextAgain : β → BuildM (StateM τ) α}
    (after : ∀ value other, between value other →
      BuildRepeats first second (next value) (nextAgain other)) :
    BuildRepeats first second (liftM action >>= next) (liftM again >>= nextAgain) :=
  repeats.bind reflexive after

end BuildRepeats

variable [LawfulFileSystem σ] [LawfulFileSystem τ] {first second : View}

theorem readEntry_repeats (entry : Path) :
    BuildRepeats first second (readEntry entry : BuildM (StateM (Observed σ)) SourceFile)
      (readEntry entry : BuildM (StateM τ) SourceFile) := by
  refine .lift_bind (Repeats.readText entry) (fun _ => rfl) ?_
  rintro outcome _ rfl
  cases outcome with
  | ok text => exact .orFail _
  | error error => exact .throw _

theorem resolve_repeats {config : BuildConfig} (exact_ : config.nameMatching = .exact)
    (entry : Path) :
    BuildRepeats first second (resolve config entry : BuildM (StateM (Observed σ)) Resolved)
      (resolve config entry : BuildM (StateM τ) Resolved) := by
  refine (readEntry_repeats entry.normalize).bind fun source => ?_
  cases config.bindings with
  | error failure => exact .throw failure
  | ok bindings =>
    have exactToo : (config.resolver entry bindings).policy.matching = .exact := exact_
    have repeats : StepRepeats first second (do
        loadBindings (config.resolver entry bindings)
        resolveImports (config.resolver entry bindings) source :
          ResolveM (StateM (Observed σ)) Unit) (do
        loadBindings (config.resolver entry bindings)
        resolveImports (config.resolver entry bindings) source : ResolveM (StateM τ) Unit) :=
      (loadBindings_repeats exactToo).bind fun _ => resolveImports_repeats exactToo source
    refine .lift_bind (repeats ⟨.empty config.nameMatching, 0⟩) (fun _ => .inl rfl) ?_
    rintro ⟨outcome, resolution⟩ ⟨otherOutcome, otherResolution⟩
      (same | ⟨name, ended⟩ | ⟨name, ended⟩)
    · cases same
      exact (BuildRepeats.orFail outcome).bind fun _ => .pure _
    · cases ended
      cases otherOutcome with
      | ok value => exact Repeats.pure (.inr (.inl ⟨name, rfl⟩))
      | error error => exact Repeats.pure (.inr (.inl ⟨name, rfl⟩))
    · cases ended
      cases outcome with
      | ok value => exact Repeats.pure (.inr (.inr ⟨name, rfl⟩))
      | error error => exact Repeats.pure (.inr (.inr ⟨name, rfl⟩))

theorem compile_repeats {config : BuildConfig} (exact_ : config.nameMatching = .exact)
    (entry : Path) :
    BuildRepeats first second (compile config entry : BuildM (StateM (Observed σ)) Compiled)
      (compile config entry : BuildM (StateM τ) Compiled) := by
  refine (resolve_repeats exact_ entry).bind fun resolved => ?_
  exact (BuildRepeats.orFail _).bind fun document => (BuildRepeats.orFail _).bind fun _ => .pure _

/-- The paths that a compilation asks about. -/
def askedPaths (config : BuildConfig) (entry : Path) (files : σ) : List Path :=
  ((compile config entry : BuildM (StateM (Observed σ)) Compiled).run.run ⟨files, []⟩).2.asked

/-- Files that answer alike for the paths that a compilation asks about compile alike. -/
theorem compile_eq_of_agreeOn {config : BuildConfig} (exact_ : config.nameMatching = .exact)
    (entry : Path) (files : σ) (others : τ)
    (agree : (view files).AgreeOn (view others) (askedPaths config entry files)) :
    ((compile config entry : BuildM (StateM τ) Compiled).run.run others).1 =
      ((compile config entry : BuildM (StateM σ) Compiled).run.run files).1 := by
  let observed : Observed σ := ⟨files, []⟩
  -- No run reaches the limit, so the observed run has the result of either other one.
  have within : ¬ FailsAtLimit ((compile config entry :
      BuildM (StateM (Observed σ)) Compiled).run.run observed).1 :=
    fun ⟨name, failed⟩ => compile_ne_nestingLimit config entry observed name failed
  have plain := (compile_repeats (σ := σ) (τ := σ) exact_ entry).agree observed files rfl rfl
    fun _ _ => ⟨rfl, rfl⟩
  have other := (compile_repeats (σ := σ) (τ := τ) exact_ entry).agree observed others rfl rfl
    agree
  have same := plain.resolve_right fun limit => limit.elim within
    fun ⟨name, failed⟩ => compile_ne_nestingLimit config entry files name failed
  have sameToo := other.resolve_right fun limit => limit.elim within
    fun ⟨name, failed⟩ => compile_ne_nestingLimit config entry others name failed
  exact sameToo.symm.trans same

end

/-! ## Building twice -/

theorem view_agreeOn {store other : Store} (unruled : store.rules = [])
    (unruledToo : other.rules = []) {keys : List Text}
    (same : ∀ key ∉ keys, other.fileMap key = store.fileMap key) {paths : List Path}
    (apart : ∀ path ∈ paths, keyOf path ∉ keys) :
    (view store).AgreeOn (view other) paths := by
  intro path member
  have found : other.tree.files[keyOf path]? = store.tree.files[keyOf path]? :=
    same _ (apart path member)
  rw [Store.view_eq, Store.view_eq]
  simp only [Store.failure?_of_unruled unruled, Store.failure?_of_unruled unruledToo,
    Option.map_none, Option.getD_none, Tree.read, Tree.isFile,
    Std.TreeMap.contains_eq_isSome_getElem?, found, and_self]

/-- A build that writes nothing it has asked about, and nothing beside a backup that was left behind,
can be done again: it succeeds with the same result, and all files stay as the first build has left
them. -/
theorem rebuild_changes_nothing (config : BuildConfig) (entry : Path) (store : Store)
    (exact_ : config.nameMatching = .exact) (unruled : store.rules = []) {built : Built}
    (succeeded : ((build config entry : BuildM (StateM Store) Built).run.run store).1 = .ok built)
    (fresh : ∀ artifact ∈ built.artifacts, store.tree.isFile (stagingPath artifact.path) = false ∧
      store.tree.isFile (backupPath artifact.path) = false)
    (apart : ∀ path ∈ askedPaths config entry store,
      keyOf path ∉ storedKeys (built.artifacts.map Artifact.path)) :
    let first := ((build config entry : BuildM (StateM Store) Built).run.run store).2
    let second := (build config entry : BuildM (StateM Store) Built).run.run first
    second.1 = .ok built ∧ second.2.tree.files.toList = first.tree.files.toList := by
  intro first second
  cases compiling : ((compile config entry : BuildM (StateM Store) Compiled).run.run store).1 with
  | error failure =>
    have run := build_run_of_error (Prod.ext compiling rfl)
    cases (congrArg Prod.fst run).symm.trans succeeded
  | ok compiled =>
    obtain ⟨after, rules, run, receives⟩ := build_receives unruled compiling
    cases (congrArg Prod.fst run).symm.trans succeeded
    obtain rfl : after = first := (congrArg Prod.snd run).symm
    have agree := view_agreeOn unruled rules receives.others apart
    have compilingAgain := (compile_eq_of_agreeOn exact_ entry store first agree).trans compiling
    obtain ⟨last, -, runAgain, receivesAgain⟩ := build_receives rules compilingAgain
    have absent : ∀ artifact ∈ compiled.artifacts config,
        store.fileMap (backupKey artifact.path) = none := by
      intro artifact member
      obtain ⟨-, missing⟩ := fresh artifact member
      rw [Tree.isFile_eq, Option.isSome_eq_false_iff, Option.isNone_iff_eq_none] at missing
      exact missing
    refine ⟨congrArg Prod.fst runAgain, Tree.toList_eq_of_fileMap_eq ?_⟩
    have ends : second.2 = last := congrArg Prod.snd runAgain
    rw [ends]
    exact receives.eq_of_receives receivesAgain absent

/-- A page that imports a module and includes a stylesheet, and an older page in the place of its
output. -/
def builtBefore : Store :=
  .ofFiles [(.ofString "/src/main.js",
      ":import ui.Button\n:include base.css\nButton();\n".toUTF8),
    (.ofString "/src/base.css", "p \x7b margin: 0 \x7d\n".toUTF8),
    (.ofString "/src/ui/Button.js", "var Button = 1;\n".toUTF8),
    (.ofString "/dist/main.html", "previous".toUTF8)] []

theorem rebuild_changes_nothing_builtBefore :
    ∃ built, ((build splitConfig (.ofString "/src/main.js") :
        BuildM (StateM Store) Built).run.run builtBefore).1 = .ok built ∧
      built.artifacts.map Artifact.path =
        [.ofString "/dist/main.html", .ofString "/dist/main.css", .ofString "/dist/main.js"] ∧
      askedPaths splitConfig (.ofString "/src/main.js") builtBefore =
        [.ofString "/src/main.js", .ofString "/src/ui/Button.js", .ofString "/src/ui/Button.js",
          .ofString "/src/base.css", .ofString "/src/base.css"] ∧
      let first := ((build splitConfig (.ofString "/src/main.js") :
        BuildM (StateM Store) Built).run.run builtBefore).2
      let second := (build splitConfig (.ofString "/src/main.js") :
        BuildM (StateM Store) Built).run.run first
      second.1 = .ok built ∧ second.2.tree.files.toList = first.tree.files.toList := by
  have places : ((build splitConfig (.ofString "/src/main.js") :
      BuildM (StateM Store) Built).run.run builtBefore).1.toOption.map (fun built =>
        built.artifacts.map Artifact.path) =
      some [.ofString "/dist/main.html", .ofString "/dist/main.css",
        .ofString "/dist/main.js"] := by
    decide +kernel
  have asked : askedPaths splitConfig (.ofString "/src/main.js") builtBefore =
      [.ofString "/src/main.js", .ofString "/src/ui/Button.js", .ofString "/src/ui/Button.js",
        .ofString "/src/base.css", .ofString "/src/base.css"] := by
    decide +kernel
  cases outcome : ((build splitConfig (.ofString "/src/main.js") :
      BuildM (StateM Store) Built).run.run builtBefore).1 with
  | error failure =>
    rw [outcome] at places
    cases places
  | ok built =>
    rw [outcome] at places
    replace places : built.artifacts.map Artifact.path = _ := Option.some.inj places
    have fresh : ∀ path ∈ built.artifacts.map Artifact.path,
        builtBefore.tree.isFile (stagingPath path) = false ∧
          builtBefore.tree.isFile (backupPath path) = false := by
      rw [places]
      decide +kernel
    have apart : ∀ path ∈ askedPaths splitConfig (.ofString "/src/main.js") builtBefore,
        keyOf path ∉ storedKeys (built.artifacts.map Artifact.path) := by
      rw [places, asked]
      decide +kernel
    exact ⟨built, rfl, places, asked, rebuild_changes_nothing splitConfig
      (.ofString "/src/main.js") builtBefore rfl rfl outcome (List.forall_mem_map.mp fresh) apart⟩

end PageCompiler
