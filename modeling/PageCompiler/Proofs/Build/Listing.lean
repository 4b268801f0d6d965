import PageCompiler.Proofs.Assembly.Imports
import PageCompiler.Proofs.Assembly.Listing
import PageCompiler.Proofs.Build.Documents

/-! # Lists and documents agree

Listing the files of a page and compiling it resolve the same imports, and after that neither can
fail. The list names the files in the order in which the document shows them: every source file
behind those of its attachments that are new, dependencies first and the entry file last.
-/

namespace PageCompiler

open FileSystem (view)

/-! ## Failures -/

section

variable {σ : Type}

/-- An operation that only a first step can end fails when this step does. -/
theorem Builds.bind_error_iff {α β : Type} {first : BuildM (StateM σ) β}
    {next : β → BuildM (StateM σ) α} {known : β → Prop} (before : Builds first known)
    (after : ∀ value, known value → ∃ result, next value = Pure.pure result) (files : σ)
    (failure : Failure) :
    ((first >>= next).run.run files).1 = .error failure ↔
      (first.run.run files).1 = .error failure := by
  have holds := before files
  rw [build_bind_run]
  generalize first.run.run files = outcome at holds ⊢
  obtain ⟨cause | value, left⟩ := outcome
  · dsimp only
    rw [Except.error.injEq, Except.error.injEq]
  · obtain ⟨result, ends⟩ := after value holds
    dsimp only
    rw [ends]
    exact ⟨nofun, nofun⟩

variable [FileSystem (StateM σ)]

theorem compile_error_iff (config : BuildConfig) (entry : Path) (files : σ) (failure : Failure) :
    ((compile config entry : BuildM (StateM σ) Compiled).run.run files).1 = .error failure ↔
      ((resolve config entry : BuildM (StateM σ) Resolved).run.run files).1 = .error failure := by
  refine (resolve_builds config entry).bind_error_iff (fun resolved known => ?_) files failure
  obtain ⟨⟨modules, ordered⟩, documents⟩ := known.1.assembles known.2
  obtain ⟨document, assembled⟩ := documents config.options
  rw [assembled, Resolved.modules, ordered]
  exact ⟨_, rfl⟩

theorem listFiles_error_iff (config : BuildConfig) (options : ListOptions) (entry : Path)
    (files : σ) (failure : Failure) :
    ((listFiles config options entry : BuildM (StateM σ) (List Text)).run.run files).1 =
        .error failure ↔
      ((resolve config entry : BuildM (StateM σ) Resolved).run.run files).1 = .error failure := by
  refine (resolve_builds config entry).bind_error_iff (fun resolved known => ?_) files failure
  obtain ⟨⟨modules, ordered⟩, -⟩ := known.1.assembles known.2
  rw [Resolved.modules, ordered]
  exact ⟨_, rfl⟩

end

/-! ## Documents without further processing -/

/-- The configuration that leaves documents as they are collected. -/
def BuildConfig.unprocessed (config : BuildConfig) : BuildConfig :=
  { config with options := { config.options with
    stripLines := []
    stripBlocks := []
    cssToScript := false
    markupToScript := false } }

section

variable {σ : Type} [FileSystem (StateM σ)] {config : BuildConfig} {entry : Path} {files : σ}

theorem exists_unprocessed {resolved : Resolved} {compiled : Compiled} {left : σ}
    (resolves : (resolve config entry : BuildM (StateM σ) Resolved).run.run files =
      (.ok resolved, left))
    (modules : resolved.modules = .ok compiled.modules) :
    ∃ plain script, ((compile config.unprocessed entry :
        BuildM (StateM σ) Compiled).run.run files).1 = .ok plain ∧
      plain.modules = compiled.modules ∧
      sourceScript resolved.registry resolved.source = .ok script ∧
      ∀ kind, plain.document.fragments kind = (lineup resolved.registry []
        (compiled.modules.map CompiledModule.contributor ++
          [resolved.source.contributor script])).flatMap fun participant =>
            participant.fragments kind := by
  have known := resolve_builds config entry files
  rw [resolves] at known
  obtain ⟨document, assembled⟩ := (known.1.assembles known.2).2 config.unprocessed.options
  obtain ⟨ordered, script, order, scripted, shown⟩ := shows_of_assemble rfl rfl rfl rfl assembled
  cases order.symm.trans modules
  rw [collect_eq_flatMap] at shown
  let plain : Compiled := ⟨resolved.source.path, document, compiled.modules, resolved.scans⟩
  have compiles : (compile config.unprocessed entry :
      BuildM (StateM σ) Compiled).run.run files = (.ok plain, left) :=
    compile_eq_ok_iff.mpr ⟨resolved, resolves, assembled, modules, rfl, rfl⟩
  exact ⟨plain, script, congrArg Prod.fst compiles, rfl, scripted, shown.fragments_eq⟩

/-! ## The entry file -/

/-- No module is the entry file, which would import itself through the modules. -/
theorem Compiled.GoesBackTo.path_ne [LawfulFileSystem σ] {resolved : Resolved} {compiled : Compiled}
    (goesBack : compiled.GoesBackTo (view files) config entry resolved) {made : CompiledModule}
    (member : made ∈ compiled.modules) : made.path ≠ resolved.source.path := by
  intro same
  obtain ⟨bindings, -, moves⟩ := goesBack.origin.moves
  obtain ⟨text, read, scanned⟩ := goesBack.origin.scanned
  obtain ⟨segments, -, opened⟩ := exists_of_map_eq_ok scanned
  have reached := (Registry.mem_order_iff goesBack.sound.keyed goesBack.modules made).mp member
  obtain ⟨-, textToo, source, readToo, scannedToo, dependencies, -⟩ :=
    (moves.faithful.made _ _ reached.registered).exists_file
  -- Its file is that of the entry, so it depends on what the entry imports.
  rw [same, ← opened] at readToo scannedToo
  cases read.symm.trans readToo
  cases scanned.symm.trans scannedToo
  obtain ⟨root, imported, path⟩ := reached.path
  have edge : resolved.registry.DependsOn (resolved.registry.keyOf made.name)
      (resolved.registry.keyOf root) :=
    ⟨made, reached.registered, root, dependencies ▸ mem_dependenciesOf_of_mem imported, rfl⟩
  exact goesBack.sound.acyclic _ (.head' edge path)

/-! ## Lists -/

theorem listFiles_run {resolved : Resolved} {modules : List CompiledModule} {left : σ}
    (resolves : (resolve config entry : BuildM (StateM σ) Resolved).run.run files =
      (.ok resolved, left))
    (ordered : resolved.modules = .ok modules) (options : ListOptions) :
    ((listFiles config options entry : BuildM (StateM σ) (List Text)).run.run files).1 =
      .ok ((participants resolved.registry
        (modules.map CompiledModule.path ++ [resolved.source.path])).map options.line) := by
  rw [listFiles, build_bind_run, resolves]
  dsimp only
  rw [ordered]
  rfl

theorem Compiled.GoesBackTo.pairwise_contributors [LawfulFileSystem σ] {resolved : Resolved}
    {compiled : Compiled} (goesBack : compiled.GoesBackTo (view files) config entry resolved)
    (different : compiled.modules.Pairwise fun first second =>
      first.path.same second.path = false) (script : Text) :
    (compiled.modules.map CompiledModule.contributor ++
      [resolved.source.contributor script]).Pairwise
        fun first second => first.path.text ≠ second.path.text := by
  refine List.pairwise_append.mpr ⟨List.pairwise_map.mpr ?_, List.pairwise_singleton _ _, ?_⟩
  · exact different.imp Path.text_ne_of_same_eq_false
  · intro contributor listed last isLast agree
    obtain ⟨made, member, rfl⟩ := List.mem_map.mp listed
    rw [List.mem_singleton.mp isLast] at agree
    exact goesBack.path_ne member (congrArg Path.mk agree)

/-- A list of files fails exactly when the compilation does, with the same failure. If they succeed,
no attachment is a source file and no two modules share a file, the list has the modules in the
order of the compilation and then the entry file, each behind those of its attachments that are not
listed yet; no path comes twice; and the sections of the document, without further processing, show
the files in the order of their paths. -/
theorem listFiles_agrees [LawfulFileSystem σ] (config : BuildConfig) (entry : Path) (files : σ) :
    (∀ (options : ListOptions) (failure : Failure),
      ((listFiles config options entry : BuildM (StateM σ) (List Text)).run.run files).1 =
          .error failure ↔
        ((compile config entry : BuildM (StateM σ) Compiled).run.run files).1 = .error failure) ∧
      ∀ compiled, ((compile config entry : BuildM (StateM σ) Compiled).run.run files).1 =
          .ok compiled →
        ∃ resolved lines plain script,
          ((resolve config entry : BuildM (StateM σ) Resolved).run.run files).1 = .ok resolved ∧
          ((listFiles config {} entry : BuildM (StateM σ) (List Text)).run.run files).1 =
            .ok lines ∧
          ((compile config.unprocessed entry : BuildM (StateM σ) Compiled).run.run files).1 =
            .ok plain ∧
          plain.modules = compiled.modules ∧
          sourceScript resolved.registry resolved.source = .ok script ∧
          (resolved.registry.AttachesOthers
              (compiled.modules.map CompiledModule.path ++ [resolved.source.path]) →
            (compiled.modules.Pairwise fun first second =>
              first.path.same second.path = false) →
            let files := lineup resolved.registry []
              (compiled.modules.map CompiledModule.contributor ++
                [resolved.source.contributor script])
            lines = (files.map fun file => file.path.text) ∧ lines.Nodup ∧
            (∀ kind, plain.document.fragments kind =
              files.flatMap fun file => file.fragments kind) ∧
            ∀ first ∈ files, ∀ second ∈ files,
              [first.path.text, second.path.text].Sublist lines → ∀ kind,
                (first.fragments kind ++ second.fragments kind).Sublist
                  (plain.document.fragments kind)) := by
  refine ⟨fun options failure => (listFiles_error_iff ..).trans (compile_error_iff ..).symm,
    fun compiled compiles => ?_⟩
  obtain ⟨resolved, resolves, goesBack⟩ := exists_goesBackTo compiles
  obtain ⟨plain, script, plainly, modules, scripted, shown⟩ :=
    exists_unprocessed (Prod.ext resolves rfl) goesBack.modules
  refine ⟨resolved, _, plain, script, resolves,
    listFiles_run (Prod.ext resolves rfl) goesBack.modules {}, plainly, modules, scripted,
    fun apart different => ?_⟩
  have sources : compiled.modules.map CompiledModule.path ++ [resolved.source.path] =
      (compiled.modules.map CompiledModule.contributor ++
        [resolved.source.contributor script]).map Contributor.path := by
    rw [List.map_append, List.map_map]
    rfl
  rw [sources] at apart ⊢
  have distinct := pairwise_lineup apart (goesBack.pairwise_contributors different script) []
  have lines (paths : List Path) : paths.map (ListOptions.line {}) = paths.map Path.text := by
    refine List.map_congr_left fun path _ => ?_
    simp [ListOptions.line]
  rw [participants_eq apart, lines, List.map_map]
  exact ⟨rfl, List.pairwise_map.mpr distinct, shown, fun first member second memberToo order kind =>
    sublist_fragments shown
      (sublist_of_texts (List.pairwise_map.mpr distinct) member memberToo order) kind⟩

end

/-- The attachment that both modules link is listed in front of the first one alone. -/
theorem listFiles_agrees_sharedAttachment :
    ∃ (compiled : Compiled) (lines : List Text) (plain : Compiled) (files : List Participant),
      ((compile {} (.ofString "/src/main.js") :
        BuildM (StateM Store) Compiled).run.run sharedAttachment).1 = .ok compiled ∧
      ((listFiles {} {} (.ofString "/src/main.js") :
        BuildM (StateM Store) (List Text)).run.run sharedAttachment).1 = .ok lines ∧
      lines = ["/src/ui/base.css".toList, "/src/ui/Button.js".toList, "/src/ui/Panel.js".toList,
        "/src/banner.html".toList, "/src/main.js".toList] ∧
      ((compile (BuildConfig.unprocessed {}) (.ofString "/src/main.js") :
        BuildM (StateM Store) Compiled).run.run sharedAttachment).1 = .ok plain ∧
      lines = (files.map fun file => file.path.text) ∧ lines.Nodup ∧
      ∀ kind, plain.document.fragments kind = files.flatMap fun file => file.fragments kind := by
  have facts :
      ((compile {} (.ofString "/src/main.js") :
        BuildM (StateM Store) Compiled).run.run sharedAttachment).1.toOption.map (fun compiled =>
          compiled.modules.map CompiledModule.path) =
        some [.ofString "/src/ui/Button.js", .ofString "/src/ui/Panel.js"] ∧
      ((resolve {} (.ofString "/src/main.js") :
        BuildM (StateM Store) Resolved).run.run sharedAttachment).1.toOption.map (fun resolved =>
          decide (resolved.registry.AttachesOthers
            ([.ofString "/src/ui/Button.js", .ofString "/src/ui/Panel.js"] ++
              [resolved.source.path]))) = some true ∧
      ((listFiles {} {} (.ofString "/src/main.js") :
        BuildM (StateM Store) (List Text)).run.run sharedAttachment).1.toOption =
        some ["/src/ui/base.css".toList, "/src/ui/Button.js".toList, "/src/ui/Panel.js".toList,
          "/src/banner.html".toList, "/src/main.js".toList] := by
    decide +kernel
  obtain ⟨compiles, attaches, lists⟩ := facts
  obtain ⟨compiled, ran, paths⟩ := exists_of_toOption_map compiles
  obtain ⟨resolved, lines, plain, script, resolves, listed, plainly, -, -, agree⟩ :=
    (listFiles_agrees {} (.ofString "/src/main.js") sharedAttachment).2 compiled ran
  rw [resolves] at attaches
  rw [listed] at lists
  have different : compiled.modules.Pairwise fun first second =>
      first.path.same second.path = false := by
    refine List.pairwise_map.mp (?_ : (compiled.modules.map CompiledModule.path).Pairwise
      fun first second => first.same second = false)
    rw [paths]
    decide
  rw [paths] at agree
  obtain ⟨same, distinct, shown, -⟩ :=
    agree (of_decide_eq_true (Option.some.inj attaches)) different
  exact ⟨compiled, lines, plain, _, ran, listed, Option.some.inj lists, plainly, same, distinct,
    shown⟩

end PageCompiler
