import PageCompiler.Proofs.Assembly.Arrangement
import PageCompiler.Proofs.Assembly.Trimming
import PageCompiler.Proofs.Build.Conclusion
import PageCompiler.Proofs.Resolution.Reproduction

/-! # Documents of builds

A build resolves its entry file with an empty registry, so in the end the registry is faithful to
the files: every module in it is made from the file at its path. The document is assembled from
this registry, and nothing gets lost, comes twice or stands in front of what it needs.
-/

namespace PageCompiler

open FileSystem (view)

/-! ## Modules and their files -/

/-- A made module has the dependencies and blocks of its file, and its script is not blank. -/
theorem View.Made.exists_file {seen : View} {resolver : Resolver} {matching : NameMatching}
    {compiled : CompiledModule} (made : seen.Made resolver matching compiled) :
    tidy compiled.script ≠ [] ∧ ∃ text source, seen.readText compiled.path = .ok text ∧
      SourceFile.scan compiled.path text = .ok source ∧
      compiled.dependencies = dependenciesOf source ∧
      compiled.markup = source.blocks .markup ∧
      compiled.stylesheet = source.blocks .stylesheet := by
  obtain ⟨-, -, -, loads, compiles⟩ := made
  obtain ⟨text, read, scanned⟩ := loads.exists_file
  obtain ⟨body, -, rfl⟩ := exists_of_compileModule compiles
  exact ⟨tidy_moduleDefinition_ne_nil _ _ _, text, _, read, scanned, rfl, rfl, rfl⟩

section

variable {σ : Type} [FileSystem (StateM σ)] [LawfulFileSystem σ]

/-! ## Successful runs -/

omit [LawfulFileSystem σ] in
theorem compile_run {config : BuildConfig} {entry : Path} {compiled : Compiled} {files last : σ}
    (succeeds : (compile config entry : BuildM (StateM σ) Compiled).run.run files =
      (.ok compiled, last)) :
    ∃ resolved left, (resolve config entry : BuildM (StateM σ) Resolved).run.run files =
        (.ok resolved, left) ∧
      assemble resolved.registry config.options resolved.source = .ok compiled.document := by
  obtain ⟨resolved, ran, assembled, -⟩ := compile_eq_ok_iff.mp succeeds
  exact ⟨resolved, last, ran, assembled⟩

theorem resolve_run {config : BuildConfig} {entry : Path} {resolved : Resolved} {files left : σ}
    (succeeds : (resolve config entry : BuildM (StateM σ) Resolved).run.run files =
      (.ok resolved, left)) :
    (∃ text, (view files).readText entry.normalize = .ok text ∧
      SourceFile.scan entry.normalize text = .ok resolved.source) ∧
      ∃ resolver, resolved.registry.Faithful (view files) resolver := by
  have goesBack := (resolve_concludes (stable_view _) (LawfulFileSystem.bounded files) config entry
    files rfl).2
  rw [succeeds] at goesBack
  obtain ⟨bindings, -, moves⟩ := goesBack.moves
  exact ⟨goesBack.scanned, _, moves.faithful⟩

/-! ## Documents -/

/-- The document of a successful compilation, without further processing, shows pieces that are
arranged as the entry file and the modules behind it ask for: each attachment once, each module with
one script and with the blocks of its file, the entry file last, and nothing in front of what it
needs. -/
theorem compile_arranges {config : BuildConfig} {entry : Path} {files : σ} {compiled : Compiled}
    (lines : config.options.stripLines = []) (blocks : config.options.stripBlocks = [])
    (stylesheets : config.options.cssToScript = false)
    (markup : config.options.markupToScript = false)
    (succeeds : ((compile config entry : BuildM (StateM σ) Compiled).run.run files).1 =
      .ok compiled) :
    ∃ resolved script pieces,
      ((resolve config entry : BuildM (StateM σ) Resolved).run.run files).1 = .ok resolved ∧
      (∃ text, (view files).readText entry.normalize = .ok text ∧
        SourceFile.scan entry.normalize text = .ok resolved.source) ∧
      sourceScript resolved.registry resolved.source = .ok script ∧
      compiled.document.Shows pieces ∧
      resolved.registry.Arranges resolved.source script pieces ∧
      ∀ made, resolved.registry.Reached (importedNames resolved.source) made →
        tidy made.script ≠ [] ∧ ∃ text source, (view files).readText made.path = .ok text ∧
          SourceFile.scan made.path text = .ok source ∧
          made.dependencies = dependenciesOf source ∧
          made.markup = source.blocks .markup ∧
          made.stylesheet = source.blocks .stylesheet := by
  obtain ⟨resolved, left, ran, assembled⟩ := compile_run (Prod.ext succeeds rfl)
  obtain ⟨opened, resolver, faithful⟩ := resolve_run ran
  obtain ⟨modules, script, ordered, scripted, shown⟩ :=
    shows_of_assemble lines blocks stylesheets markup assembled
  refine ⟨resolved, script, _, congrArg Prod.fst ran, opened, scripted, shown,
    arranges_collect faithful.sound ordered faithful.filed script, fun made reached => ?_⟩
  exact (faithful.made _ _ reached.registered).exists_file

end

/-- A page and two modules that share an attachment; one of them imports the other. -/
def sharedAttachment : Store :=
  .ofFiles [(.ofString "/src/main.js",
      ":import ui.Panel\n:include banner.html\n/*html*/<main></main>/*~html*/\nPanel();\n".toUTF8),
    (.ofString "/src/banner.html", "<header></header>\n".toUTF8),
    (.ofString "/src/ui/base.css", "p \x7b margin: 0 \x7d\n".toUTF8),
    (.ofString "/src/ui/Panel.js", (":include base.css\n:import ui.Button\n" ++
      "/*html*/<nav></nav>/*~html*/\nvar Panel = Button;\n").toUTF8),
    (.ofString "/src/ui/Button.js",
      ":include base.css\n/*css*/b \x7b top: 0 \x7d/*~css*/\nvar Button = 1;\n".toUTF8)] []

theorem compile_arranges_sharedAttachment :
    ∃ compiled, ((compile {} (.ofString "/src/main.js") :
        BuildM (StateM Store) Compiled).run.run sharedAttachment).1 = .ok compiled ∧
      compiled.document.stylesheet.map Fragment.origin =
        ["/src/ui/base.css".toList, "ui.Button".toList] ∧
      compiled.document.markup.map Fragment.origin =
        ["ui.Panel".toList, "/src/banner.html".toList, "/src/main.js".toList] ∧
      ∃ (resolved : Resolved) (script : Text) (pieces : List Piece),
        sourceScript resolved.registry resolved.source = .ok script ∧
        compiled.document.Shows pieces ∧
        resolved.registry.Arranges resolved.source script pieces := by
  have documents : ((compile {} (.ofString "/src/main.js") :
      BuildM (StateM Store) Compiled).run.run sharedAttachment).1.toOption.map (fun compiled =>
        (compiled.document.stylesheet.map Fragment.origin,
          compiled.document.markup.map Fragment.origin)) =
      some (["/src/ui/base.css".toList, "ui.Button".toList],
        ["ui.Panel".toList, "/src/banner.html".toList, "/src/main.js".toList]) := by
    decide +kernel
  cases outcome : ((compile {} (.ofString "/src/main.js") :
      BuildM (StateM Store) Compiled).run.run sharedAttachment).1 with
  | ok compiled =>
    obtain ⟨resolved, script, pieces, -, -, scripted, shown, arranges, -⟩ :=
      compile_arranges rfl rfl rfl rfl outcome
    rw [outcome] at documents
    obtain ⟨stylesheets, markup⟩ := Prod.mk.inj (Option.some.inj documents)
    exact ⟨compiled, rfl, stylesheets, markup, resolved, script, pieces, scripted, shown, arranges⟩
  | error failure =>
    rw [outcome] at documents
    cases documents

end PageCompiler
