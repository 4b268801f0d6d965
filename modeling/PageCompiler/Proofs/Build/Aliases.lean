import PageCompiler.Proofs.Assembly.Aliases
import PageCompiler.Proofs.Assembly.Pieces
import PageCompiler.Proofs.Build.Conclusion
import PageCompiler.Proofs.Build.RegisteredImports
import PageCompiler.Proofs.Registry.Postorder

/-! # Aliases agree with definitions

A page has the scripts of the modules in dependency order and then that of the entry file, so the
module that an import means is always defined in front of the import. The aliases in the place of
the directive are built from this module: from the name that its definition stores it under and from
what the definition returns there, in whatever spelling the import has.
-/

namespace PageCompiler

open FileSystem (view)

/-! ## Parts of a compilation -/

/-- The part is in the page, with the scripts of the given modules in front of it. -/
inductive Compiled.Places (seen : View) (entry : Path) (compiled : Compiled) :
    List CompiledModule → Part → Prop where
  | module {earlier later : List CompiledModule} {made : CompiledModule} {text : Text}
      {source : SourceFile} (split : compiled.modules = earlier ++ made :: later)
      (read : seen.readText made.path = .ok text)
      (scanned : SourceFile.scan made.path text = .ok source) :
      Places seen entry compiled earlier (.module made source)
  | entry {text : Text} {source : SourceFile} (read : seen.readText entry.normalize = .ok text)
      (scanned : SourceFile.scan entry.normalize text = .ok source) :
      Places seen entry compiled compiled.modules (.entry source)

theorem Compiled.Places.earlier_prefix {seen : View} {entry : Path} {compiled : Compiled}
    {earlier : List CompiledModule} {part : Part}
    (places : compiled.Places seen entry earlier part) : earlier <+: compiled.modules := by
  cases places with
  | module split => exact ⟨_, split.symm⟩
  | entry => exact List.prefix_rfl

theorem mem_importedNames {source : SourceFile} {before after : List Segment} {directive : Segment}
    {name : ModuleName} (split : source.segments = before ++ directive :: after)
    (imports : directive.content = .directive (.importModule name)) :
    name ∈ importedNames source := by
  rw [importedNames_eq_flatMap, split]
  refine List.mem_flatMap.mpr ⟨directive, List.mem_append_right _ List.mem_cons_self, ?_⟩
  simp [Segment.importedNames, imports]

/-- The fragment that defines a module. -/
def CompiledModule.definition (compiled : CompiledModule) : Fragment :=
  ⟨compiled.name.qualified, compiled.script⟩

theorem CompiledModule.pair_sublist {before after : List CompiledModule}
    {first second : CompiledModule} (member : first ∈ before) :
    [first, second].Sublist (before ++ second :: after) :=
  (List.singleton_sublist.mpr member).append (List.singleton_sublist.mpr List.mem_cons_self)

namespace Compiled.GoesBackTo

variable {seen : View} {config : BuildConfig} {entry : Path} {resolved : Resolved}
  {compiled : Compiled} (goesBack : compiled.GoesBackTo seen config entry resolved)

include goesBack

theorem postorder : resolved.registry.Postorder compiled.modules :=
  Registry.order_postorder goesBack.sound.keyed goesBack.modules

theorem matching_eq : resolved.registry.matching = config.nameMatching := by
  obtain ⟨bindings, -, moves⟩ := goesBack.origin.moves
  exact moves.matching_eq

theorem exists_source {made : CompiledModule} (member : made ∈ compiled.modules) :
    ∃ text source, seen.readText made.path = .ok text ∧
      SourceFile.scan made.path text = .ok source ∧
      compileModule resolved.registry made.name source = .ok made := by
  obtain ⟨bindings, -, moves⟩ := goesBack.origin.moves
  exact moves.reproduces _ _ (goesBack.postorder.registered made member)

theorem compileModule_eq {made : CompiledModule} (member : made ∈ compiled.modules) {text : Text}
    {source : SourceFile} (read : seen.readText made.path = .ok text)
    (scanned : SourceFile.scan made.path text = .ok source) :
    compileModule resolved.registry made.name source = .ok made := by
  obtain ⟨known, other, readToo, scannedToo, compiles⟩ := goesBack.exists_source member
  cases read.symm.trans readToo
  cases scanned.symm.trans scannedToo
  exact compiles

theorem source_eq {text : Text} {source : SourceFile}
    (read : seen.readText entry.normalize = .ok text)
    (scanned : SourceFile.scan entry.normalize text = .ok source) : source = resolved.source := by
  obtain ⟨known, readToo, scannedToo⟩ := goesBack.origin.scanned
  cases read.symm.trans readToo
  exact Except.ok.inj (scanned.symm.trans scannedToo)

theorem places_module {made : CompiledModule} (member : made ∈ compiled.modules) :
    ∃ earlier source, compiled.Places seen entry earlier (.module made source) := by
  obtain ⟨earlier, later, split⟩ := List.append_of_mem member
  obtain ⟨text, source, read, scanned, -⟩ := goesBack.exists_source member
  exact ⟨earlier, source, .module split read scanned⟩

theorem places_entry : compiled.Places seen entry compiled.modules (.entry resolved.source) := by
  obtain ⟨text, read, scanned⟩ := goesBack.origin.scanned
  exact .entry read scanned

/-- The module that an import means stands in front of the part with the import. -/
theorem exists_imported {earlier : List CompiledModule} {part : Part}
    (places : compiled.Places seen entry earlier part) {name : ModuleName}
    (imports : name ∈ importedNames part.source) :
    ∃ imported ∈ earlier, resolved.registry.lookup? name = some imported ∧
      imported.name.key config.nameMatching = name.key config.nameMatching := by
  suffices found : ∃ imported ∈ earlier, resolved.registry.lookup? name = some imported by
    obtain ⟨imported, there, found⟩ := found
    have keyed := goesBack.sound.keyed _ _ found
    rw [Registry.keyOf, Registry.keyOf, goesBack.matching_eq] at keyed
    exact ⟨imported, there, found, keyed⟩
  cases places with
  | @module _ _ made _ source split read scanned =>
    have member : made ∈ compiled.modules := by simp [split]
    have compiles := goesBack.compileModule_eq member read scanned
    refine goesBack.postorder.lookup?_before split ?_
    obtain ⟨body, -, same⟩ := exists_of_compileModule compiles
    rw [same]
    exact mem_dependenciesOf_of_mem imports
  | entry read scanned =>
    cases goesBack.source_eq read scanned
    exact Registry.lookup?_root goesBack.sound.keyed goesBack.modules imports

theorem exists_script (lines : config.options.stripLines = [])
    (blocks : config.options.stripBlocks = []) (stylesheets : config.options.cssToScript = false)
    (markup : config.options.markupToScript = false) :
    ∃ script, sourceScript resolved.registry resolved.source = .ok script ∧
      compiled.document.Shows (collect resolved.registry []
        (compiled.modules.map CompiledModule.contributor ++
          [resolved.source.contributor script])) := by
  obtain ⟨modules, script, ordered, scripted, shown⟩ :=
    shows_of_assemble lines blocks stylesheets markup goesBack.document
  cases ordered.symm.trans goesBack.modules
  exact ⟨script, scripted, shown⟩

/-- The definitions of modules are fragments as they are, and come in the order of the modules; if
the entry file has a script to show, it is the last one. -/
theorem definitions_sublist {script : Text}
    (shown : compiled.document.Shows (collect resolved.registry []
      (compiled.modules.map CompiledModule.contributor ++ [resolved.source.contributor script])))
    {chosen : List CompiledModule} (order : chosen.Sublist compiled.modules)
    {last : List Contributor} (orderLast : last.Sublist [resolved.source.contributor script])
    (visible : ∀ contributor ∈ last, tidy contributor.script ≠ []) :
    (chosen.map CompiledModule.definition ++ last.map Contributor.scriptFragment).Sublist
      compiled.document.script := by
  have whole (made : CompiledModule) (member : made ∈ chosen) :
      tidy made.script = made.script ∧ tidy made.script ≠ [] := by
    obtain ⟨text, source, -, -, compiles⟩ := goesBack.exists_source (order.subset member)
    exact tidy_of_compileModule compiles
  have defined : chosen.map CompiledModule.definition =
      (chosen.map CompiledModule.contributor).map Contributor.scriptFragment := by
    rw [List.map_map]
    refine List.map_congr_left fun made member => ?_
    exact congrArg (Fragment.mk made.name.qualified) (whole made member).1.symm
  rw [defined, ← List.map_append]
  refine shown.scripts_sublist ((order.map _).append orderLast) fun contributor member => ?_
  rcases List.mem_append.mp member with early | late
  · obtain ⟨made, there, rfl⟩ := List.mem_map.mp early
    exact (whole made there).2
  · exact visible contributor late

end Compiled.GoesBackTo

/-! ## Aliases -/

section

variable {σ : Type} [FileSystem (StateM σ)] [LawfulFileSystem σ]

/-- Without further processing, every import in the entry file or in a module that it reaches means
a module in front of it whose name has the same key. The definition of this module stores under its
name, as it is registered, what it returns; in the place of the directive stand the statements that
bind the names of its exports to just that, and the fragment of the definition comes before the
fragment with the aliases. -/
theorem compile_aliases_definitions {config : BuildConfig} {entry : Path} {files : σ}
    {compiled : Compiled} (lines : config.options.stripLines = [])
    (blocks : config.options.stripBlocks = []) (stylesheets : config.options.cssToScript = false)
    (markup : config.options.markupToScript = false)
    (succeeds : ((compile config entry : BuildM (StateM σ) Compiled).run.run files).1 =
      .ok compiled) :
    ∃ resolved, ((resolve config entry : BuildM (StateM σ) Resolved).run.run files).1 =
        .ok resolved ∧
      compiled.Places (view files) entry compiled.modules (.entry resolved.source) ∧
      (∀ made ∈ compiled.modules, ∃ earlier source,
        compiled.Places (view files) entry earlier (.module made source)) ∧
      ∀ earlier part before directive after name,
        compiled.Places (view files) entry earlier part →
        part.source.segments = before ++ directive :: after →
        directive.content = .directive (.importModule name) →
        ∃ imported ∈ earlier, ∃ returned text,
          imported.name.key config.nameMatching = name.key config.nameMatching ∧
          imported.Returns returned ∧
          part.Renders resolved.registry before directive after
            (returned.aliases imported.name.qualified) text ∧
          [imported.definition, ⟨part.origin, text⟩].Sublist compiled.document.script := by
  obtain ⟨resolved, ran, goesBack⟩ := exists_goesBackTo succeeds
  obtain ⟨script, scripted, shown⟩ := goesBack.exists_script lines blocks stylesheets markup
  refine ⟨resolved, ran, goesBack.places_entry, fun made => goesBack.places_module,
    fun earlier part before directive after name places split imports => ?_⟩
  obtain ⟨imported, there, found, keyed⟩ :=
    goesBack.exists_imported places (mem_importedNames split imports)
  obtain ⟨_, file, -, -, compiles⟩ := goesBack.exists_source (places.earlier_prefix.subset there)
  obtain ⟨returns, exported⟩ := returns_of_compileModule compiles
  refine ⟨imported, there, .ofExports imported.exports, ?_⟩
  cases places with
  | @module _ later made _ source atPlace read scanned =>
    have member : made ∈ compiled.modules := by simp [atPlace]
    have compilesToo := goesBack.compileModule_eq member read scanned
    have inOrder : [imported, made].Sublist compiled.modules := by
      rw [atPlace]
      exact CompiledModule.pair_sublist there
    exact ⟨made.script, keyed, returns,
      renders_module split imports found exported compilesToo,
      goesBack.definitions_sublist shown inOrder (List.nil_sublist _) (by simp)⟩
  | entry read scanned =>
    cases goesBack.source_eq read scanned
    obtain ⟨renders, visible⟩ := renders_entry split imports found exported scripted
    exact ⟨tidy script, keyed, returns, renders,
      goesBack.definitions_sublist shown (List.singleton_sublist.mpr there) (List.Sublist.refl _)
        (List.forall_mem_singleton.mpr visible)⟩

end

namespace MixedSpelling

/-- Two files import a button, and the first one in another letter case. -/
def store : Store :=
  .ofFiles [(.ofString "/src/main.js",
      ":import kit.Panel\n\t:import kit.Button;\nopen(Button);\n".toUTF8),
    (.ofString "/src/kit/Panel.js",
      ":import KIT.button\n:export open, close\nvar open = Button, close = 1;\n".toUTF8),
    (.ofString "/src/kit/Button.js", "var Button = 1;\n".toUTF8)] []

def config : BuildConfig :=
  { nameMatching := .ignoreCase }

def panel : ModuleName := ⟨["kit".toList], "Panel".toList, by decide, by decide⟩

def button : ModuleName := ⟨["kit".toList], "Button".toList, by decide, by decide⟩

def panelImport : Segment :=
  ⟨.directive (.importModule panel), ":import kit.Panel\n".toList, 0⟩

def buttonImport : Segment :=
  ⟨.directive (.importModule button), "\t:import kit.Button;\n".toList, 18⟩

def call : Segment :=
  ⟨.script "open(Button);\n".toList, "open(Button);\n".toList, 39⟩

def entry : Path :=
  .ofString "/src/main.js"

def page : SourceFile :=
  scanned "/src/main.js" ":import kit.Panel\n\t:import kit.Button;\nopen(Button);\n"

def scripts : List Text :=
  [("var KIT = KIT || \x7b\x7d;\nKIT.button = (function () \x7b\nvar Button = 1;\n" ++
      "return Button;\n\x7d());").toList,
    ("var kit = kit || \x7b\x7d;\nkit.Panel = (function () \x7b\nvar Button = KIT.button;\n\n" ++
      "var open = Button, close = 1;\nreturn \x7b open: open, close: close \x7d;\n" ++
      "\x7d());").toList,
    ("var open = kit.Panel.open; var close = kit.Panel.close;\n\tvar Button = KIT.button;\n" ++
      "open(Button);").toList]

end MixedSpelling

section

open MixedSpelling

theorem compile_aliases_definitions_mixedSpelling :
    ∃ compiled, ((compile config entry :
        BuildM (StateM Store) Compiled).run.run store).1 = .ok compiled ∧
      compiled.document.script.map Fragment.text = scripts ∧
      ∃ resolved : Resolved, ∃ imported ∈ compiled.modules, ∃ returned text,
        imported.name.key .ignoreCase = "kit.button".toList ∧ imported.Returns returned ∧
        (Part.entry page).Renders resolved.registry [panelImport] buttonImport [call]
          (returned.aliases imported.name.qualified) text ∧
        [imported.definition, ⟨page.path.text, text⟩].Sublist compiled.document.script := by
  have emitted : ((compile config entry :
      BuildM (StateM Store) Compiled).run.run store).1.toOption.map (fun compiled =>
        compiled.document.script.map Fragment.text) = some scripts := by
    decide +kernel
  have whole : entry.normalize = entry := by decide +kernel
  have read : (view store).readText entry.normalize =
      .ok ":import kit.Panel\n\t:import kit.Button;\nopen(Button);\n".toList := by decide +kernel
  have scans : SourceFile.scan entry.normalize
      ":import kit.Panel\n\t:import kit.Button;\nopen(Button);\n".toList = .ok page := by
    rw [whole]
    exact scan_eq_scanned (by decide +kernel)
  have cut : page.segments = [panelImport] ++ buttonImport :: [call] := by decide +kernel
  obtain ⟨compiled, outcome, same⟩ := exists_of_toOption_map emitted
  obtain ⟨resolved, -, -, -, aliases⟩ := compile_aliases_definitions rfl rfl rfl rfl outcome
  obtain ⟨imported, member, returned, text, keyed, returns, renders, fragments⟩ :=
    aliases _ _ _ _ _ button (.entry read scans) cut rfl
  exact ⟨compiled, outcome, same, resolved, imported, member, returned, text,
    keyed.trans (by decide +kernel), returns, renders, fragments⟩

end

end PageCompiler
