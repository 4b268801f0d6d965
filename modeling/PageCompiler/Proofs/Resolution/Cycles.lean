import PageCompiler.Proofs.Build.RegisteredImports
import PageCompiler.Proofs.Resolution.Following

/-! # Cycles are found

Where names are compared as they are written and every file that the entry reaches is in order,
resolving the imports of the entry succeeds exactly if the graph of import directives behind it has
no cycle. In one direction the modules that are registered afterwards carry the argument: they are
made from the files and do not depend on themselves. In the other one the error carries it: it names
a cycle of the graph.
-/

namespace PageCompiler

open FileSystem (view)

/-! ## Graphs and registries -/

/-- No module that is reached from the roots imports itself through others. -/
def View.Acyclic (view : View) (resolver : Resolver) (roots : List ModuleName) : Prop :=
  ∀ name, view.Reaches resolver roots name → ¬ Relation.TransGen (view.Imports resolver) name name

namespace Registry.Faithful

variable {view : View} {resolver : Resolver} {registry : Registry}
  (faithful : registry.Faithful view resolver) (exact_ : registry.matching = .exact)

include faithful exact_

/-- What a registered module imports in the files it depends on in the registry. -/
theorem dependsOn_of_imports {importer imported : ModuleName}
    (registered : registry.contains importer = true)
    (imports : view.Imports resolver importer imported) :
    registry.DependsOn (registry.keyOf importer) (registry.keyOf imported) ∧
      registry.contains imported = true := by
  obtain ⟨compiled, found⟩ := contains_iff.mp registered
  obtain ⟨source, loads, -, dependencies, -⟩ := (faithful.made _ _ found).exists_source
  obtain ⟨other, loadsToo, member⟩ := imports
  rw [faithful.sound.name_eq exact_ found] at loads
  cases loads.unique loadsToo
  have dependency : imported ∈ compiled.dependencies := by
    rw [dependencies]
    exact mem_dependenciesOf_of_mem member
  exact ⟨⟨compiled, found, imported, dependency, rfl⟩,
    faithful.sound.closed _ _ found imported dependency⟩

theorem contains_of_reaches {roots : List ModuleName} (held : registry.Holds roots)
    {name : ModuleName} (reached : view.Reaches resolver roots name) :
    registry.contains name = true := by
  obtain ⟨root, member, path⟩ := reached
  induction path with
  | refl => exact held root member
  | tail _ imports registered => exact (faithful.dependsOn_of_imports exact_ registered imports).2

theorem transGen_dependsOn {first last : ModuleName} (registered : registry.contains first = true)
    (path : Relation.TransGen (view.Imports resolver) first last) :
    Relation.TransGen registry.DependsOn (registry.keyOf first) (registry.keyOf last) ∧
      registry.contains last = true := by
  induction path with
  | single imports =>
    obtain ⟨edge, present⟩ := faithful.dependsOn_of_imports exact_ registered imports
    exact ⟨.single edge, present⟩
  | tail _ imports inductionHypothesis =>
    obtain ⟨before, between⟩ := inductionHypothesis
    obtain ⟨edge, present⟩ := faithful.dependsOn_of_imports exact_ between imports
    exact ⟨before.tail edge, present⟩

theorem acyclic {roots : List ModuleName} (held : registry.Holds roots) :
    view.Acyclic resolver roots := by
  intro name reached cycle
  have registered := faithful.contains_of_reaches exact_ held reached
  exact faithful.sound.acyclic _ (faithful.transGen_dependsOn exact_ registered cycle).1

end Registry.Faithful

/-- Where names are compared as they are written, a cycle leads from its first name to itself. -/
theorem View.ImportCycle.not_acyclic {view : View} {resolver : Resolver}
    {start roots : List ModuleName} {last : ModuleName}
    (cycle : view.ImportCycle resolver .exact start last)
    (reached : ∀ name ∈ start, view.Reaches resolver roots name) :
    ¬ view.Acyclic resolver roots := by
  intro acyclic
  obtain ⟨first, member, same, path⟩ := cycle.transGen
  cases ModuleName.qualified_injective same
  exact acyclic last (reached last member) path

/-! ## Calls -/

section

variable {σ : Type} [FileSystem (StateM σ)]

/-- How resolving the imports of an entry file ends. -/
def importsOutcome (resolver : Resolver) (entry : SourceFile) (resolution : Resolution)
    (files : σ) : Except BuildError Unit :=
  (((resolveImports resolver entry : ResolveM (StateM σ) Unit).run.run resolution).run files).1.1

/-- How resolving all bindings ends. -/
def bindingsOutcome (resolver : Resolver) (resolution : Resolution) (files : σ) :
    Except BuildError Unit :=
  (((loadBindings resolver : ResolveM (StateM σ) Unit).run.run resolution).run files).1.1

theorem ResolutionStart.Ends.exists_cycle {run : ResolutionStart} {chain : List Text}
    (ends : run.Ends (.circularImport chain)) :
    ∃ start last, chain = cycleNames start last ∧
      run.view.ImportCycle run.resolver run.matching start last ∧
      ∀ name ∈ start, run.view.Reaches run.resolver run.roots name := by
  cases ends with
  | cycle cycle reached => exact ⟨_, _, rfl, cycle, reached⟩
  | obstacle lacks => exact absurd rfl (lacks.plain chain)

variable [LawfulFileSystem σ]

theorem importsOutcome_cycle {resolver : Resolver} {entry : SourceFile} {resolution : Resolution}
    {files : σ} {chain : List Text}
    (circular : importsOutcome resolver entry resolution files = .error (.circularImport chain)) :
    ∃ start last, chain = cycleNames start last ∧
      (view files).ImportCycle resolver resolution.registry.matching start last ∧
      ∀ name ∈ start, (view files).Reaches resolver (importedNames entry) name := by
  have admitted := resolveImports_admits resolver entry resolution files False.elim
  exact (admitted.failure _ circular).exists_cycle

theorem bindingsOutcome_cycle {resolver : Resolver} {resolution : Resolution} {files : σ}
    {chain : List Text}
    (circular : bindingsOutcome resolver resolution files = .error (.circularImport chain)) :
    ∃ start last, chain = cycleNames start last ∧
      (view files).ImportCycle resolver resolution.registry.matching start last := by
  have admitted := loadBindings_admits resolver resolution files False.elim
  obtain ⟨start, last, named, cycle, -⟩ := (admitted.failure _ circular).exists_cycle
  exact ⟨start, last, named, cycle⟩

/-- With an empty registry, only a cycle ends the resolution if the files are in order. -/
theorem importsOutcome_of_supports {resolver : Resolver} {files : σ} {path : Path} {text : Text}
    {entry : SourceFile} (scanned : SourceFile.scan path text = .ok entry)
    (supports : (view files).Supports resolver entry) (scans : Nat) :
    (importsOutcome resolver entry ⟨.empty .exact, scans⟩ files = .ok () ∧
        (view files).Acyclic resolver (importedNames entry)) ∨
      ((∃ chain, importsOutcome resolver entry ⟨.empty .exact, scans⟩ files =
          .error (.circularImport chain)) ∧
        ¬ (view files).Acyclic resolver (importedNames entry)) := by
  -- One lemma says what the registry and the errors have to do with the files, the other one that
  -- the imports are registered if nothing fails.
  have admitted := resolveImports_admits resolver entry ⟨.empty .exact, scans⟩ files
    fun _ : True => Registry.faithful_empty .exact
  have settled := resolveImports_resolves resolver entry ⟨.empty .exact, scans⟩ files
    (Registry.sound_empty .exact) (Registry.holds_nil _)
  cases outcome : importsOutcome resolver entry ⟨.empty .exact, scans⟩ files with
  | ok value =>
    exact .inl ⟨rfl, (admitted.keeps.faithful trivial).acyclic admitted.keeps.matching
      (settled.success _ outcome)⟩
  | error error =>
    have clear : (ResolutionStart.ofImports (view files) resolver .exact entry True).Clear := by
      refine ⟨trivial, rfl, ?_, fun other member => ?_, supports.loads, supports.attachesReached⟩
      · -- The limit on nesting counts the bytes of the entry, and each root takes up one of them.
        have named : (importedNames entry).length ≤ entry.text.byteSize := by
          obtain ⟨segments, -, rfl⟩ := exists_of_map_eq_ok scanned
          exact length_importedNames_le scanned
        exact (Nat.add_le_add_left named _).trans (Nat.le_add_right _ _)
      · rw [List.mem_singleton.mp member]
        exact supports.attaches
    cases admitted.failure error outcome with
    | cycle cycle reached => exact .inr ⟨⟨_, rfl⟩, cycle.not_acyclic reached⟩
    | unregistered name path => exact absurd rfl (settled.failure _ outcome name path)
    | obstacle lacks => exact absurd clear lacks.lacking

/-- If every file that the entry reaches is in order, resolving its imports succeeds where the graph
of import directives has no cycle, and fails with a cycle where it has one. Whatever the files and
the registry are, a cycle that ends a call is one of the import directives in the files. -/
theorem resolveImports_finds_cycles (resolver : Resolver) (files : σ) :
    (∀ (path : Path) (text : Text) (entry : SourceFile) (scans : Nat),
      SourceFile.scan path text = .ok entry → (view files).Supports resolver entry →
      ((view files).Acyclic resolver (importedNames entry) →
        importsOutcome resolver entry ⟨.empty .exact, scans⟩ files = .ok ()) ∧
      (¬ (view files).Acyclic resolver (importedNames entry) →
        ∃ chain, importsOutcome resolver entry ⟨.empty .exact, scans⟩ files =
          .error (.circularImport chain))) ∧
      ∀ (resolution : Resolution) (chain : List Text),
        (∃ entry, importsOutcome resolver entry resolution files =
          .error (.circularImport chain)) ∨
          bindingsOutcome resolver resolution files = .error (.circularImport chain) →
        ∃ start last, chain = cycleNames start last ∧
          (view files).ImportCycle resolver resolution.registry.matching start last := by
  refine ⟨fun path text entry scans scanned supports => ?_, fun resolution chain circular => ?_⟩
  · rcases importsOutcome_of_supports scanned supports scans with
      ⟨succeeds, acyclic⟩ | ⟨fails, cyclic⟩
    · exact ⟨fun _ => succeeds, fun cyclic => absurd acyclic cyclic⟩
    · exact ⟨fun acyclic => absurd acyclic cyclic, fun _ => fails⟩
  · rcases circular with ⟨entry, circular⟩ | circular
    · obtain ⟨start, last, named, cycle, -⟩ := importsOutcome_cycle circular
      exact ⟨start, last, named, cycle⟩
    · exact bindingsOutcome_cycle circular

end

namespace UserInterface

def leaf : ModuleName := ⟨["gui".toList], "Leaf".toList, by decide, by decide⟩

def left : ModuleName := ⟨["gui".toList], "Left".toList, by decide, by decide⟩

def right : ModuleName := ⟨["gui".toList], "Right".toList, by decide, by decide⟩

def ring : ModuleName := ⟨["gui".toList], "Ring".toList, by decide, by decide⟩

def back : ModuleName := ⟨["gui".toList], "Back".toList, by decide, by decide⟩

/-- Two modules that share a leaf, two that import each other, and two more that do so in another
letter case. -/
def store : Store :=
  .ofFiles [(.ofString "/src/gui/Leaf.js", "var Leaf = 1;\n".toUTF8),
    (.ofString "/src/gui/Leaf.css", "p \x7b margin: 0 \x7d\n".toUTF8),
    (.ofString "/src/gui/Left.js", ":import gui.Leaf\n:css gui.Leaf\n".toUTF8),
    (.ofString "/src/gui/Right.js", ":import gui.Leaf\n".toUTF8),
    (.ofString "/src/gui/Ring.js", ":import gui.Back\n".toUTF8),
    (.ofString "/src/gui/Back.js", ":import gui.Leaf\n:import gui.Ring\n".toUTF8),
    (.ofString "/src/gui/Wheel.js", ":import gui.Spoke\n".toUTF8),
    (.ofString "/src/gui/Spoke.js", ":import GUI.wheel\n".toUTF8)] []

def settings (matching : NameMatching) : Resolver :=
  .make [.ofString "/src"] (.make matching .nested "js".toList) []

def diamondPage : SourceFile :=
  scanned "/src/diamond.js" ":import gui.Left\n:import gui.Right\n"

def ringPage : SourceFile :=
  scanned "/src/ring.js" ":import gui.Left\n:import gui.Ring\n"

def wheelPage : SourceFile :=
  scanned "/src/wheel.js" ":import gui.Wheel\n"

end UserInterface

section

open UserInterface

theorem resolveImports_finds_cycles_userInterface :
    (view store).Acyclic (settings .exact) (importedNames diamondPage) ∧
      importsOutcome (settings .exact) diamondPage ⟨.empty .exact, 0⟩ store = .ok () ∧
      ¬ (view store).Acyclic (settings .exact) (importedNames ringPage) ∧
      (∃ chain, importsOutcome (settings .exact) ringPage ⟨.empty .exact, 0⟩ store =
        .error (.circularImport chain)) ∧
      ∃ start last, cycleNames start last =
          ["gui.Wheel".toList, "gui.Spoke".toList, "GUI.wheel".toList] ∧
        (view store).ImportCycle (settings .ignoreCase) .ignoreCase start last := by
  have diamondScanned := @scan_eq_scanned "/src/diamond.js" ":import gui.Left\n:import gui.Right\n"
    (by decide +kernel)
  have ringScanned := @scan_eq_scanned "/src/ring.js" ":import gui.Left\n:import gui.Ring\n"
    (by decide +kernel)
  have diamondSupported : (view store).Supports (settings .exact) diamondPage :=
    @View.supports_of_closes _ _ [leaf, left, right] _ (by decide +kernel) (by decide +kernel)
      (by decide +kernel)
  have ringSupported : (view store).Supports (settings .exact) ringPage :=
    @View.supports_of_closes _ _ [leaf, left, ring, back] _ (by decide +kernel) (by decide +kernel)
      (by decide +kernel)
  have acyclic : (view store).Acyclic (settings .exact) (importedNames diamondPage) := by
    rcases importsOutcome_of_supports diamondScanned diamondSupported 0 with
      ⟨-, acyclic⟩ | ⟨⟨chain, fails⟩, -⟩
    · exact acyclic
    · have succeeds : importsOutcome (settings .exact) diamondPage ⟨.empty .exact, 0⟩ store =
          .ok () := by decide +kernel
      cases succeeds.symm.trans fails
  have cyclic : ¬ (view store).Acyclic (settings .exact) (importedNames ringPage) := by
    have there : (view store).Imports (settings .exact) ring back :=
      View.imports_of_loaded? (by decide +kernel)
    have andBack : (view store).Imports (settings .exact) back ring :=
      View.imports_of_loaded? (by decide +kernel)
    exact fun acyclic => acyclic ring (.root (by decide +kernel)) (.head there (.single andBack))
  obtain ⟨finds, -⟩ := resolveImports_finds_cycles (settings .exact) store
  obtain ⟨-, names⟩ := resolveImports_finds_cycles (settings .ignoreCase) store
  refine ⟨acyclic, (finds _ _ _ 0 diamondScanned diamondSupported).1 acyclic, cyclic,
    (finds _ _ _ 0 ringScanned ringSupported).2 cyclic, ?_⟩
  obtain ⟨start, last, named, cycle⟩ := names ⟨.empty .ignoreCase, 0⟩
    ["gui.Wheel".toList, "gui.Spoke".toList, "GUI.wheel".toList]
    (.inl ⟨wheelPage, by decide +kernel⟩)
  exact ⟨start, last, named.symm, cycle⟩

end

end PageCompiler
