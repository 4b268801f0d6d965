import PageCompiler.Proofs.Build.Conclusion
import PageCompiler.Proofs.Resolution.FurtherRoots

/-! # Building with further search paths

A configuration can be given more search paths behind the ones it has, and whatever compiled before
compiles to the same. A configuration without search paths is another matter: it searches the
directory of the entry file, and the first path that it is given takes the place of that directory.
-/

namespace PageCompiler

variable {σ : Type} [FileSystem (StateM σ)]

/-- The configuration with more search paths behind the ones it has. -/
def BuildConfig.withSearchPaths (config : BuildConfig) (further : List Path) : BuildConfig :=
  { config with moduleSearchPaths := config.moduleSearchPaths ++ further }

/-- The same entry file is resolved by the same settings with more roots. -/
theorem resolver_withSearchPaths {config : BuildConfig}
    (listed : config.moduleSearchPaths ≠ []) (further : List Path) (entry : Path)
    (bindings : Bindings) :
    (config.withSearchPaths further).resolver entry bindings =
      (config.resolver entry bindings).withRoots (further.map Path.normalize) := by
  have searches : (config.withSearchPaths further).searchRoots entry.normalize =
      config.searchRoots entry.normalize ++ further := by
    simp [BuildConfig.searchRoots, BuildConfig.withSearchPaths, listed]
  simp only [BuildConfig.resolver, Resolver.make, searches, List.map_append]
  rfl

theorem resolve_withSearchPaths {config : BuildConfig} (listed : config.moduleSearchPaths ≠ [])
    (further : List Path) {entry : Path} {files left : σ} {resolved : Resolved}
    (succeeds : (resolve config entry : BuildM (StateM σ) Resolved).run.run files =
      (.ok resolved, left)) :
    (resolve (config.withSearchPaths further) entry : BuildM (StateM σ) Resolved).run.run files =
      (.ok resolved, left) := by
  obtain ⟨opened, bindings, read, bound, ran⟩ := resolve_eq_ok_iff.mp succeeds
  refine resolve_eq_ok_iff.mpr ⟨opened, bindings, read, bound, ?_⟩
  rw [resolver_withSearchPaths listed]
  exact (resolutionSteps_carriesOver _ _ _).run ran

/-- What compiles with some search paths compiles to the same with more of them behind. A further
root never takes the place of the file that an import, an include or a stylesheet directive finds
without it. -/
theorem compile_append_searchPaths (further : List Path) :
    (∀ (config : BuildConfig) (entry : Path) (files left : σ) (compiled : Compiled),
      config.moduleSearchPaths ≠ [] →
      (compile config entry : BuildM (StateM σ) Compiled).run.run files = (.ok compiled, left) →
      (compile { config with moduleSearchPaths := config.moduleSearchPaths ++ further } entry :
        BuildM (StateM σ) Compiled).run.run files = (.ok compiled, left)) ∧
      ∀ (resolver : Resolver) (origin : Origin),
        let extended := { resolver with roots := resolver.roots ++ further }
        (∀ name : ModuleName,
          CarriesOver (locateModule resolver origin name : ResolveM (StateM σ) Path)
            (locateModule extended origin name)) ∧
          (∀ text : Text,
            CarriesOver (locateInclude resolver origin text : ResolveM (StateM σ) Path)
              (locateInclude extended origin text)) ∧
          ∀ name : ModuleName,
            CarriesOver (includeStylesheet resolver origin name : ResolveM (StateM σ) Unit)
              (includeStylesheet extended origin name) := by
  refine ⟨fun config entry files left compiled listed succeeds => ?_, fun resolver origin =>
    ⟨locateModule_carriesOver resolver further origin, locateInclude_carriesOver resolver further
      origin, includeStylesheet_carriesOver resolver further origin⟩⟩
  obtain ⟨resolved, ran, result⟩ := compile_eq_ok_iff.mp succeeds
  exact compile_eq_ok_iff.mpr ⟨resolved, resolve_withSearchPaths listed further ran, result⟩

/-- Two directories with files of the same names. In the first one the module is found without its
case only, in the second one as it is written. -/
def twoLibraries : Store :=
  .ofFiles [(.ofString "/src/main.js",
      ":import ui.button\n:include banner.html\n:css ui.Theme\nButton();\n".toUTF8),
    (.ofString "/lib/ui/Button.js", "var Button = 1;\n".toUTF8),
    (.ofString "/lib/banner.html", "<header></header>\n".toUTF8),
    (.ofString "/lib/ui/Theme.css", "p \x7b margin: 0 \x7d\n".toUTF8),
    (.ofString "/more/ui/button.js", "var button = 2;\n".toUTF8),
    (.ofString "/more/banner.html", "<footer></footer>\n".toUTF8),
    (.ofString "/more/ui/Theme.css", "p \x7b margin: 1 \x7d\n".toUTF8)] []

def libraryConfig : BuildConfig :=
  { moduleSearchPaths := [.ofString "/lib"], nameMatching := .ignoreCase }

theorem compile_append_searchPaths_twoLibraries :
    ∃ compiled left, (compile libraryConfig (.ofString "/src/main.js") :
        BuildM (StateM Store) Compiled).run.run twoLibraries = (.ok compiled, left) ∧
      compiled.modules.map CompiledModule.path = [.ofString "/lib/ui/Button.js"] ∧
      (compile { libraryConfig with moduleSearchPaths := [.ofString "/lib", .ofString "/more"] }
        (.ofString "/src/main.js") : BuildM (StateM Store) Compiled).run.run twoLibraries =
          (.ok compiled, left) := by
  have paths : ((compile libraryConfig (.ofString "/src/main.js") :
      BuildM (StateM Store) Compiled).run.run twoLibraries).1.toOption.map (fun compiled =>
        compiled.modules.map CompiledModule.path) = some [.ofString "/lib/ui/Button.js"] := by
    decide +kernel
  obtain ⟨compiled, outcome, found⟩ := exists_of_toOption_map paths
  have succeeds : (compile libraryConfig (.ofString "/src/main.js") :
      BuildM (StateM Store) Compiled).run.run twoLibraries = (.ok compiled, _) :=
    Prod.ext outcome rfl
  exact ⟨compiled, _, succeeds, found, (compile_append_searchPaths [.ofString "/more"]).1
    libraryConfig (.ofString "/src/main.js") twoLibraries _ compiled (by decide) succeeds⟩

end PageCompiler
