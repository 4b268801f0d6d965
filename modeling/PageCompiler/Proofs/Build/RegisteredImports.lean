import Mathlib.Control.Monad.Basic
import PageCompiler.FileSystem.Store
import PageCompiler.Proofs.Build.Outcome

/-! # Imports are registered

The error for an import that is not registered never ends a build. It would be found when modules
are put in order or when scripts are assembled, but a registry stays sound through every sequence of
calls, and whatever has been resolved without an error is registered from then on.
-/

namespace PageCompiler

theorem Builds.ne_unresolvedImport {σ α : Type} {action : BuildM (StateM σ) α} {result : α → Prop}
    (builds : Builds action result) (files : σ) (name : Text) (path : Path) :
    (action.run.run files).1 ≠ .error (.build (.unresolvedImport name path)) := by
  intro failed
  have ends := builds files
  rw [failed] at ends
  exact ends name path rfl

/-- Whatever the files are and however the file operations fail, no build ends with an import that
is not registered, and what was resolved can be ordered and assembled: after `resolve`, and in a
session with any calls before, some of them failed, and any calls after it. -/
theorem imports_registered {σ : Type} [FileSystem (StateM σ)] :
    (∀ (config : BuildConfig) (entry : Path) (files : σ) (name : Text) (path : Path),
      ((compile config entry : BuildM (StateM σ) Compiled).run.run files).1 ≠
          .error (.build (.unresolvedImport name path)) ∧
        ((build config entry : BuildM (StateM σ) Built).run.run files).1 ≠
          .error (.build (.unresolvedImport name path)) ∧
        ∀ options : ListOptions,
          ((listFiles config options entry : BuildM (StateM σ) (List Text)).run.run files).1 ≠
            .error (.build (.unresolvedImport name path))) ∧
      (∀ (config : BuildConfig) (entry : Path) (files : σ) (resolved : Resolved),
        ((resolve config entry : BuildM (StateM σ) Resolved).run.run files).1 = .ok resolved →
        resolved.registry.Assembles resolved.source) ∧
      ∀ (resolver : Resolver) (matching : NameMatching) (files : σ) (calls : List (ResolverCall σ))
        (session : Session σ), (Session.start resolver matching files).run calls = session →
        session.resolution.registry.Sound ∧
          ∀ source : SourceFile, (session.call (.resolveImports source)).1 = .ok () →
            ∀ later : List (ResolverCall σ),
              ((session.call (.resolveImports source)).2.run later).resolution.registry.Assembles
                source := by
  refine ⟨fun config entry files name path => ⟨?_, ?_, fun options => ?_⟩,
    fun config entry files resolved succeeded => ?_, ?_⟩
  · exact (compile_builds config entry).ne_unresolvedImport files name path
  · exact (build_builds config entry).ne_unresolvedImport files name path
  · exact (listFiles_builds config options entry).ne_unresolvedImport files name path
  · have ends := resolve_builds config entry files
    rw [succeeded] at ends
    exact ends.1.assembles ends.2
  · rintro resolver matching files calls session rfl
    obtain ⟨sound, -⟩ := (Session.start resolver matching files).run_keeps
      (Registry.sound_empty matching) calls
    refine ⟨sound, fun source resolved later => ?_⟩
    obtain ⟨soundAfter, held⟩ := Session.run_holds _ sound resolved later
    exact soundAfter.assembles held

/-- A page whose panel imports a button, and two modules that import each other. -/
def panelAndCycle : Store :=
  .ofFiles [(.ofString "/src/main.js", ":import ui.Panel\nPanel();\n".toUTF8),
    (.ofString "/src/ui/Panel.js", ":import ui.Button\nvar Panel = Button;\n".toUTF8),
    (.ofString "/src/ui/Button.js", "var Button = 1;\n".toUTF8),
    (.ofString "/src/cycle.js", ":import ui.Button\n:import a.First\n".toUTF8),
    (.ofString "/src/a/First.js", ":import a.Second\n".toUTF8),
    (.ofString "/src/a/Second.js", ":import a.First\n".toUTF8)] []

/-- The source file with the given text; without segments if it cannot be scanned. -/
def scanned (path text : String) : SourceFile :=
  (SourceFile.scan (.ofString path) text.toList).toOption.getD ⟨.ofString path, text.toList, []⟩

theorem scan_eq_scanned {path text : String}
    (scans : (SourceFile.scan (.ofString path) text.toList).isOk = true) :
    SourceFile.scan (.ofString path) text.toList = .ok (scanned path text) := by
  rw [scanned]
  cases outcome : SourceFile.scan (.ofString path) text.toList with
  | ok source => rfl
  | error error =>
    rw [outcome] at scans
    cases scans

def panelPage : SourceFile :=
  scanned "/src/main.js" ":import ui.Panel\nPanel();\n"

/-- The call before has failed at the cycle, with the button registered. -/
def afterCycle : Session Store :=
  (Session.start (.make [.ofString "/src"] (.make .exact .nested "js".toList) []) .exact
    panelAndCycle).run [.resolveImports
      (scanned "/src/cycle.js" ":import ui.Button\n:import a.First\n")]

theorem imports_registered_panelAndCycle :
    (∃ resolved, ((resolve {} (.ofString "/src/main.js") : BuildM (StateM Store) Resolved).run.run
        panelAndCycle).1 = .ok resolved ∧ resolved.registry.Assembles resolved.source) ∧
      (afterCycle.call (.resolveImports panelPage)).1 = .ok () ∧
      ((afterCycle.call (.resolveImports panelPage)).2.run
        [.loadBindings]).resolution.registry.Assembles panelPage := by
  obtain ⟨-, resolves, sessions⟩ := @imports_registered Store _
  have succeeded : ((resolve {} (.ofString "/src/main.js") :
      BuildM (StateM Store) Resolved).run.run panelAndCycle).1.toBool = true := by
    decide +kernel
  have resolved : (afterCycle.call (.resolveImports panelPage)).1 = .ok () := by
    decide +kernel
  refine ⟨?_, resolved, (sessions _ _ _ _ afterCycle rfl).2 panelPage resolved _⟩
  cases outcome : ((resolve {} (.ofString "/src/main.js") :
      BuildM (StateM Store) Resolved).run.run panelAndCycle).1 with
  | ok value => exact ⟨value, rfl, resolves _ _ _ value outcome⟩
  | error failure =>
    rw [outcome] at succeeded
    cases succeeded

end PageCompiler
