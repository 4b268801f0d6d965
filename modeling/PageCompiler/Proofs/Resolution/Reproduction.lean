import PageCompiler.Proofs.Resolution.Moves

/-! # Modules are what their files compile to

A module is compiled with the modules that are registered at that time, and looked at with those of
the whole build. This makes no difference: what a registry holds it keeps, so compiling the file of
a registered module once more, with everything that was registered since, gives the same module.
-/

namespace PageCompiler

/-! ## Larger registries -/

namespace Registry.Extends

variable {before after : Registry} (extends_ : after.Extends before)

theorem of_modules_eq (matching : after.matching = before.matching)
    (modules : after.modules = before.modules) : after.Extends before :=
  ⟨matching, fun key compiled found => by rwa [modules]⟩

include extends_

theorem lookup?_eq_some {name : ModuleName} {compiled : CompiledModule}
    (found : before.lookup? name = some compiled) : after.lookup? name = some compiled := by
  rw [lookup?, keyOf, extends_.matching]
  exact extends_.retains _ _ found

theorem sourceScript_eq {source : SourceFile} {script : Text}
    (made : sourceScript before source = .ok script) : sourceScript after source = .ok script := by
  rw [← made]
  -- A script was made, so the smaller registry has all imports, and the larger one has the same.
  refine (sourceScript_congr fun name member => ?_).symm
  obtain ⟨compiled, found⟩ := contains_iff.mp (holds_of_sourceScript made name member)
  rw [lookup?, found]
  exact (extends_.lookup?_eq_some found).symm

theorem compileModule_eq {name : ModuleName} {source : SourceFile} {compiled : CompiledModule}
    (compiles : compileModule before name source = .ok compiled) :
    compileModule after name source = .ok compiled := by
  obtain ⟨body, made, rfl⟩ := exists_of_compileModule compiles
  rw [compileModule, extends_.sourceScript_eq made, extends_.matching]
  rfl

end Registry.Extends

theorem View.Moves.extends_ {seen : View} {resolver : Resolver} {before after : Registry}
    (moves : seen.Moves resolver before after) : after.Extends before := by
  cases moves with
  | link links =>
    obtain ⟨matching, modules⟩ := Registry.link?_modules links
    exact .of_modules_eq matching modules
  | @attach path text _ _ source kind =>
    obtain ⟨matching, modules⟩ := before.attach_modules source ⟨path, kind, text⟩
    exact .of_modules_eq matching modules
  | register _ _ registered =>
    rcases Registry.register_cases registered with ⟨rfl, -⟩ | ⟨rfl, fresh⟩
    · exact .refl _
    · exact Registry.extends_add fresh

/-! ## Compiling once more -/

/-- Every module of the registry is what its file compiles to, with the registry as it is. -/
def Registry.Reproduces (seen : View) (registry : Registry) : Prop :=
  ∀ (key : Text) (compiled : CompiledModule), registry.modules[key]? = some compiled →
    ∃ text source, seen.readText compiled.path = .ok text ∧
      SourceFile.scan compiled.path text = .ok source ∧
      compileModule registry compiled.name source = .ok compiled

/-- The source file of a name is the scanned text of the file at its path. -/
theorem View.Loads.exists_file {seen : View} {resolver : Resolver} {name : ModuleName}
    {source : SourceFile} (loads : seen.Loads resolver name source) :
    ∃ text, seen.readText source.path = .ok text ∧
      SourceFile.scan source.path text = .ok source := by
  obtain ⟨path, text, -, read, scanned⟩ := loads
  obtain ⟨segments, -, rfl⟩ := exists_of_map_eq_ok scanned
  exact ⟨text, read, scanned⟩

variable {seen : View} {resolver : Resolver} {before after : Registry}

theorem View.Moves.reproduces (moves : seen.Moves resolver before after)
    (reproduces : before.Reproduces seen) : after.Reproduces seen := by
  intro key compiled found
  -- A module that was there before compiles to the same as before.
  have again (old : before.modules[key]? = some compiled) :
      ∃ text source, seen.readText compiled.path = .ok text ∧
        SourceFile.scan compiled.path text = .ok source ∧
        compileModule after compiled.name source = .ok compiled := by
    obtain ⟨text, source, read, scanned, compiles⟩ := reproduces key compiled old
    exact ⟨text, source, read, scanned, moves.extends_.compileModule_eq compiles⟩
  cases moves with
  | link links =>
    rw [(Registry.link?_modules links).2] at found
    exact again found
  | attach _ _ source kind =>
    rw [(before.attach_modules source _).2] at found
    exact again found
  | register loads compiles registered =>
    rcases Registry.register_cases registered with ⟨rfl, -⟩ | ⟨rfl, fresh⟩
    · exact again found
    · rw [Registry.getElem?_add] at found
      split at found
      · cases found
        obtain ⟨text, read, scanned⟩ := loads.exists_file
        have compilesThen := (Registry.extends_add fresh).compileModule_eq compiles
        obtain ⟨body, -, rfl⟩ := exists_of_compileModule compiles
        exact ⟨text, _, read, scanned, compilesThen⟩
      · exact again found

theorem View.MovesTo.reproduces {matching : NameMatching} {registry : Registry}
    (moves : seen.MovesTo resolver (.empty matching) registry) : registry.Reproduces seen := by
  refine moves.keeps (fun _ _ move => move.reproduces) fun key compiled found => ?_
  nomatch Std.TreeMap.getElem?_emptyc.symm.trans found

end PageCompiler
