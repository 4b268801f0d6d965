import PageCompiler.Proofs.Assembly.Scope
import PageCompiler.Proofs.Build.Aliases

/-! # Which definitions last

A module may have the name of a namespace that another module lives in. Its definition then replaces
the object that the other module is stored in, so it matters which of the two is defined first. The
dependency order does not settle this, because neither needs to import the other.
-/

namespace PageCompiler

open FileSystem (view)

namespace ModuleName

theorem key_congr {first second : ModuleName} (same : first.segments = second.segments)
    (matching : NameMatching) : first.key matching = second.key matching := by
  cases matching <;> simp [key, qualified, same]

end ModuleName

namespace Registry

/-- Modules at different places of an order have different names. -/
theorem Postorder.segments_ne {registry : Registry}
    {order front between later : List CompiledModule} {imported other : CompiledModule}
    (postorder : registry.Postorder order)
    (split : order = front ++ imported :: between ++ later) (member : other ∈ between) :
    imported.name.segments ≠ other.name.segments := by
  intro same
  have distinct := postorder.distinct
  rw [split, List.map_append, List.map_append, List.map_cons, List.nodup_append,
    List.nodup_append, List.nodup_cons] at distinct
  refine distinct.1.2.1.1 (List.mem_map.mpr ⟨other, member, ?_⟩)
  exact (ModuleName.key_congr same registry.matching).symm

end Registry

section

variable {σ : Type} [FileSystem (StateM σ)] [LawfulFileSystem σ]

/-- Without further processing, the script fragments of the modules come in dependency order, and
each one starts with the assignments of its module. Where an import of the entry file or of a module
that it reaches reads the name of the module that it means, the value of that module is stored there
if and only if no module in between has a name that leads to it. -/
theorem import_reads_value_iff {config : BuildConfig} {entry : Path} {files : σ}
    {compiled : Compiled} (lines : config.options.stripLines = [])
    (blocks : config.options.stripBlocks = []) (stylesheets : config.options.cssToScript = false)
    (markup : config.options.markupToScript = false)
    (succeeds : ((compile config entry : BuildM (StateM σ) Compiled).run.run files).1 =
      .ok compiled) :
    (compiled.modules.map CompiledModule.definition).Sublist compiled.document.script ∧
      (∀ made ∈ compiled.modules, ∃ rest,
        made.script = made.assignments.flatMap Assignment.text ++ rest) ∧
      ∀ earlier part name, compiled.Places (view files) entry earlier part →
        name ∈ importedNames part.source →
        ∃ imported ∈ earlier,
          imported.name.key config.nameMatching = name.key config.nameMatching ∧
          ∀ front between, earlier = front ++ imported :: between →
            (part.scope earlier imported.name.segments = some (.value imported.name) ↔
              ∀ other ∈ between, ¬ other.name.segments <+: imported.name.segments) := by
  obtain ⟨resolved, -, goesBack⟩ := exists_goesBackTo succeeds
  obtain ⟨script, -, shown⟩ := goesBack.exists_script lines blocks stylesheets markup
  refine ⟨?_, fun made member => ?_, fun earlier part name places imports => ?_⟩
  · simpa using goesBack.definitions_sublist shown (List.Sublist.refl _) (List.nil_sublist _)
      fun contributor member => absurd member List.not_mem_nil
  · obtain ⟨text, source, -, -, compiles⟩ := goesBack.exists_source member
    obtain ⟨-, body, same⟩ := (returns_of_compileModule compiles).1
    refine ⟨body ++ (Returned.ofExports made.exports).statement ++ "\x7d());".toList, ?_⟩
    rw [same, made.opening_eq]
    simp
  · obtain ⟨imported, there, -, keyed⟩ := goesBack.exists_imported places imports
    refine ⟨imported, there, keyed, fun front between split => part.scope_iff split ?_⟩
    obtain ⟨later, whole⟩ := places.earlier_prefix
    rw [split] at whole
    exact fun other member => goesBack.postorder.segments_ne whole.symm member

end

namespace NestedNames

/-- Two pages import the same modules, one of which has the name of the namespace of the other. -/
def store : Store :=
  .ofFiles [(.ofString "/src/nested.js", ":import a.b.C\n:import a.b\nC(b);\n".toUTF8),
    (.ofString "/src/parent.js", ":import a.b\n:import a.b.C\nC(b);\n".toUTF8),
    (.ofString "/src/a/b.js", "var b = 1;\n".toUTF8),
    (.ofString "/src/a/b/C.js", "var C = 2;\n".toUTF8)] []

def parent : ModuleName := ⟨["a".toList], "b".toList, by decide, by decide⟩

def nested : ModuleName := ⟨["a".toList, "b".toList], "C".toList, by decide, by decide⟩

/-- The page that imports the parent module first. -/
def parentFirst : SourceFile :=
  scanned "/src/parent.js" ":import a.b\n:import a.b.C\nC(b);\n"

/-- The page that imports the nested module first. -/
def nestedFirst : SourceFile :=
  scanned "/src/nested.js" ":import a.b.C\n:import a.b\nC(b);\n"

/-- What the page with the nested module first is made of. -/
def scripts : List Text :=
  [("var a = a || \x7b\x7d;\na.b = a.b || \x7b\x7d;\na.b.C = (function () \x7b\n" ++
      "var C = 2;\nreturn C;\n\x7d());").toList,
    "var a = a || \x7b\x7d;\na.b = (function () \x7b\nvar b = 1;\nreturn b;\n\x7d());".toList,
    "var C = a.b.C;\nvar b = a.b;\nC(b);".toList]

end NestedNames

section

open NestedNames

theorem import_reads_value_iff_parentFirst :
    ∃ compiled, ((compile {} (.ofString "/src/parent.js") :
        BuildM (StateM Store) Compiled).run.run store).1 = .ok compiled ∧
      ∃ imported ∈ compiled.modules, imported.name = nested ∧
        (Part.entry parentFirst).scope compiled.modules nested.segments = some (.value nested) := by
  have listed : ((compile {} (.ofString "/src/parent.js") :
      BuildM (StateM Store) Compiled).run.run store).1.toOption.map (fun compiled =>
        compiled.modules.map CompiledModule.name) = some [parent, nested] := by
    decide +kernel
  have whole : (Path.ofString "/src/parent.js").normalize = .ofString "/src/parent.js" := by
    decide +kernel
  have read : (view store).readText (Path.ofString "/src/parent.js").normalize =
      .ok ":import a.b\n:import a.b.C\nC(b);\n".toList := by decide +kernel
  have scans : SourceFile.scan (Path.ofString "/src/parent.js").normalize
      ":import a.b\n:import a.b.C\nC(b);\n".toList = .ok parentFirst := by
    rw [whole]
    exact scan_eq_scanned (by decide +kernel)
  have imports : nested ∈ importedNames parentFirst := by decide +kernel
  obtain ⟨compiled, outcome, names⟩ := exists_of_toOption_map listed
  obtain ⟨-, -, reads⟩ := import_reads_value_iff rfl rfl rfl rfl outcome
  obtain ⟨imported, member, keyed, holds⟩ := reads _ _ nested (.entry read scans) imports
  have named : imported.name = nested := ModuleName.qualified_injective keyed
  obtain ⟨front, between, split⟩ := List.append_of_mem member
  -- The nested module is the last one, so nothing is defined between it and the entry file.
  have last : between = [] := by
    rw [split, List.map_append, List.map_cons, named] at names
    cases front with
    | nil => exact absurd (List.cons.inj names).1 (by decide +kernel)
    | cons first front =>
      have size := congrArg List.length names
      simp at size
      exact List.eq_nil_of_length_eq_zero (by omega)
  subst last
  rw [← named]
  exact ⟨compiled, outcome, imported, member, rfl, (holds front [] split).mpr (by simp)⟩

/-- The page that imports the nested module first reads its name where the parent has replaced
what was stored there. -/
theorem value_replaced_nestedFirst :
    ∃ compiled, ((compile {} (.ofString "/src/nested.js") :
        BuildM (StateM Store) Compiled).run.run store).1 = .ok compiled ∧
      compiled.document.script.map Fragment.text = scripts ∧
      compiled.modules.map CompiledModule.name = [nested, parent] ∧
      nested ∈ importedNames nestedFirst ∧
      (Part.entry nestedFirst).scope compiled.modules nested.segments = none := by
  have ends : ((compile {} (.ofString "/src/nested.js") :
      BuildM (StateM Store) Compiled).run.run store).1.toOption.map (fun compiled =>
        (compiled.document.script.map Fragment.text, compiled.modules.map CompiledModule.name,
          (Part.entry nestedFirst).scope compiled.modules nested.segments)) =
      some (scripts, [nested, parent], none) := by
    decide +kernel
  obtain ⟨compiled, outcome, same⟩ := exists_of_toOption_map ends
  obtain ⟨emitted, listed⟩ := Prod.mk.inj same
  obtain ⟨listed, lost⟩ := Prod.mk.inj listed
  exact ⟨compiled, outcome, emitted, listed, by decide +kernel, lost⟩

end

end PageCompiler
