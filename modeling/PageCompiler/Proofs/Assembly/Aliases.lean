import PageCompiler.Proofs.Assembly.Trimming
import PageCompiler.Proofs.Resolution.Reproduction

/-! # Definitions and aliases

The definition of a module ends with a statement that returns either one value or an object. Those
who import the module bind names to that value or to the members of that object: `Returned` says
which of the two it is. The aliases of an import stand in the script at the place of its directive.
-/

namespace PageCompiler

/-! ## What a definition returns -/

inductive Returned where
  | value (name : Text)
  | object (members : List Text)

namespace Returned

def ofExports : List Text → Returned
  | [only] => value only
  | exports => object exports

/-- The names that are bound by those who import it. -/
def names : Returned → List Text
  | value name => [name]
  | object members => members

/-- The statement that returns it: a variable, or an object with a member for each variable. -/
def statement : Returned → Text
  | value name => "return ".toList ++ name ++ ";\n".toList
  | object members =>
    "return \x7b ".toList
      ++ Text.join ", ".toList (members.map fun name => name ++ ": ".toList ++ name)
      ++ " \x7d;\n".toList

/-- The statements that bind its names, where `holder` holds it. -/
def aliases (holder : Text) : Returned → Text
  | value name => "var ".toList ++ name ++ " = ".toList ++ holder ++ ";".toList
  | object members =>
    Text.join [' '] (members.map fun name =>
      "var ".toList ++ name ++ " = ".toList ++ holder ++ ".".toList ++ name ++ ";".toList)

variable (exports : List Text)

theorem names_ofExports : (ofExports exports).names = exports := by
  rcases exports with - | ⟨only, - | ⟨next, others⟩⟩ <;> rfl

theorem statement_ofExports : (ofExports exports).statement = returnStatement exports := by
  rcases exports with - | ⟨only, - | ⟨next, others⟩⟩ <;> rfl

theorem aliases_ofExports (compiled : CompiledModule) :
    (ofExports compiled.exports).aliases compiled.name.qualified = importStatements compiled := by
  obtain ⟨name, path, exports, -, -, -, -⟩ := compiled
  rcases exports with - | ⟨only, - | ⟨next, others⟩⟩ <;> rfl

/-- Statements one after the other start like the first one and end like the last one. -/
theorem solid_join {statements : List Text} (nonempty : statements ≠ [])
    (starts : ∀ statement ∈ statements, statement.StartsVisibly)
    (ends : ∀ statement ∈ statements, statement.EndsVisibly) :
    (Text.join [' '] statements).StartsVisibly ∧ (Text.join [' '] statements).EndsVisibly := by
  induction statements with
  | nil => exact absurd rfl nonempty
  | cons statement others inductionHypothesis =>
    cases others with
    | nil =>
      have alone : Text.join [' '] [statement] = statement := by simp [Text.join]
      rw [alone]
      exact ⟨starts statement List.mem_cons_self, ends statement List.mem_cons_self⟩
    | cons next others =>
      obtain ⟨-, endsLater⟩ := inductionHypothesis (List.cons_ne_nil next others)
        (fun other member => starts other (List.mem_cons_of_mem _ member))
        fun other member => ends other (List.mem_cons_of_mem _ member)
      have joined : Text.join [' '] (statement :: next :: others) =
          (statement ++ [' ']) ++ Text.join [' '] (next :: others) := by
        simp [Text.join, List.intercalate]
      rw [joined]
      exact ⟨((starts statement List.mem_cons_self).append _).append _, endsLater.append _⟩

theorem solid_aliases (returned : Returned) (nonempty : returned.names ≠ []) (holder : Text) :
    (returned.aliases holder).StartsVisibly ∧ (returned.aliases holder).EndsVisibly := by
  have keyword : Text.StartsVisibly "var ".toList := ⟨'v', rfl, by decide⟩
  have semicolon : Text.EndsVisibly ";".toList := ⟨';', rfl, by decide⟩
  cases returned with
  | value name => exact ⟨(((keyword.append _).append _).append _).append _, semicolon.append _⟩
  | object members =>
    refine solid_join (by simpa [names] using nonempty) (fun statement member => ?_)
      fun statement member => ?_
    · obtain ⟨name, -, rfl⟩ := List.mem_map.mp member
      exact (((((keyword.append _).append _).append _).append _).append _).append _
    · obtain ⟨name, -, rfl⟩ := List.mem_map.mp member
      exact semicolon.append _

theorem solid_importStatements {compiled : CompiledModule} (exported : compiled.exports ≠ []) :
    (importStatements compiled).StartsVisibly ∧ (importStatements compiled).EndsVisibly := by
  rw [← aliases_ofExports]
  exact solid_aliases _ (by rwa [names_ofExports]) _

end Returned

/-! ## The script around a directive -/

/-- The script of some segments of the file `path`. -/
def segmentsScript (registry : Registry) (path : Path) (segments : List Segment) :
    Except BuildError Text :=
  (segments.mapM (segmentScript registry path)).map List.flatten

theorem segmentsScript_append {registry : Registry} {path : Path} {before after : List Segment}
    {script : Text} (made : segmentsScript registry path (before ++ after) = .ok script) :
    ∃ front back, segmentsScript registry path before = .ok front ∧
      segmentsScript registry path after = .ok back ∧ script = front ++ back := by
  rw [segmentsScript, List.mapM_append] at made
  rw [segmentsScript, segmentsScript]
  cases begun : before.mapM (segmentScript registry path) with
  | error error =>
    rw [begun] at made
    cases made
  | ok fronts =>
    cases ended : after.mapM (segmentScript registry path) with
    | error error =>
      rw [begun, ended] at made
      cases made
    | ok backs =>
      rw [begun, ended] at made
      cases made
      exact ⟨_, _, rfl, rfl, List.flatten_append⟩

/-- The script of a file is that of the segments in front of an import, the aliases of the module
that is registered for it, and the script of the segments behind it. -/
theorem sourceScript_import {registry : Registry} {source : SourceFile} {script : Text}
    {before after : List Segment} {directive : Segment} {name : ModuleName}
    (made : sourceScript registry source = .ok script)
    (split : source.segments = before ++ directive :: after)
    (imports : directive.content = .directive (.importModule name))
    {imported : CompiledModule} (found : registry.lookup? name = some imported) :
    ∃ front back, segmentsScript registry source.path before = .ok front ∧
      segmentsScript registry source.path after = .ok back ∧
      script = front ++ indentation directive.raw ++ importStatements imported ++
        (lineEnd directive.raw ++ back) := by
  change segmentsScript registry source.path source.segments = .ok script at made
  rw [split, List.append_cons] at made
  obtain ⟨start, back, started, ended, rfl⟩ := segmentsScript_append made
  obtain ⟨front, middle, begun, replaced, rfl⟩ := segmentsScript_append started
  refine ⟨front, back, begun, ended, ?_⟩
  have become : segmentScript registry source.path directive =
      .ok (indentation directive.raw ++ importStatements imported ++ lineEnd directive.raw) := by
    rw [segmentScript, imports]
    simp only [found]
  rw [segmentsScript, List.mapM_cons, List.mapM_nil, become] at replaced
  cases replaced
  simp

/-! ## Parts of a page -/

/-- What stands in front of the body of a module: the statements that create its namespaces, and the
start of the one that stores its value under its name. -/
def CompiledModule.opening (compiled : CompiledModule) : Text :=
  namespaceStatements compiled.name ++ compiled.name.qualified
    ++ " = (function () \x7b\n".toList

/-- The module stores what is returned under its name. -/
structure CompiledModule.Returns (compiled : CompiledModule) (returned : Returned) : Prop where
  names : returned.names = compiled.exports
  script : ∃ body, compiled.script =
    compiled.opening ++ body ++ returned.statement ++ "\x7d());".toList

/-- A source file that has a script in a page: that of a module, or the entry. -/
inductive Part where
  | module (compiled : CompiledModule) (source : SourceFile)
  | entry (source : SourceFile)

namespace Part

def source : Part → SourceFile
  | module _ source => source
  | entry source => source

def origin : Part → Text
  | module compiled _ => compiled.name.qualified
  | entry source => source.path.text

/-- What the page has in front of the script. -/
def opening : Part → Text
  | module compiled _ => compiled.opening
  | entry _ => []

/-- What the page has behind the script. -/
def closing : Part → Text
  | module compiled _ => "\n".toList ++ returnStatement compiled.exports ++ "\x7d());".toList
  | entry _ => []

/-- The text is that of the part, with the statements in the place of the directive. -/
def Renders (registry : Registry) (part : Part) (before : List Segment) (directive : Segment)
    (after : List Segment) (statements text : Text) : Prop :=
  ∃ front back start remaining,
    segmentsScript registry part.source.path before = .ok front ∧
    segmentsScript registry part.source.path after = .ok back ∧
    (front ++ indentation directive.raw).LosesStart start ∧
    (lineEnd directive.raw ++ back).LosesEnd remaining ∧
    text = part.opening ++ start ++ statements ++ remaining ++ part.closing

end Part

theorem returns_of_compileModule {registry : Registry} {name : ModuleName} {source : SourceFile}
    {compiled : CompiledModule} (compiles : compileModule registry name source = .ok compiled) :
    compiled.Returns (.ofExports compiled.exports) ∧ compiled.exports ≠ [] := by
  obtain ⟨body, -, rfl⟩ := exists_of_compileModule compiles
  refine ⟨⟨Returned.names_ofExports _, definitionBody body, ?_⟩, ?_⟩
  · rw [Returned.statement_ofExports]
    rfl
  · dsimp only [moduleExports]
    split
    · exact List.cons_ne_nil _ _
    · next exported => simpa using exported

/-- The script of a module is a fragment as it is. -/
theorem tidy_of_compileModule {registry : Registry} {name : ModuleName} {source : SourceFile}
    {compiled : CompiledModule} (compiles : compileModule registry name source = .ok compiled) :
    tidy compiled.script = compiled.script ∧ tidy compiled.script ≠ [] := by
  obtain ⟨body, -, rfl⟩ := exists_of_compileModule compiles
  exact ⟨tidy_moduleDefinition _ _ _, tidy_moduleDefinition_ne_nil _ _ _⟩

section

variable {registry : Registry} {source : SourceFile} {before after : List Segment}
  {directive : Segment} {name : ModuleName} {imported : CompiledModule}
  (split : source.segments = before ++ directive :: after)
  (imports : directive.content = .directive (.importModule name))
  (found : registry.lookup? name = some imported) (exported : imported.exports ≠ [])

include split imports found exported

theorem renders_module {own : ModuleName} {compiled : CompiledModule}
    (compiles : compileModule registry own source = .ok compiled) :
    (Part.module compiled source).Renders registry before directive after
      ((Returned.ofExports imported.exports).aliases imported.name.qualified) compiled.script := by
  obtain ⟨body, made, rfl⟩ := exists_of_compileModule compiles
  obtain ⟨front, back, begun, ended, rfl⟩ := sourceScript_import made split imports found
  obtain ⟨starts, ends⟩ := Returned.solid_importStatements exported
  obtain ⟨start, remaining, lostStart, lostEnd, kept⟩ := definitionBody_append starts ends
  refine ⟨front, back, start, remaining, begun, ended, lostStart, lostEnd, ?_⟩
  rw [moduleDefinition, kept, Returned.aliases_ofExports]
  simp [Part.opening, Part.closing, CompiledModule.opening]

theorem renders_entry {script : Text} (made : sourceScript registry source = .ok script) :
    (Part.entry source).Renders registry before directive after
      ((Returned.ofExports imported.exports).aliases imported.name.qualified) (tidy script) ∧
      tidy script ≠ [] := by
  obtain ⟨front, back, begun, ended, rfl⟩ := sourceScript_import made split imports found
  obtain ⟨starts, ends⟩ := Returned.solid_importStatements exported
  obtain ⟨start, remaining, lostStart, lostEnd, kept⟩ := (tidy_losesEnds _).append starts ends
  refine ⟨⟨front, back, start, remaining, begun, ended, lostStart, lostEnd, ?_⟩, ?_⟩
  · rw [kept, Returned.aliases_ofExports]
    simp [Part.opening, Part.closing]
  · rw [kept]
    simp [starts.ne_nil]

end

end PageCompiler
