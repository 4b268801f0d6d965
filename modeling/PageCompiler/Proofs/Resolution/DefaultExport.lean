import PageCompiler.Proofs.Name.Keys
import PageCompiler.Proofs.Name.RelativePath
import PageCompiler.Proofs.Path.Parent
import PageCompiler.Proofs.Resolution.Exports

/-! # The spelling that a file name gives

Where names are compared without their case, a module without export directives exports its
identifier in the spelling of its file name. The file name is taken apart again: what stands behind
its last dot is no part of its stem, and what stands behind the last dot of the stem is the
identifier. So the spelling is found if the extension holds no dot. With dots in the extension the
stem ends in a piece of the extension, and that piece is taken for the identifier.
-/

namespace PageCompiler

/-! ## File names of modules -/

namespace NamePolicy

/-- The name of a module's file without the extension. -/
def fileBase (policy : NamePolicy) (name : ModuleName) : Text :=
  match policy.layout with
  | .nested => name.identifier
  | .flat => name.qualified

theorem exists_cons_fileBase (policy : NamePolicy) (name : ModuleName) :
    ∃ c rest, policy.fileBase name = c :: rest ∧ c ≠ '.' ∧ '/' ∉ policy.fileBase name := by
  have slash : isSegmentChar '/' = false := by decide
  rw [fileBase]
  cases policy.layout with
  | nested =>
    have valid := name.segments_valid name.identifier (by simp)
    obtain ⟨c, rest, split, visible⟩ := exists_cons_segment valid
    exact ⟨c, rest, split, visible, not_mem_segment valid slash⟩
  | flat =>
    obtain ⟨c, rest, split, visible⟩ := exists_cons_qualified name
    exact ⟨c, rest, split, visible, not_mem_qualified name slash (by decide)⟩

/-- The last word of a file name without the extension is the identifier. -/
theorem getLast?_splitOn_fileBase (policy : NamePolicy) (name : ModuleName) :
    ((policy.fileBase name).splitOn '.').getLast? = some name.identifier := by
  rw [fileBase]
  cases policy.layout with
  | nested =>
    have inside : name.identifier ∈ name.segments := by simp [ModuleName.segments]
    rw [List.splitOn_eq_singleton (ModuleName.dot_not_mem inside), List.getLast?_singleton]
  | flat => rw [ModuleName.splitOn_qualified, ModuleName.segments, List.getLast?_concat]

theorem fileName?_join_relativePath {policy : NamePolicy} (inside : '/' ∉ policy.extension)
    (root : Path) (name : ModuleName) : (root.join (policy.relativePath name)).fileName? =
      some (policy.fileBase name ++ '.' :: policy.extension) := by
  obtain ⟨front, cut, starts⟩ : ∃ front : Text, (policy.relativePath name).text =
      front ++ (policy.fileBase name ++ '.' :: policy.extension) ∧
        (front = [] ∨ ∃ rest, front = rest ++ ['/']) := by
    rw [relativePath, fileBase]
    cases policy.layout with
    | nested =>
      refine ⟨Text.join ['/'] name.qualifier ++ ['/'], ?_, .inr ⟨_, rfl⟩⟩
      dsimp only
      rw [Path.join_append name.qualifier_ne_nil (List.cons_ne_nil _ _)]
      simp [Text.join]
    | flat => exact ⟨[], rfl, .inl rfl⟩
  obtain ⟨front, cut, starts⟩ := Path.exists_cut_join root cut starts
  obtain ⟨c, rest, split, visible, whole⟩ := policy.exists_cons_fileBase name
  have isFileName : Path.IsFileName (policy.fileBase name ++ '.' :: policy.extension) := by
    rw [split] at whole ⊢
    exact isFileName_extended visible whole inside
  exact Path.fileName?_eq_some cut isFileName.2 starts isFileName.1

end NamePolicy

/-! ## Stems -/

/-- The last word of the stem of a path, which stands in front of the extension. -/
def Path.stemWord (path : Path) : Text :=
  ((path.fileStem?.getD []).splitOn '.').getLast?.getD []

section Stems

variable {policy : NamePolicy} (inside : '/' ∉ policy.extension) (root : Path) (name : ModuleName)

include inside

theorem stemWord_of_undotted (undotted : '.' ∉ policy.extension) :
    (root.join (policy.relativePath name)).stemWord = name.identifier := by
  obtain ⟨c, rest, split, -, -⟩ := policy.exists_cons_fileBase name
  have nonempty : policy.fileBase name ≠ [] := by simp [split]
  rw [Path.stemWord, Path.fileStem?, NamePolicy.fileName?_join_relativePath inside,
    Option.map_some, Path.splitExtension_append nonempty undotted, Option.getD_some,
    policy.getLast?_splitOn_fileBase, Option.getD_some]

/-- Only the last piece of an extension with dots is cut off. -/
theorem stemWord_of_dotted {front : List Text} {word last : Text}
    (pieces : policy.extension.splitOn '.' = front ++ [word, last]) :
    (root.join (policy.relativePath name)).stemWord = word := by
  have whole : ∀ piece ∈ front ++ [word, last], '.' ∉ piece := fun piece member =>
    Path.not_mem_of_mem_splitOn (pieces ▸ member)
  have extension_eq : policy.extension = Text.join ['.'] (front ++ [word]) ++ '.' :: last := by
    calc policy.extension = Text.join ['.'] (policy.extension.splitOn '.') :=
          (List.intercalate_splitOn '.').symm
      _ = Text.join ['.'] (front ++ [word] ++ [last]) := by rw [pieces]; simp
      _ = Text.join ['.'] (front ++ [word]) ++ '.' :: last := by
          rw [Path.join_append (List.concat_ne_nil _ _) (List.cons_ne_nil _ _)]
          simp [Text.join]
  -- The stem runs on into the extension, up to its last dot.
  have file : policy.fileBase name ++ '.' :: policy.extension =
      (policy.fileBase name ++ '.' :: Text.join ['.'] (front ++ [word])) ++ '.' :: last := by
    simp [extension_eq]
  rw [Path.stemWord, Path.fileStem?, NamePolicy.fileName?_join_relativePath inside,
    Option.map_some, file, Path.splitExtension_append (by simp) (whole last (by simp)),
    Option.getD_some, List.splitOn_append_cons_self]
  rw [Text.join, List.splitOn_intercalate '.' _ (List.concat_ne_nil _ _)]
  · rw [← List.append_assoc, List.getLast?_concat, Option.getD_some]
  · exact fun piece member => whole piece (by simp at member ⊢; tauto)

end Stems

/-! ## Exports -/

/-- Names that agree without their case end in identifiers that do. -/
theorem ModuleName.eqIgnoringAsciiCase_identifier {first second : ModuleName}
    (same : Text.eqIgnoringAsciiCase first.qualified second.qualified = true) :
    Text.eqIgnoringAsciiCase first.identifier second.identifier = true := by
  rw [Text.eqIgnoringAsciiCase, beq_iff_eq] at same ⊢
  have segments : first.segments.map Text.asciiLowercase =
      second.segments.map Text.asciiLowercase := by
    rw [← splitOn_asciiLowercase_qualified, ← splitOn_asciiLowercase_qualified, same]
  simpa [ModuleName.segments] using congrArg List.getLast? segments

/-- Where names are compared without their case, a module without export directives exports the
identifier that its file name was written with, if the extension holds no dot. Otherwise the piece
of the extension in front of its last dot decides: it is exported if it agrees with the identifier
of the wanted name, and that identifier is exported if it does not. -/
theorem compileModule_exports_spelling {registry : Registry}
    (ignoring : registry.matching = .ignoreCase) (layout : NamespaceLayout) {extension : Text}
    (inside : '/' ∉ extension) (root : Path) {name written : ModuleName}
    (same : Text.eqIgnoringAsciiCase written.qualified name.qualified = true)
    (identifier : isIdentifier written.identifier = true) {source : SourceFile}
    (silent : source.exports = [])
    (opened : source.path =
      root.join ((NamePolicy.make .ignoreCase layout extension).relativePath written))
    (held : registry.Holds (importedNames source)) :
    ∃ compiled, compileModule registry name source = .ok compiled ∧
      ('.' ∉ extension.dropWhile (· == '.') → compiled.exports = [written.identifier]) ∧
      ∀ front word last, (extension.dropWhile (· == '.')).splitOn '.' = front ++ [word, last] →
        compiled.exports = [if isIdentifier word && Text.eqIgnoringAsciiCase word name.identifier
          then word else name.identifier] := by
  obtain ⟨compiled, compiles, -, -⟩ := compileModule_isOk held name
  have noSlash : '/' ∉ (NamePolicy.make .ignoreCase layout extension).extension :=
    fun member => inside ((List.dropWhile_suffix _).subset member)
  have exports : compiled.exports = [if isIdentifier source.path.stemWord &&
      Text.eqIgnoringAsciiCase source.path.stemWord name.identifier
        then source.path.stemWord else name.identifier] := by
    obtain ⟨body, -, rfl⟩ := exists_of_compileModule compiles
    simp [moduleExports, silent, ignoring, defaultExport, Path.stemWord]
  refine ⟨compiled, compiles, fun undotted => ?_, fun front word last pieces => ?_⟩
  · rw [exports, opened, stemWord_of_undotted noSlash root written undotted, identifier,
      ModuleName.eqIgnoringAsciiCase_identifier same]
    rfl
  · rw [exports, opened, stemWord_of_dotted noSlash root written pieces]

/-- A module name that is written without the capital that its file has. -/
def gauge : ModuleName := ⟨["ui".toList], "gauge".toList, nofun, by decide⟩

def gaugeWritten : ModuleName := ⟨["ui".toList], "Gauge".toList, nofun, by decide⟩

theorem compileModule_exports_spelling_flatGauge :
    Text.eqIgnoringAsciiCase gaugeWritten.qualified gauge.qualified = true ∧
      isIdentifier gaugeWritten.identifier = true ∧
      (scanned "/lib/ui.Gauge.js" "var Gauge = 1;\n").path = (Path.ofString "/lib").join
        ((NamePolicy.make .ignoreCase .flat ".js".toList).relativePath gaugeWritten) ∧
      ∃ compiled, compileModule (.empty .ignoreCase) gauge
          (scanned "/lib/ui.Gauge.js" "var Gauge = 1;\n") = .ok compiled ∧
        compiled.exports = ["Gauge".toList] := by
  have same : Text.eqIgnoringAsciiCase gaugeWritten.qualified gauge.qualified = true := by decide
  have identifier : isIdentifier gaugeWritten.identifier = true := by decide
  have opened : (scanned "/lib/ui.Gauge.js" "var Gauge = 1;\n").path = (Path.ofString "/lib").join
      ((NamePolicy.make .ignoreCase .flat ".js".toList).relativePath gaugeWritten) := by
    decide +kernel
  have silent : (scanned "/lib/ui.Gauge.js" "var Gauge = 1;\n").exports = [] := by decide +kernel
  have held : (Registry.empty .ignoreCase).Holds
      (importedNames (scanned "/lib/ui.Gauge.js" "var Gauge = 1;\n")) := by
    have noImports : importedNames (scanned "/lib/ui.Gauge.js" "var Gauge = 1;\n") = [] := by
      decide +kernel
    exact noImports ▸ fun name member => absurd member List.not_mem_nil
  obtain ⟨compiled, compiles, undotted, -⟩ := compileModule_exports_spelling rfl .flat (by decide)
    (.ofString "/lib") same identifier silent opened held
  exact ⟨same, identifier, opened, compiled, compiles, undotted (by decide)⟩

/-- An extension with a dot hides the spelling. -/
theorem spelling_lost_dottedExtension :
    '/' ∉ "min.js".toList ∧
      Text.eqIgnoringAsciiCase gaugeWritten.qualified gauge.qualified = true ∧
      isIdentifier gaugeWritten.identifier = true ∧
      (scanned "/src/ui/Gauge.min.js" "var Gauge = 1;\n").exports = [] ∧
      (scanned "/src/ui/Gauge.min.js" "var Gauge = 1;\n").path = (Path.ofString "/src").join
        ((NamePolicy.make .ignoreCase .nested "min.js".toList).relativePath gaugeWritten) ∧
      (compileModule (.empty .ignoreCase) gauge
          (scanned "/src/ui/Gauge.min.js" "var Gauge = 1;\n")).toOption.map
        CompiledModule.exports = some ["gauge".toList] := by
  refine ⟨by decide, by decide, by decide, by decide +kernel, by decide +kernel, by decide +kernel⟩

end PageCompiler
