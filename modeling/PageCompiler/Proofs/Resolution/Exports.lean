import PageCompiler.Proofs.Assembly.Aliases
import PageCompiler.Proofs.Resolution.Memoisation

/-! # What modules export

The exports of a module are declared as variables by those who import it, and its own definition
returns them, so they should be identifiers. The names of export directives are: the scanner refuses
any other. A module without such a directive exports its identifier, and a module name may have an
identifier that starts with a digit. That is the only way to an export that is none.
-/

namespace PageCompiler

open FileSystem (view)

/-! ## Names in export directives -/

def Segment.exportedNames (segment : Segment) : List Text :=
  match segment.content with
  | .directive (.exportNames names) => names
  | _ => []

/-- The names with one more at the end, if it is not there yet. -/
def withName (names : List Text) (name : Text) : List Text :=
  if names.contains name then names else names ++ [name]

namespace SourceFile

theorem exports_eq_foldl (source : SourceFile) :
    source.exports = (source.segments.flatMap Segment.exportedNames).foldl withName [] := by
  rw [exports, List.foldl_flatMap]
  congr 1
  funext names segment
  rw [Segment.exportedNames]
  cases segment.content with
  | script _ => rfl
  | block _ _ => rfl
  | directive directive => cases directive <;> rfl

theorem mem_foldl_withName {name : Text} (more names : List Text) :
    name ∈ more.foldl withName names ↔ name ∈ names ∨ name ∈ more := by
  induction more generalizing names with
  | nil => simp
  | cons next more ih =>
    rw [List.foldl_cons, ih, withName]
    by_cases known : next ∈ names
    · simp only [List.contains_iff_mem, known, if_true, List.mem_cons]
      constructor
      · tauto
      · rintro (old | rfl | new) <;> tauto
    · simp [known, or_assoc]

theorem nodup_foldl_withName (more : List Text) {names : List Text} (distinct : names.Nodup) :
    (more.foldl withName names).Nodup := by
  induction more generalizing names with
  | nil => exact distinct
  | cons next more ih =>
    apply ih
    by_cases known : next ∈ names
    · simpa [withName, known] using distinct
    · have apart : ∀ name ∈ names, name ≠ next := fun name member same => known (same ▸ member)
      simpa [withName, known, List.nodup_append, distinct] using apart

theorem nodup_exports (source : SourceFile) : source.exports.Nodup := by
  rw [exports_eq_foldl]
  exact nodup_foldl_withName _ List.nodup_nil

theorem mem_exports {source : SourceFile} {name : Text} :
    name ∈ source.exports ↔ ∃ segment ∈ source.segments, name ∈ segment.exportedNames := by
  rw [exports_eq_foldl, mem_foldl_withName, List.mem_flatMap]
  simp

/-- The scanner accepts no other name in an export directive. -/
theorem isIdentifier_of_mem_exports {path : Path} {text : Text} {source : SourceFile}
    (scanned : SourceFile.scan path text = .ok source) {name : Text}
    (exported : name ∈ source.exports) : isIdentifier name = true := by
  obtain ⟨segments, found, rfl⟩ := exists_of_map_eq_ok scanned
  obtain ⟨⟨content, raw, start⟩, member, listed⟩ := mem_exports.mp exported
  have cut := (cutsBehind_of_scanFrom found (iff_of_true rfl (.inl rfl)) rfl).1
  obtain ⟨earlier, later, split⟩ := List.append_of_mem member
  have fits := cut.fits earlier _ later split
  dsimp only at fits
  -- Only an export directive lists names, and the grammar says which ones.
  cases fits with
  | script _ => simp [Segment.exportedNames] at listed
  | block _ => simp [Segment.exportedNames] at listed
  | directive _ _ _ asks =>
    cases asks with
    | exportNames _ _ _ identifiers => exact identifiers name listed
    | _ => simp [Segment.exportedNames] at listed

end SourceFile

/-! ## Names of modules without export directives -/

theorem ModuleName.isNameSegment_identifier (name : ModuleName) :
    isNameSegment name.identifier = true :=
  name.segments_valid _ (by simp)

theorem isDigit_asciiLower (c : Char) : (Text.asciiLower c).isDigit = c.isDigit := by
  delta Text.asciiLower Char.toLower
  split
  · next capital =>
    have above : 65 ≤ c.val.toNat ∧ c.val.toNat ≤ 90 :=
      ⟨UInt32.le_iff_toNat_le.mp capital.1, UInt32.le_iff_toNat_le.mp capital.2⟩
    have step : ('a'.val - 'A'.val).toNat = 32 := rfl
    have last : '9'.val.toNat = 57 := rfl
    -- Neither a capital nor a small letter is a digit.
    have notDigit {d : Char} (beyond : 57 < d.val.toNat) : d.isDigit = false := by
      simp only [Char.isDigit, Bool.and_eq_false_iff, decide_eq_false_iff_not,
        UInt32.le_iff_toNat_le]
      omega
    rw [notDigit (d := c) (by omega), notDigit]
    simp only [UInt32.toNat_add, step]
    omega
  · rfl

/-- The letter case of a name has no part in whether it is an identifier. -/
theorem isIdentifier_of_eqIgnoringAsciiCase {first second : Text}
    (same : Text.eqIgnoringAsciiCase first second = true) (segment : isNameSegment second = true)
    (identifier : isIdentifier first = true) : isIdentifier second = true := by
  simp only [isIdentifier, Bool.and_eq_true] at identifier ⊢
  cases first with
  | nil => simp [isNameSegment] at identifier
  | cons c rest =>
    cases second with
    | nil => simp [isNameSegment] at segment
    | cons d others =>
      simp only [Text.eqIgnoringAsciiCase, Text.asciiLowercase, List.map_cons, beq_iff_eq,
        List.cons.injEq] at same
      have digits : c.isDigit = d.isDigit := by
        rw [← isDigit_asciiLower c, ← isDigit_asciiLower d, same.1]
      simpa [segment, ← digits] using identifier.2

theorem defaultExport_cases (matching : NameMatching) (name : ModuleName) (path : Path) :
    defaultExport matching name path = name.identifier ∨
      isIdentifier (defaultExport matching name path) = true ∧
        isIdentifier name.identifier = true := by
  cases matching with
  | exact => exact .inl rfl
  | ignoreCase =>
    simp only [defaultExport]
    split
    · next spelled =>
      rw [Bool.and_eq_true] at spelled
      exact .inr ⟨spelled.1, isIdentifier_of_eqIgnoringAsciiCase spelled.2
        name.isNameSegment_identifier spelled.1⟩
    · exact .inl rfl

/-- Without an export directive a module exports an identifier exactly if its own is one. -/
theorem moduleExports_cases {path : Path} {text : Text} {source : SourceFile}
    (scanned : SourceFile.scan path text = .ok source) (matching : NameMatching)
    (name : ModuleName) :
    moduleExports matching name source ≠ [] ∧ (moduleExports matching name source).Nodup ∧
      ((∀ exported ∈ moduleExports matching name source, isIdentifier exported = true) ↔
        source.exports ≠ [] ∨ isIdentifier name.identifier = true) ∧
      (source.exports = [] → isIdentifier name.identifier = false →
        moduleExports matching name source = [name.identifier]) := by
  by_cases silent : source.exports = []
  · have only : moduleExports matching name source =
        [defaultExport matching name source.path] := by
      simp [moduleExports, silent]
    rw [only]
    rcases defaultExport_cases matching name source.path with same | ⟨spelled, identifier⟩
    · simp [same, silent]
    · simp [spelled, identifier]
  · have listed : moduleExports matching name source = source.exports := by
      simp [moduleExports, silent]
    rw [listed]
    have identifiers : ∀ exported ∈ source.exports, isIdentifier exported = true :=
      fun exported member => SourceFile.isIdentifier_of_mem_exports scanned member
    simpa [silent, source.nodup_exports] using identifiers

/-! ## Registered modules -/

namespace Session

variable {σ : Type} [FileSystem (StateM σ)] [LawfulFileSystem σ]

/-- Every registered module exports something, and nothing twice. Its exports are what its own
definition returns and what an import declares. All of them are identifiers, unless its file has no
export directive and its identifier is none, which then is what it exports. -/
theorem run_exports_usable (files : σ) (resolver : Resolver) (matching : NameMatching)
    {calls : List (ResolverCall σ)} (resolve : ∀ call ∈ calls, call.IsResolution)
    {compiled : CompiledModule} (registered : compiled ∈
      ((start resolver matching files).run calls).resolution.registry.toList) :
    compiled.exports ≠ [] ∧ compiled.exports.Nodup ∧
      compiled.Returns (.ofExports compiled.exports) ∧
      importStatements compiled =
        (Returned.ofExports compiled.exports).aliases compiled.name.qualified ∧
      ∃ text source, (view files).readText compiled.path = .ok text ∧
        SourceFile.scan compiled.path text = .ok source ∧
        ((∀ name ∈ compiled.exports, isIdentifier name = true) ↔
          source.exports ≠ [] ∨ isIdentifier compiled.name.identifier = true) ∧
        (source.exports = [] → isIdentifier compiled.name.identifier = false →
          compiled.exports = [compiled.name.identifier]) := by
  obtain ⟨key, found⟩ := exists_getElem?_of_mem_values registered
  have tracks := (tracks_start files resolver matching).run resolve
  cases tracks.faithful.made key compiled found with
  | @compile registry name source _ matches_ sound made loads compiles =>
    obtain ⟨path, text, located, read, scanned⟩ := loads
    have opened : source.path = path := by
      obtain ⟨segments, -, rfl⟩ := exists_of_map_eq_ok scanned
      rfl
    obtain ⟨returns, -⟩ := returns_of_compileModule compiles
    obtain ⟨body, -, rfl⟩ := exists_of_compileModule compiles
    obtain ⟨nonempty, distinct, identifiers, silent⟩ :=
      moduleExports_cases scanned registry.matching name
    subst opened
    exact ⟨nonempty, distinct, returns, (Returned.aliases_ofExports _).symm, text, source, read,
      scanned, identifiers, silent⟩

/-- A scene with export directives, and a module whose identifier starts with a digit. -/
def viewerFiles : Store :=
  .ofFiles [(.ofString "/src/ui/Scene.js",
      ":export open, close\n:export open\n:import ui.3d\nvar open = 1, close = 2;\n".toUTF8),
    (.ofString "/src/ui/3d.js", "var render = 1;\n".toUTF8)] []

def viewerResolver : Resolver :=
  .make [.ofString "/src"] (.make .ignoreCase .nested "js".toList) []

def viewerCalls : List (ResolverCall Store) :=
  [.loadBindings, .resolveImports (scanned "/src/main.js" ":import ui.Scene\n")]

def viewerModules : List CompiledModule :=
  ((start viewerResolver .ignoreCase viewerFiles).run viewerCalls).resolution.registry.toList

theorem run_exports_usable_viewer :
    viewerModules.map CompiledModule.exports =
        [["3d".toList], ["open".toList, "close".toList]] ∧
      ∀ compiled ∈ viewerModules, compiled.exports ≠ [] ∧ compiled.exports.Nodup ∧
        compiled.Returns (.ofExports compiled.exports) ∧
        ∃ text source, (view viewerFiles).readText compiled.path = .ok text ∧
          SourceFile.scan compiled.path text = .ok source ∧
          ((∀ name ∈ compiled.exports, isIdentifier name = true) ↔
            source.exports ≠ [] ∨ isIdentifier compiled.name.identifier = true) := by
  have resolve : ∀ call ∈ viewerCalls, call.IsResolution := by
    simp [viewerCalls, ResolverCall.IsResolution]
  refine ⟨by decide +kernel, fun compiled registered => ?_⟩
  obtain ⟨nonempty, distinct, returns, -, text, source, read, scanned, identifiers, -⟩ :=
    run_exports_usable viewerFiles viewerResolver .ignoreCase resolve registered
  exact ⟨nonempty, distinct, returns, text, source, read, scanned, identifiers⟩

/-- An export need not be an identifier. -/
theorem export_no_identifier_viewer :
    ¬ ∀ (files : Store) (resolver : Resolver) (matching : NameMatching)
      (calls : List (ResolverCall Store)), (∀ call ∈ calls, call.IsResolution) →
      ∀ compiled ∈ ((start resolver matching files).run calls).resolution.registry.toList,
        compiled.exports ≠ [] ∧ compiled.exports.Nodup ∧
          ∀ name ∈ compiled.exports, isIdentifier name = true := by
  intro usable
  have all := usable viewerFiles viewerResolver .ignoreCase viewerCalls
    (by simp [viewerCalls, ResolverCall.IsResolution])
  have refused : viewerModules.all (fun compiled => compiled.exports.all isIdentifier) =
      false := by
    decide +kernel
  rw [List.all_eq_false] at refused
  obtain ⟨compiled, member, bad⟩ := refused
  exact bad (List.all_eq_true.mpr (all compiled member).2.2)

end Session

end PageCompiler
