import PageCompiler.Proofs.Name.Grammar
import PageCompiler.Proofs.Name.RelativePath
import PageCompiler.Proofs.Resolution.Candidates

/-! # Files below their root

The path at which a module or its stylesheet is looked for under a root consists of the components
of the root, the namespaces of the module if the layout is nested, and one file name. No part of a
module name can lead out of the root, and no two names lead to one file.
-/

namespace PageCompiler

namespace Path

/-- The components that paths below a directory begin with; a single `.` is left out. -/
def frontComponents (directory : Path) : List Component :=
  if directory = ⟨['.']⟩ then [] else directory.components

theorem frontComponents_eq {directory : Path} (normal : directory.normalize = directory) :
    directory.frontComponents = directory.normalComponents := by
  have parts := components_normalize directory
  rw [normal] at parts
  rw [frontComponents, parts]
  by_cases nothing : directory.normalComponents = []
  · have dot : directory = ⟨['.']⟩ := by
      rw [← normal, normalize, nothing]
    rw [if_pos dot, nothing]
  · have filled : directory ≠ ⟨['.']⟩ := by
      rintro rfl
      exact nothing rfl
    rw [if_neg filled, if_neg nothing]

/-- Names that are joined to a path stay behind what is left of it. -/
theorem normalComponents_join_names (base : Path) {names : List Text}
    (proper : ∀ name ∈ names, IsFileName name) (nonempty : names ≠ []) :
    (base.join ⟨Text.join ['/'] names⟩).normalComponents =
      base.normalComponents ++ names.map .normal := by
  have relative := not_isAbsolute_join_names proper nonempty
  rw [normalComponents, foldl_components_join relative, components_join_names proper,
    foldl_pushNormal_names, List.reverse_append, List.reverse_reverse, normalComponents]

end Path

namespace NamePolicy

/-- The names of a module's file tell which module it is. -/
theorem relativeNames_injective (policy : NamePolicy) :
    Function.Injective policy.relativeNames := by
  intro name other same
  rw [relativeNames, relativeNames] at same
  cases layout : policy.layout with
  | nested =>
    simp only [layout] at same
    obtain ⟨qualifiers, files⟩ := List.append_inj' same rfl
    have identifiers : name.identifier = other.identifier := by simpa using files
    apply ModuleName.segments_injective
    rw [ModuleName.segments, ModuleName.segments, qualifiers, identifiers]
  | flat =>
    simp only [layout] at same
    exact ModuleName.qualified_injective (by simpa using same)

theorem components_candidate {policy : NamePolicy} (slash : '/' ∉ policy.extension) {root : Path}
    (normal : root.normalize = root) (name : ModuleName) :
    (candidate (policy.relativePath name) root).components =
      root.frontComponents ++ (policy.relativeNames name).map .normal := by
  have proper := isFileName_of_mem_relativeNames slash name
  have nonempty := policy.relativeNames_ne_nil name
  rw [candidate, relativePath_eq, Path.components_normalize,
    Path.normalComponents_join_names root proper nonempty, if_neg (by simp [nonempty]),
    Path.frontComponents_eq normal]

/-- Under every root the search stays below that root. -/
theorem exists_root_of_mem_candidates {policy : NamePolicy} (slash : '/' ∉ policy.extension)
    {roots : List Path} (normal : ∀ root ∈ roots, root.normalize = root) {name : ModuleName}
    {path : Path} (tried : path ∈ roots.map (candidate (policy.relativePath name))) :
    ∃ root ∈ roots, ∃ names : List Text, names ≠ [] ∧
      path.components = root.frontComponents ++ names.map .normal := by
  obtain ⟨root, member, rfl⟩ := List.mem_map.mp tried
  exact ⟨root, member, _, policy.relativeNames_ne_nil name,
    components_candidate slash (normal root member) name⟩

end NamePolicy

namespace Resolver

theorem normal_roots_make (roots : List Path) (policy : NamePolicy) (exclusions : List Text) :
    ∀ root ∈ (make roots policy exclusions).roots, root.normalize = root := by
  intro root member
  obtain ⟨written, -, rfl⟩ := List.mem_map.mp member
  exact Path.normalize_normalize written

/-- Modules and their stylesheets are looked for below the roots only, and different modules at
different places. -/
theorem candidates_below_roots {resolver : Resolver} (slash : '/' ∉ resolver.policy.extension)
    (normal : ∀ root ∈ resolver.roots, root.normalize = root) :
    (∀ root ∈ resolver.roots, ∀ name,
      (candidate (resolver.policy.relativePath name) root).components =
        root.frontComponents ++ (resolver.policy.relativeNames name).map .normal) ∧
      (∀ root ∈ resolver.roots, ∀ name other,
        (candidate (resolver.policy.relativePath name) root).same
          (candidate (resolver.policy.relativePath other) root) = true → name = other) ∧
      ∀ importer name, ∀ directive ∈ [Directive.importModule name, .includeStylesheet name],
        ∀ path ∈ resolver.candidates importer directive, ∃ root ∈ resolver.roots,
          ∃ names : List Text, names ≠ [] ∧
            path.components = root.frontComponents ++ names.map .normal := by
  refine ⟨fun root member name => ?_, fun root member name other same => ?_,
    fun importer name directive among path listed => ?_⟩
  · exact NamePolicy.components_candidate slash (normal root member) name
  · rw [Path.same, beq_iff_eq, NamePolicy.components_candidate slash (normal root member),
      NamePolicy.components_candidate slash (normal root member),
      List.append_cancel_left_eq] at same
    apply resolver.policy.relativeNames_injective
    exact List.map_injective_iff.mpr (fun _ _ => Path.Component.normal.inj) same
  · simp only [List.mem_cons, List.not_mem_nil, or_false] at among
    rcases among with rfl | rfl
    · exact NamePolicy.exists_root_of_mem_candidates slash normal listed
    · -- Stylesheets have an extension of their own.
      have css : '/' ∉ ({ resolver.policy with extension := "css".toList } : NamePolicy).extension :=
        show '/' ∉ "css".toList by decide
      exact NamePolicy.exists_root_of_mem_candidates css normal listed

def dial : ModuleName := ⟨["app".toList, "ui".toList], "Dial".toList, nofun, by decide⟩

/-- A root above the start, with an extension of dots. -/
def neighbour : Resolver :=
  make [.ofString "./kit/../../lib/"] ⟨.exact, .nested, "..".toList⟩ []

theorem candidates_below_roots_neighbour :
    '/' ∉ neighbour.policy.extension ∧ (∀ root ∈ neighbour.roots, root.normalize = root) ∧
      neighbour.roots = [.ofString "../lib"] ∧
      (candidate (neighbour.policy.relativePath dial) (.ofString "../lib")).components =
        [.parent, .normal "lib".toList, .normal "app".toList, .normal "ui".toList,
          .normal "Dial...".toList] := by
  have slash : '/' ∉ neighbour.policy.extension := by decide
  have normal : ∀ root ∈ neighbour.roots, root.normalize = root := normal_roots_make _ _ _
  have roots : neighbour.roots = [.ofString "../lib"] := by decide +kernel
  refine ⟨slash, normal, roots, ?_⟩
  rw [(candidates_below_roots slash normal).1 _ (by simp [roots]) dial]
  decide +kernel

end Resolver

end PageCompiler
