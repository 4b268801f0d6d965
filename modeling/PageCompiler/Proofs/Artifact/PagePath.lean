import PageCompiler.Artifact.Plan
import PageCompiler.Proofs.Path.Parent

/-! # Where a page goes

The page of a document lies in the directory that the output path names, under the name of the entry
file. An output path with the extension of a page names the page, but only its directory and its
stem are used: the page has the extension `html` however the output path spells its own.
-/

namespace PageCompiler

/-- The extensions of pages, in any letter case. -/
def IsPageExtension (extension : Text) : Prop :=
  Text.asciiLowercase extension = "html".toList ∨ Text.asciiLowercase extension = "htm".toList

theorem isPagePath_iff {path : Path} :
    isPagePath path = true ↔ ∃ extension, path.extension? = some extension ∧
      IsPageExtension extension := by
  rw [isPagePath, Path.extensionKey]
  cases path.extension? with
  | none => exact iff_of_false (by decide) (by simp)
  | some extension => simp [IsPageExtension]

/-- A path with an extension lies beside the paths with its stem and another extension. -/
theorem EmitPlan.components_pathFor (plan : EmitPlan) {name stem extension : Text}
    (isPage : isPagePath plan.output = true) (named : plan.output.fileName? = some name)
    (cut : Path.splitExtension name = (stem, some extension)) {other : Text} (ends : other ≠ [])
    (inside : '/' ∉ other) :
    (plan.pathFor other).components =
      plan.output.components.dropLast ++ [.normal (stem ++ '.' :: other)] := by
  obtain ⟨parent, lies, components⟩ := Path.exists_parent? named
  obtain ⟨rfl, nonempty, -⟩ := Path.eq_append_of_splitExtension cut
  have whole : '/' ∉ stem := fun member =>
    (Path.isFileName_of_fileName? named).2 (List.mem_append_left _ member)
  have stemmed : plan.output.fileStem? = some stem := by
    rw [Path.fileStem?, named, Option.map_some, cut]
  have layout : plan.layout = (parent, stem) := by
    rw [EmitPlan.layout, if_pos isPage, lies, stemmed]
    rfl
  rw [EmitPlan.pathFor, layout, components, List.dropLast_concat]
  exact Path.components_join_name parent (Path.isFileName_append nonempty ends whole inside)

/-- The single page of a document: an output path with the extension of a page stands for the path
with the same directory and stem and the extension `html`, which is the output path itself if that
is spelled so. Any other output path is the directory of a page with the stem of the entry file. -/
theorem singlePage_path (entry output : Path) (title? : Option Text) (document : Document) :
    ∃ page, serialize .singleFile (.forEntry entry output title?) document = [page] ∧
      ((∃ stem extension, output.fileStem? = some stem ∧ output.extension? = some extension ∧
          IsPageExtension extension ∧
          page.path.components =
            output.components.dropLast ++ [.normal (stem ++ ".html".toList)] ∧
          (page.path.same output = true ↔ extension = "html".toList)) ∨
        (∀ extension, output.extension? = some extension → ¬ IsPageExtension extension) ∧
          page.path =
            output.join ⟨entry.fileStem?.getD "index".toList ++ ".html".toList⟩) := by
  have dotted : ".html".toList = '.' :: "html".toList := by decide
  rw [dotted]
  refine ⟨_, rfl, ?_⟩
  cases isPage : isPagePath output with
  | false =>
    refine .inr ⟨fun extension extended page => ?_, ?_⟩
    · exact Bool.false_ne_true (isPage.symm.trans (isPagePath_iff.mpr ⟨extension, extended, page⟩))
    · simp only [EmitPlan.pathFor, EmitPlan.layout, EmitPlan.forEntry, isPage]
      rfl
  | true =>
    obtain ⟨extension, extended, page⟩ := isPagePath_iff.mp isPage
    obtain ⟨name, named, cut⟩ := Option.bind_eq_some_iff.mp extended
    obtain ⟨stem, split⟩ : ∃ stem, Path.splitExtension name = (stem, some extension) :=
      ⟨_, Prod.ext rfl cut⟩
    have components : ((EmitPlan.forEntry entry output title?).pathFor "html".toList).components =
        output.components.dropLast ++ [.normal (stem ++ '.' :: "html".toList)] :=
      EmitPlan.components_pathFor (.forEntry entry output title?) isPage named split (by decide)
        (by decide)
    refine .inl ⟨stem, extension, ?_, extended, page, components, ?_⟩
    · rw [Path.fileStem?, named, Option.map_some, split]
    · obtain ⟨parent, -, written⟩ := Path.exists_parent? named
      obtain ⟨rfl, -, -⟩ := Path.eq_append_of_splitExtension split
      rw [Path.same, beq_iff_eq, components, written, List.dropLast_concat,
        List.append_cancel_left_eq, List.singleton_inj, Path.Component.normal.injEq,
        List.append_cancel_left_eq, List.cons_inj_right]
      exact eq_comm

/-- The page of an output path that ends in `.htm` is not at that path. -/
theorem singlePage_path_htm :
    IsPageExtension "htm".toList ∧
      (Path.ofString "dist/page.htm").extension? = some "htm".toList ∧
      (serialize .singleFile
          (.forEntry (.ofString "/src/main.js") (.ofString "dist/page.htm") none) .empty).map
        (fun page => page.path.same (.ofString "dist/page.htm")) = [false] := by
  exact ⟨.inr rfl, by decide +kernel, by decide +kernel⟩

end PageCompiler
