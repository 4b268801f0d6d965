import Mathlib.Data.List.Forall2
import PageCompiler.Proofs.Artifact.Preservation
import PageCompiler.Proofs.Path.FileName

/-! # Artifacts do not get in each other's way

Whatever the output path, the stem and the entry file are called, the keys that writing the
artifacts of a document uses are all different: each one ends in the extension of its artifact and,
if it is not the artifact itself, in the suffix of a temporary file or of a backup, and none of these
endings is the end of another one.
-/

namespace PageCompiler

open PageCompiler.Tree (keyOf)

/-! ## Endings of keys -/

theorem Path.dropEndSlashes_eq_self {text : Text} {c : Char} (last : text.getLast? = some c)
    (kept : c ≠ '/') : dropEndSlashes text = text := by
  obtain ⟨front, rfl⟩ := List.getLast?_eq_some_iff.mp last
  simp [dropEndSlashes, kept]

/-- A key ends as the text of its path does. -/
theorem suffix_keyOf {path : Path} {ending : Text} (ends : ending <:+ path.text)
    (nonempty : ending ≠ []) (plain : '\\' ∉ ending) (whole : '/' ∉ ending) :
    ending <:+ keyOf path := by
  obtain ⟨front, split⟩ := ends
  have unchanged : ending.map (fun c => if c = '\\' then '/' else c) = ending := by
    refine (List.map_congr_left fun c member => if_neg ?_).trans (List.map_id ending)
    rintro rfl
    exact plain member
  obtain ⟨before, last, rfl⟩ := List.eq_nil_or_concat' ending |>.resolve_left nonempty
  rw [keyOf, ← split, List.map_append, unchanged, Path.dropEndSlashes_eq_self (c := last)]
  · exact List.suffix_append _ _
  · simp
  · rintro rfl
    simp at whole

/-- Texts are different if each one has its own ending and no ending is the end of another one. -/
theorem nodup_of_endings {endings keys : List Text}
    (ends : List.Forall₂ (fun ending key => ending <:+ key) endings keys)
    (apart : endings.Pairwise fun first second => ¬ first <:+ second ∧ ¬ second <:+ first) :
    keys.Nodup := by
  induction ends with
  | nil => exact List.nodup_nil
  | @cons ending key endings keys here others inductionHypothesis =>
    rw [List.pairwise_cons] at apart
    refine List.nodup_cons.mpr ⟨fun repeated => ?_, inductionHypothesis apart.2⟩
    obtain ⟨position, found⟩ := List.mem_iff_get.mp repeated
    have matched : position.val < endings.length := by
      rw [others.length_eq]
      exact position.isLt
    have there : endings.get ⟨position, matched⟩ <:+ key := by
      rw [← found]
      exact others.get matched position.isLt
    obtain ⟨notHere, notThere⟩ := apart.1 _ (endings.get_mem ⟨position, matched⟩)
    exact (List.suffix_or_suffix_of_suffix here there).elim notHere notThere

/-! ## Artifacts -/

/-- What the keys end in that writing an artifact with the extension uses. -/
def keyEndings (extension : Text) : List Text :=
  ['.' :: extension, '.' :: extension ++ ".weave-tmp".toList,
    '.' :: extension ++ ".weave-bak".toList]

theorem suffix_pathFor (plan : EmitPlan) (extension : Text) :
    '.' :: extension <:+ (plan.pathFor extension).text :=
  (List.suffix_append plan.layout.2 _).trans (Path.suffix_join plan.layout.1 ⟨_⟩)

theorem forall₂_keyEndings (plan : EmitPlan) {extension : Text} (nonempty : extension ≠ [])
    (plain : '\\' ∉ extension) (whole : '/' ∉ extension) (named : extension ≠ ['.']) :
    List.Forall₂ (fun ending key => ending <:+ key) (keyEndings extension)
      (pathKeys (plan.pathFor extension)) := by
  have ends := suffix_pathFor plan extension
  obtain ⟨name, isName, inName⟩ := Path.exists_fileName? ends whole nonempty named
  have beside (suffix : Text) (plainToo : '\\' ∉ suffix) (wholeToo : '/' ∉ suffix) :
      '.' :: extension ++ suffix <:+ keyOf ((plan.pathFor extension).sibling suffix) := by
    refine suffix_keyOf (.trans ?_ (Path.suffix_sibling isName suffix)) (by simp) ?_ ?_
    · obtain ⟨stem, rfl⟩ := inName
      exact ⟨stem, by simp⟩
    · simp [plain, plainToo]
    · simp [whole, wholeToo]
  refine .cons (suffix_keyOf ends (by simp) ?_ ?_)
    (.cons (beside _ (by decide) (by decide)) (.cons (beside _ (by decide) (by decide)) .nil))
  · simp [plain]
  · simp [whole]

/-- The extensions of the artifacts, in their order. -/
def OutputMode.extensions : OutputMode → List Text
  | .singleFile => ["html".toList]
  | .split => ["html".toList, "css".toList, "js".toList]

theorem map_path_serialize (mode : OutputMode) (plan : EmitPlan) (document : Document) :
    (serialize mode plan document).map Artifact.path = mode.extensions.map plan.pathFor := by
  cases mode <;> rfl

/-- Neither an artifact nor a temporary file nor a backup is where another one of them is. -/
theorem nodup_storedKeys_serialize (mode : OutputMode) (plan : EmitPlan) (document : Document) :
    (storedKeys ((serialize mode plan document).map Artifact.path)).Nodup := by
  rw [map_path_serialize, storedKeys_eq_flatMap, List.flatMap_map]
  refine @nodup_of_endings (mode.extensions.flatMap keyEndings) _ ?_ ?_
  · have proper : ∀ extension ∈ mode.extensions, extension ≠ [] ∧ '\\' ∉ extension ∧
        '/' ∉ extension ∧ extension ≠ ['.'] := by
      cases mode <;> decide
    generalize mode.extensions = extensions at proper
    induction extensions with
    | nil => exact .nil
    | cons extension others inductionHypothesis =>
      obtain ⟨nonempty, plain, whole, named⟩ := proper extension List.mem_cons_self
      rw [List.flatMap_cons, List.flatMap_cons]
      exact List.rel_append (forall₂_keyEndings plan nonempty plain whole named)
        (inductionHypothesis fun other member => proper other (List.mem_cons_of_mem _ member))
  · cases mode <;> decide

end PageCompiler
