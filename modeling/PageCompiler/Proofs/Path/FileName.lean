import Mathlib.Data.List.Induction
import PageCompiler.Path.Basic

/-! # File names

The file name of a path is what stands behind its last slash, unless nothing or only dots stand
there. A file beside a path has a text that ends in the file name and the suffix, wherever the path
lies.
-/

namespace PageCompiler.Path

/-- A text is cut behind its last slash. -/
theorem exists_name (text : Text) :
    ∃ front name : Text, text = front ++ name ∧ '/' ∉ name ∧
      (front = [] ∨ ∃ rest, front = rest ++ ['/']) := by
  induction text using List.reverseRecOn with
  | nil => exact ⟨[], [], rfl, List.not_mem_nil, .inl rfl⟩
  | append_singleton text c inductionHypothesis =>
    by_cases slash : c = '/'
    · exact ⟨text ++ [c], [], by simp, List.not_mem_nil, .inr ⟨text, by rw [slash]⟩⟩
    · obtain ⟨front, name, rfl, whole, starts⟩ := inductionHypothesis
      refine ⟨front, name ++ [c], List.append_assoc _ _ _, ?_, starts⟩
      simp [whole, Ne.symm slash]

/-- A piece that counts and stands behind the last slash is the last component. -/
theorem getLast?_components {path : Path} {front piece : Text} {component : Component}
    (cut : path.text = front ++ piece) (whole : '/' ∉ piece)
    (starts : front = [] ∨ ∃ rest, front = rest ++ ['/'])
    (counts : Component.ofPiece? piece = some component) :
    path.components.getLast? = some component := by
  have notDot : piece ≠ ['.'] := by
    rintro rfl
    cases counts
  rw [components, cut]
  rcases starts with rfl | ⟨rest, rfl⟩
  · rw [List.nil_append, List.splitOn_eq_singleton whole]
    split <;> simp [counts, notDot]
  · rw [List.append_assoc, List.singleton_append, List.splitOn_append_cons_self,
      List.splitOn_eq_singleton whole]
    obtain ⟨first, others, pieces⟩ := List.exists_cons_of_ne_nil (List.splitOn_ne_nil '/' rest)
    rw [pieces]
    split
    · rw [List.filterMap_append, List.filterMap_cons_some counts, List.filterMap_nil,
        ← List.cons_append, List.getLast?_concat]
    · simp [counts]

/-- A piece that counts as a name and stands behind the last slash is the file name. -/
theorem fileName?_eq_some {path : Path} {front name : Text} (cut : path.text = front ++ name)
    (whole : '/' ∉ name) (starts : front = [] ∨ ∃ rest, front = rest ++ ['/'])
    (counts : Component.ofPiece? name = some (.normal name)) : path.fileName? = some name := by
  rw [fileName?, getLast?_components cut whole starts counts]

/-- A path that ends in an extension has a file name that ends in it. -/
theorem exists_fileName? {path : Path} {extension : Text} (ends : '.' :: extension <:+ path.text)
    (inside : '/' ∉ extension) (nonempty : extension ≠ []) (named : extension ≠ ['.']) :
    ∃ name, path.fileName? = some name ∧ '.' :: extension <:+ name := by
  obtain ⟨front, name, cut, whole, starts⟩ := exists_name path.text
  have behind : '.' :: extension <:+ name := by
    rw [cut] at ends
    rcases starts with rfl | ⟨rest, rfl⟩
    · exact ends
    · -- The last slash is not in the extension, so the extension does not reach back to it.
      have slash : '/' :: name <:+ rest ++ ['/'] ++ name := ⟨rest, by simp⟩
      rcases List.suffix_or_suffix_of_suffix ends slash with inName | inExtension
      · rw [List.suffix_cons_iff, List.cons.injEq] at inName
        exact inName.resolve_left fun same => absurd same.1 (by decide)
      · have member := inExtension.subset List.mem_cons_self
        simp [inside] at member
  refine ⟨name, fileName?_eq_some cut whole starts ?_, behind⟩
  rw [Component.ofPiece?, if_neg, if_neg]
  · rintro rfl
    refine named (List.cons.inj (behind.eq_of_length_le ?_)).2
    simpa [Nat.succ_le_iff, List.length_pos_iff] using nonempty
  · have longer := behind.length_le
    have := List.length_pos_iff.mpr nonempty
    rintro (rfl | rfl) <;> simp_all

/-! ## Files beside a path -/

theorem suffix_join (base path : Path) : path.text <:+ (base.join path).text := by
  rw [join]
  split
  · exact List.suffix_rfl
  · split
    · exact List.suffix_append _ _
    · exact (List.suffix_cons '/' path.text).trans (List.suffix_append _ _)

/-- What stands behind the last slash of a path stands there in a joined path, too. -/
theorem exists_cut_join (base : Path) {path : Path} {front name : Text}
    (cut : path.text = front ++ name) (starts : front = [] ∨ ∃ rest, front = rest ++ ['/']) :
    ∃ front, (base.join path).text = front ++ name ∧
      (front = [] ∨ ∃ rest, front = rest ++ ['/']) := by
  have behind {between : Text} (ends : between = [] ∨ ∃ rest, between = rest ++ ['/']) :
      between ++ front = [] ∨ ∃ rest, between ++ front = rest ++ ['/'] := by
    rcases starts with rfl | ⟨rest, rfl⟩
    · simpa using ends
    · exact .inr ⟨between ++ rest, by simp⟩
  rw [join]
  split
  · exact ⟨front, cut, starts⟩
  · split
    · next ends =>
      refine ⟨base.text ++ front, by simp [cut], behind ?_⟩
      simpa [List.getLast?_eq_some_iff] using ends
    · exact ⟨base.text ++ ['/'] ++ front, by simp [cut], behind (.inr ⟨_, rfl⟩)⟩

theorem suffix_sibling {path : Path} {name : Text} (named : path.fileName? = some name)
    (suffix : Text) : name ++ suffix <:+ (path.sibling suffix).text := by
  rw [sibling, withFileName, named]
  split
  · exact suffix_join _ ⟨_⟩
  · exact suffix_join _ ⟨_⟩

end PageCompiler.Path
