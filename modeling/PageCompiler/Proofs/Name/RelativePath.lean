import PageCompiler.Name.Policy
import PageCompiler.Proofs.Path.Below
import PageCompiler.Proofs.Text.LetterCase

/-! # The names of a module's file

The path of a module's file below a root consists of one name for each directory and one for the
file. None of them is empty or a dot or two, and none holds a slash, as long as the extension holds
none. A name that differs from such a name in letter case only is one itself.
-/

namespace PageCompiler

open PageCompiler.Path (IsFileName)

/-! ## Entry names -/

/-- A name that stands for itself on disk and in memory. -/
structure IsEntryName (name : Text) : Prop where
  isFileName : IsFileName name
  plain : '\\' ∉ name

/-- Names that differ in letter case only are entry names alike. -/
theorem IsEntryName.of_agrees {name entry : Text} (proper : IsEntryName name)
    (agrees : Text.lowercase entry = Text.lowercase name) : IsEntryName entry := by
  obtain ⟨filled, notDot, notDots, whole⟩ := Path.isFileName_iff.mp proper.isFileName
  have kept {text : Text} (differs : name ≠ text) (plain : ∀ c ∈ text, Text.IsPlain c) :
      entry ≠ text := by
    rintro rfl
    -- Such a text is its own lowercase, so the wanted name would be the same text.
    have same : Text.lowercase entry = entry :=
      Text.lowercase_eq_self_of_plain (by rwa [Text.lowercase_of_plain plain])
    rw [same] at agrees
    apply differs
    have unchanged : Text.lowercase name = name :=
      Text.lowercase_eq_self_of_plain (by rwa [← agrees])
    rw [← unchanged, agrees]
  have missing {c : Char} (plain : Text.IsPlain c) (outside : c ∉ name) : c ∉ entry := by
    rwa [← Text.mem_lowercase_iff plain, agrees, Text.mem_lowercase_iff plain]
  refine ⟨Path.isFileName_iff.mpr ⟨?_, ?_, ?_, ?_⟩, missing Text.isPlain_backslash proper.plain⟩
  · exact kept filled (by simp)
  · exact kept notDot (by simpa using Text.isPlain_dot)
  · exact kept notDots (by simpa using Text.isPlain_dot)
  · exact missing Text.isPlain_slash whole

/-! ## Relative paths -/

namespace NamePolicy

/-- The names that the path of a module's file consists of. -/
def relativeNames (policy : NamePolicy) (name : ModuleName) : List Text :=
  match policy.layout with
  | .nested => name.qualifier ++ [name.identifier ++ '.' :: policy.extension]
  | .flat => [name.qualified ++ '.' :: policy.extension]

theorem relativePath_eq (policy : NamePolicy) (name : ModuleName) :
    policy.relativePath name = ⟨Text.join ['/'] (policy.relativeNames name)⟩ := by
  rw [relativePath, relativeNames]
  cases policy.layout with
  | nested => rfl
  | flat => simp [Text.join]

theorem relativeNames_ne_nil (policy : NamePolicy) (name : ModuleName) :
    policy.relativeNames name ≠ [] := by
  rw [relativeNames]
  cases policy.layout <;> simp

theorem not_mem_segment {segment : Text} (valid : isNameSegment segment = true) {c : Char}
    (other : isSegmentChar c = false) : c ∉ segment := by
  simp only [isNameSegment, Bool.and_eq_true, List.all_eq_true] at valid
  intro inside
  simp [valid.2 c inside] at other

theorem isEntryName_segment {segment : Text} (valid : isNameSegment segment = true) :
    IsEntryName segment := by
  have dot : '.' ∉ segment := not_mem_segment valid (by decide)
  refine ⟨Path.isFileName_iff.mpr ⟨?_, ?_, ?_, not_mem_segment valid (by decide)⟩,
    not_mem_segment valid (by decide)⟩
  · rintro rfl
    simp [isNameSegment] at valid
  · rintro rfl
    simp at dot
  · rintro rfl
    simp at dot

/-- A segment starts with a character, and not with a dot. -/
theorem exists_cons_segment {segment : Text} (valid : isNameSegment segment = true) :
    ∃ c rest, segment = c :: rest ∧ c ≠ '.' := by
  have dot : '.' ∉ segment := not_mem_segment valid (by decide)
  cases segment with
  | nil => simp [isNameSegment] at valid
  | cons c rest => exact ⟨c, rest, rfl, fun same => dot (by simp [same])⟩

theorem exists_cons_qualified (name : ModuleName) :
    ∃ c rest, name.qualified = c :: rest ∧ c ≠ '.' := by
  obtain ⟨segment, others, split⟩ :=
    List.exists_cons_of_ne_nil (l := name.segments) (by simp [ModuleName.segments])
  have inside : segment ∈ name.segments := split ▸ List.mem_cons_self
  obtain ⟨c, rest, spelled, visible⟩ := exists_cons_segment (name.segments_valid segment inside)
  refine ⟨c, ?_⟩
  cases others <;>
    simp [ModuleName.qualified, split, spelled, Text.join, visible]

theorem not_mem_qualified (name : ModuleName) {c : Char} (other : isSegmentChar c = false)
    (notDot : c ≠ '.') : c ∉ name.qualified := by
  intro inside
  rcases Text.mem_join inside with same | ⟨segment, among, here⟩
  · exact notDot same
  · exact not_mem_segment (name.segments_valid segment among) other here

/-- Behind a visible start an extension makes no name of dots. -/
theorem isFileName_extended {c : Char} {front extension : Text} (starts : c ≠ '.')
    (whole : '/' ∉ c :: front) (slash : '/' ∉ extension) :
    IsFileName (c :: front ++ '.' :: extension) := by
  refine Path.isFileName_iff.mpr ⟨by simp, ?_, ?_, ?_⟩
  · simp [starts]
  · simp [starts]
  · simpa [slash] using whole

theorem not_mem_relativeNames {policy : NamePolicy} {c : Char} (other : isSegmentChar c = false)
    (notDot : c ≠ '.') (outside : c ∉ policy.extension) (name : ModuleName) :
    ∀ wanted ∈ policy.relativeNames name, c ∉ wanted := by
  intro wanted member
  rw [relativeNames] at member
  cases layout : policy.layout with
  | nested =>
    simp only [layout, List.mem_append, List.mem_singleton] at member
    cases member with
    | inl outer =>
      exact not_mem_segment (name.segments_valid wanted (List.mem_append_left _ outer)) other
    | inr last =>
      have inside := not_mem_segment (name.segments_valid name.identifier (by simp)) other
      simp [last, inside, notDot, outside]
  | flat =>
    simp only [layout, List.mem_singleton] at member
    simp [member, not_mem_qualified name other notDot, notDot, outside]

theorem isFileName_of_mem_relativeNames {policy : NamePolicy} (slash : '/' ∉ policy.extension)
    (name : ModuleName) : ∀ wanted ∈ policy.relativeNames name, IsFileName wanted := by
  intro wanted member
  rw [relativeNames] at member
  cases layout : policy.layout with
  | nested =>
    simp only [layout, List.mem_append, List.mem_singleton] at member
    cases member with
    | inl outer =>
      have valid := name.segments_valid wanted (List.mem_append_left _ outer)
      exact (isEntryName_segment valid).isFileName
    | inr last =>
      have valid := name.segments_valid name.identifier (by simp)
      have noSlash : '/' ∉ name.identifier := not_mem_segment valid (by decide)
      obtain ⟨c, rest, split, visible⟩ := exists_cons_segment valid
      rw [split] at last noSlash
      rw [last]
      exact isFileName_extended visible noSlash slash
  | flat =>
    simp only [layout, List.mem_singleton] at member
    have noSlash := not_mem_qualified name (c := '/') (by decide) (by decide)
    obtain ⟨c, rest, split, visible⟩ := exists_cons_qualified name
    rw [split] at member noSlash
    rw [member]
    exact isFileName_extended visible noSlash slash

theorem isEntryName_of_mem_relativeNames {policy : NamePolicy} (slash : '/' ∉ policy.extension)
    (backslash : '\\' ∉ policy.extension) (name : ModuleName) :
    ∀ wanted ∈ policy.relativeNames name, IsEntryName wanted :=
  fun wanted member => ⟨isFileName_of_mem_relativeNames slash name wanted member,
    not_mem_relativeNames (by decide) (by decide) backslash name wanted member⟩

end NamePolicy

end PageCompiler
