import Mathlib.Data.List.Basic
import PageCompiler.Name.Basic
import PageCompiler.Proofs.Path.Components
import PageCompiler.Proofs.Text.Cutting

/-! # The grammar of module names

A module name is two or more words of letters, digits, `_` and `$`, joined by single dots. Reading a
text accepts exactly such names with white space around them, and what it reads are the words. Every
other text is refused for the first rule that it breaks.
-/

namespace PageCompiler

/-! ## Words -/

/-- A letter or a digit of ASCII, `_` or `$`. -/
def IsWordChar (c : Char) : Prop :=
  'A' ≤ c ∧ c ≤ 'Z' ∨ 'a' ≤ c ∧ c ≤ 'z' ∨ '0' ≤ c ∧ c ≤ '9' ∨ c = '_' ∨ c = '$'

structure IsWord (text : Text) : Prop where
  nonempty : text ≠ []
  chars : ∀ c ∈ text, IsWordChar c

theorem isSegmentChar_iff {c : Char} : isSegmentChar c = true ↔ IsWordChar c := by
  delta isSegmentChar IsWordChar Char.isAlphanum Char.isAlpha Char.isUpper Char.isLower Char.isDigit
  simp only [Bool.or_eq_true, Bool.and_eq_true, decide_eq_true_eq, beq_iff_eq, Char.le_def,
    ge_iff_le, or_assoc]

theorem isNameSegment_iff {text : Text} : isNameSegment text = true ↔ IsWord text := by
  simp only [isNameSegment, Bool.and_eq_true, List.all_eq_true, isSegmentChar_iff]
  constructor
  · rintro ⟨filled, chars⟩
    exact ⟨by simpa using filled, chars⟩
  · rintro ⟨nonempty, chars⟩
    exact ⟨by simpa using nonempty, chars⟩

/-- The characters of words are visible characters of ASCII. -/
theorem IsWordChar.range {c : Char} (inWord : IsWordChar c) : 0x24 ≤ c.toNat ∧ c.toNat ≤ 0x7A := by
  simp only [IsWordChar, Char.le_def, UInt32.le_iff_toNat_le] at inWord
  rcases inWord with capital | small | digit | rfl | rfl
  · change 65 ≤ c.toNat ∧ c.toNat ≤ 90 at capital
    omega
  · change 97 ≤ c.toNat ∧ c.toNat ≤ 122 at small
    omega
  · change 48 ≤ c.toNat ∧ c.toNat ≤ 57 at digit
    omega
  · decide
  · decide

theorem IsWordChar.ne_dot {c : Char} (inWord : IsWordChar c) : c ≠ '.' := by
  rintro rfl
  rw [← isSegmentChar_iff] at inWord
  cases inWord

theorem IsWord.dot_not_mem {text : Text} (word : IsWord text) : '.' ∉ text :=
  fun inside => (word.chars '.' inside).ne_dot rfl

/-! ## Names -/

/-- The text is two or more words, joined by single dots. -/
structure IsDotted (words : List Text) (text : Text) : Prop where
  several : 2 ≤ words.length
  each : ∀ word ∈ words, IsWord word
  joined : text = Text.join ['.'] words

/-- The first rule that a text without white space around it breaks. -/
inductive Refuses : Text → NameError → Prop where
  | empty : Refuses [] .empty
  | missingNamespace {text : Text} (nonempty : text ≠ []) (undotted : '.' ∉ text) :
      Refuses text (.missingNamespace text)
  | invalidSegment {text segment : Text} {before after : List Text}
      (split : text.splitOn '.' = before ++ segment :: after) (dotted : before ++ after ≠ [])
      (words : ∀ piece ∈ before, IsWord piece) (invalid : ¬ IsWord segment) :
      Refuses text (.invalidSegment text segment)

namespace ModuleName

theorem isWord_of_mem_segments {name : ModuleName} {segment : Text}
    (member : segment ∈ name.segments) : IsWord segment :=
  isNameSegment_iff.mp (name.segments_valid segment member)

theorem dot_not_mem {name : ModuleName} {segment : Text} (member : segment ∈ name.segments) :
    '.' ∉ segment :=
  (isWord_of_mem_segments member).dot_not_mem

theorem splitOn_qualified (name : ModuleName) : name.qualified.splitOn '.' = name.segments :=
  List.splitOn_intercalate '.' (fun _ => dot_not_mem) (List.concat_ne_nil _ _)

theorem segments_injective : Function.Injective segments := by
  intro first second same
  -- The identifier is the last segment, and the qualifier is all the others.
  obtain ⟨qualifier, identifier⟩ := List.append_inj' same rfl
  cases first
  cases second
  cases qualifier
  cases identifier
  rfl

theorem qualified_injective : Function.Injective qualified := by
  intro first second same
  apply segments_injective
  rw [← splitOn_qualified, ← splitOn_qualified, same]

theorem isDotted_qualified (name : ModuleName) : IsDotted name.segments name.qualified := by
  refine ⟨?_, fun _ => isWord_of_mem_segments, rfl⟩
  have outer := List.length_pos_iff.mpr name.qualifier_ne_nil
  simp only [segments, List.length_append, List.length_singleton]
  omega

end ModuleName

/-- The words of a dotted text are what stands between its dots. -/
theorem IsDotted.splitOn_eq {words : List Text} {text : Text} (dotted : IsDotted words text) :
    text.splitOn '.' = words := by
  have nonempty : words ≠ [] := by
    rintro rfl
    exact absurd dotted.several (by decide)
  rw [dotted.joined]
  exact List.splitOn_intercalate '.' (fun word member => (dotted.each word member).dot_not_mem)
    nonempty

theorem splitOn_eq_singleton_iff {text piece : Text} :
    text.splitOn '.' = [piece] ↔ piece = text ∧ '.' ∉ text := by
  constructor
  · intro single
    have joined : Text.join ['.'] (text.splitOn '.') = text := List.intercalate_splitOn '.'
    obtain rfl : piece = text := by simpa [single, Text.join] using joined
    exact ⟨rfl, Path.not_mem_of_mem_splitOn (single ▸ List.mem_singleton_self piece)⟩
  · rintro ⟨rfl, undotted⟩
    exact List.splitOn_eq_singleton undotted

/-- A text is refused for one rule only. -/
theorem Refuses.unique {text : Text} {error errorToo : NameError} (refuses : Refuses text error)
    (refusesToo : Refuses text errorToo) : error = errorToo := by
  -- A text without dots is one piece, and one piece is not an invalid segment among others.
  have single {segment : Text} {before after : List Text} (undotted : '.' ∉ text)
      (split : text.splitOn '.' = before ++ segment :: after) : before ++ after = [] := by
    rw [List.splitOn_eq_singleton undotted] at split
    have lengths := congrArg List.length split
    simp only [List.length_append, List.length_cons, List.length_nil] at lengths
    apply List.eq_nil_of_length_eq_zero
    rw [List.length_append]
    omega
  have first {segment : Text} {before after : List Text}
      (split : text.splitOn '.' = before ++ segment :: after)
      (words : ∀ piece ∈ before, IsWord piece) (invalid : ¬ IsWord segment) :
      (text.splitOn '.').find? (fun piece => !isNameSegment piece) = some segment := by
    rw [List.find?_eq_some_iff_append]
    refine ⟨by simpa [← isNameSegment_iff] using invalid, before, after, split, ?_⟩
    intro piece member
    simpa [isNameSegment_iff] using words piece member
  cases refuses with
  | empty =>
    cases refusesToo with
    | empty => rfl
    | missingNamespace nonempty _ => exact absurd rfl nonempty
    | invalidSegment split dotted _ _ => exact absurd (single List.not_mem_nil split) dotted
  | missingNamespace nonempty undotted =>
    cases refusesToo with
    | empty => exact absurd rfl nonempty
    | missingNamespace _ _ => rfl
    | invalidSegment split dotted _ _ => exact absurd (single undotted split) dotted
  | invalidSegment split dotted words invalid =>
    cases refusesToo with
    | empty => exact absurd (single List.not_mem_nil split) dotted
    | missingNamespace _ undotted => exact absurd (single undotted split) dotted
    | invalidSegment splitToo _ wordsToo invalidToo =>
      have same := (first split words invalid).symm.trans (first splitToo wordsToo invalidToo)
      rw [Option.some.inj same]

theorem Refuses.not_isDotted {text : Text} {error : NameError} (refuses : Refuses text error)
    (words : List Text) : ¬ IsDotted words text := by
  intro dotted
  have pieces := dotted.splitOn_eq
  have several := dotted.several
  cases refuses with
  | empty =>
    rw [← pieces] at several
    exact absurd several (by decide)
  | missingNamespace _ undotted =>
    rw [← pieces, List.splitOn_eq_singleton undotted] at several
    exact absurd several (by simp)
  | invalidSegment split _ _ invalid =>
    exact invalid (dotted.each _ (by rw [← pieces, split]; simp))

/-! ## Reading -/

namespace ModuleName

/-- What is left without the white space around a text is refused, or it is read as its words. -/
theorem parse_cases (text : Text) :
    (∃ error, parse text = .error error ∧ Refuses (Text.trim text) error) ∨
      ∃ name, parse text = .ok name ∧ IsDotted name.segments (Text.trim text) := by
  rw [parse]
  dsimp only
  split
  · next empty =>
    rw [List.isEmpty_iff] at empty
    exact .inl ⟨_, rfl, empty ▸ .empty⟩
  · next filled =>
    rw [List.isEmpty_iff] at filled
    split
    · next first second others pieces =>
      -- All pieces are looked through, the identifier last.
      have whole := List.dropLast_concat_getLast (List.cons_ne_nil first (second :: others))
      split
      · next segment invalid =>
        rw [whole, List.find?_eq_some_iff_append] at invalid
        obtain ⟨wrong, before, after, split, right⟩ := invalid
        refine .inl ⟨_, rfl, .invalidSegment (pieces.trans split) ?_ (fun piece member => ?_) ?_⟩
        · intro alone
          rw [List.append_eq_nil_iff] at alone
          simp [alone.1, alone.2] at split
        · simpa [isNameSegment_iff] using right piece member
        · simpa [← isNameSegment_iff] using wrong
      · next valid =>
        refine .inr ⟨_, rfl, ?_⟩
        have segments : (first :: second :: others).dropLast ++
            [(first :: second :: others).getLast (by simp)] = (Text.trim text).splitOn '.' :=
          whole.trans pieces.symm
        refine ⟨?_, fun word member => ?_, ?_⟩
        · simp [ModuleName.segments]
        · exact isWord_of_mem_segments member
        · rw [ModuleName.segments, segments]
          exact (List.intercalate_splitOn '.').symm
    · next several =>
      refine .inl ⟨_, rfl, .missingNamespace filled ?_⟩
      obtain ⟨piece, others, pieces⟩ :=
        List.exists_cons_of_ne_nil (List.splitOn_ne_nil '.' (Text.trim text))
      cases others with
      | nil => exact (splitOn_eq_singleton_iff.mp pieces).2
      | cons second others => exact absurd pieces (several piece second others)

theorem parse_eq_error_iff {text : Text} {error : NameError} :
    parse text = .error error ↔ Refuses (Text.trim text) error := by
  constructor
  · intro refused
    rcases parse_cases text with ⟨errorToo, refusedToo, refuses⟩ | ⟨name, read, -⟩
    · rw [refused, Except.error.injEq] at refusedToo
      exact refusedToo ▸ refuses
    · rw [refused] at read
      cases read
  · intro refuses
    rcases parse_cases text with ⟨errorToo, refused, refusesToo⟩ | ⟨name, -, dotted⟩
    · rw [refused, refuses.unique refusesToo]
    · exact absurd dotted (refuses.not_isDotted _)

theorem parse_eq_ok_iff {text : Text} {name : ModuleName} :
    parse text = .ok name ↔ IsDotted name.segments (Text.trim text) := by
  constructor
  · intro read
    rcases parse_cases text with ⟨error, refused, -⟩ | ⟨nameToo, readToo, dotted⟩
    · rw [read] at refused
      cases refused
    · rw [read, Except.ok.injEq] at readToo
      exact readToo ▸ dotted
  · intro dotted
    rcases parse_cases text with ⟨error, -, refuses⟩ | ⟨nameToo, read, dottedToo⟩
    · exact absurd dotted (refuses.not_isDotted _)
    · have segments : nameToo.segments = name.segments := by
        rw [← dottedToo.splitOn_eq, dotted.splitOn_eq]
      rw [read, segments_injective segments]

/-- There is no white space in a name. -/
theorem trim_qualified (name : ModuleName) : Text.trim name.qualified = name.qualified := by
  have visible : ∀ c ∈ name.qualified, Text.isSpace c = false := by
    intro c member
    have range : 0x24 ≤ c.toNat ∧ c.toNat ≤ 0x7A := by
      rcases Text.mem_join member with rfl | ⟨segment, among, inside⟩
      · decide
      · exact ((isWord_of_mem_segments among).chars c inside).range
    simp only [Text.isSpace, Text.inRanges, Text.spaceRanges, List.any_cons, List.any_nil,
      Bool.or_false, Bool.or_eq_false_iff, Bool.and_eq_false_iff, decide_eq_false_iff_not]
    omega
  rw [Text.trim_eq_iff]
  refine ⟨[], name.qualified, rfl, by simp, fun c first => ?_, [], by simp, by simp, ?_⟩
  · exact visible c (List.mem_of_mem_head? first)
  · exact fun c last => visible c (List.mem_of_getLast? last)

/-- A name is read again from the text that it is written as. -/
theorem parse_qualified (name : ModuleName) : parse name.qualified = .ok name := by
  rw [parse_eq_ok_iff, trim_qualified]
  exact isDotted_qualified name

end ModuleName

end PageCompiler
