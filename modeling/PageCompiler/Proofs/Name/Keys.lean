import Mathlib.Data.List.Forall2
import PageCompiler.Proofs.Name.Grammar
import PageCompiler.Proofs.Text.LetterCase

/-! # Keys of module names

A name can be read off the text that it is written as, so names that are compared as they are
written have one key only if they are the same. The words of a name are ASCII, where making letters
small changes A to Z only and no dots: names that are compared without their case have one key if
they have equally many segments that agree one by one.
-/

namespace PageCompiler

theorem Text.asciiLowercase_join (pieces : List Text) :
    Text.asciiLowercase (Text.join ['.'] pieces) =
      Text.join ['.'] (pieces.map Text.asciiLowercase) := by
  have dot : Text.asciiLower '.' = '.' := rfl
  induction pieces with
  | nil => rfl
  | cons first others inductionHypothesis =>
    cases others with
    | nil => simp [Text.join]
    | cons second others =>
      simp only [Text.join, Text.asciiLowercase, List.map_cons, List.intercalate_cons_cons,
        List.map_append, List.map_nil, dot] at inductionHypothesis ⊢
      rw [inductionHypothesis]

namespace ModuleName

/-- Small letters leave the dots of a name where they are. -/
theorem splitOn_asciiLowercase_qualified (name : ModuleName) :
    (Text.asciiLowercase name.qualified).splitOn '.' = name.segments.map Text.asciiLowercase := by
  rw [qualified, Text.asciiLowercase_join, Text.join]
  refine List.splitOn_intercalate '.' ?_ (by simp [segments])
  intro piece member inPiece
  obtain ⟨segment, among, rfl⟩ := List.mem_map.mp member
  obtain ⟨c, inSegment, lower⟩ := List.mem_map.mp inPiece
  rw [Text.asciiLower_eq_iff Text.isPlain_dot] at lower
  exact dot_not_mem among (lower ▸ inSegment)

/-- One name in two letter cases: equally many segments, which agree one by one. -/
def AgreeIgnoringCase (first second : ModuleName) : Prop :=
  List.Forall₂ (fun segment segmentToo => Text.eqIgnoringAsciiCase segment segmentToo = true)
    first.segments second.segments

theorem agreeIgnoringCase_iff {first second : ModuleName} : first.AgreeIgnoringCase second ↔
    Text.asciiLowercase first.qualified = Text.asciiLowercase second.qualified := by
  have segmentwise : first.AgreeIgnoringCase second ↔
      first.segments.map Text.asciiLowercase = second.segments.map Text.asciiLowercase := by
    rw [← List.forall₂_eq_eq_eq, List.forall₂_map_left_iff, List.forall₂_map_right_iff]
    simp [AgreeIgnoringCase, Text.eqIgnoringAsciiCase]
  rw [segmentwise]
  constructor
  · intro same
    rw [qualified, qualified, Text.asciiLowercase_join, Text.asciiLowercase_join, same]
  · intro same
    rw [← splitOn_asciiLowercase_qualified, ← splitOn_asciiLowercase_qualified, same]

theorem lowercase_qualified (name : ModuleName) :
    Text.lowercase name.qualified = Text.asciiLowercase name.qualified := by
  refine Text.lowercase_of_ascii fun c member => ?_
  rcases Text.mem_join member with rfl | ⟨segment, among, inside⟩
  · decide
  · have range := ((isWord_of_mem_segments among).chars c inside).range
    omega

theorem key_exact_eq_iff {first second : ModuleName} :
    first.key .exact = second.key .exact ↔ first = second :=
  qualified_injective.eq_iff

theorem key_ignoreCase_eq_iff {first second : ModuleName} :
    first.key .ignoreCase = second.key .ignoreCase ↔ first.AgreeIgnoringCase second := by
  rw [key, key, lowercase_qualified, lowercase_qualified, agreeIgnoringCase_iff]

/-- Exactly the dotted texts are read, with white space around them, and as their words; another
text is refused for the first rule that it breaks. The keys of names tell them apart, by their
letter case as well if that counts. -/
theorem parse_follows_grammar (text : Text) :
    ((∃ name, parse text = .ok name) ↔ ∃ words, IsDotted words (Text.trim text)) ∧
      (∀ name, parse text = .ok name →
        name.qualified = Text.trim text ∧ parse name.qualified = .ok name ∧
          ∀ words, IsDotted words (Text.trim text) ↔ name.qualifier ++ [name.identifier] = words) ∧
      (∀ error, parse text = .error error ↔ Refuses (Text.trim text) error) ∧
      (∀ first second : ModuleName, first.key .exact = second.key .exact ↔ first = second) ∧
      ∀ first second : ModuleName,
        first.key .ignoreCase = second.key .ignoreCase ↔ first.AgreeIgnoringCase second := by
  refine ⟨⟨?_, ?_⟩, fun name read => ?_, fun error => parse_eq_error_iff,
    fun first second => key_exact_eq_iff, fun first second => key_ignoreCase_eq_iff⟩
  · rintro ⟨name, read⟩
    exact ⟨_, parse_eq_ok_iff.mp read⟩
  · rintro ⟨words, dotted⟩
    rcases parse_cases text with ⟨error, -, refuses⟩ | ⟨name, read, -⟩
    · exact absurd dotted (refuses.not_isDotted words)
    · exact ⟨name, read⟩
  · have dotted := parse_eq_ok_iff.mp read
    refine ⟨dotted.joined.symm, parse_qualified name, fun words => ⟨fun dottedToo => ?_, ?_⟩⟩
    · exact dotted.splitOn_eq.symm.trans dottedToo.splitOn_eq
    · rintro rfl
      exact dotted

theorem parse_follows_grammar_spacedWidget :
    ∃ name, parse "\t app_2.ui.$Widget\u00A0\n".toList = .ok name ∧
      name.qualified = "app_2.ui.$Widget".toList ∧
      name.qualifier ++ [name.identifier] = ["app_2".toList, "ui".toList, "$Widget".toList] := by
  have trimmed : Text.trim "\t app_2.ui.$Widget\u00A0\n".toList = "app_2.ui.$Widget".toList := by
    decide
  obtain ⟨accepts, reads, -⟩ := parse_follows_grammar "\t app_2.ui.$Widget\u00A0\n".toList
  have dotted : IsDotted ["app_2".toList, "ui".toList, "$Widget".toList]
      "app_2.ui.$Widget".toList := by
    refine ⟨by decide, ?_, by decide⟩
    simp only [← isNameSegment_iff]
    decide
  rw [← trimmed] at dotted
  obtain ⟨name, read⟩ := accepts.mpr ⟨_, dotted⟩
  obtain ⟨written, -, words⟩ := reads name read
  exact ⟨name, read, written.trans trimmed, (words _).mp dotted⟩

end ModuleName

end PageCompiler
