import Mathlib.Data.List.Basic
import PageCompiler.Proofs.Source.Grammar
import PageCompiler.Source.Excerpt

/-! # What an excerpt shows

An excerpt of a text around one of its lines shows that line, with its number aligned to the right,
and the caret in the line right below.
-/

namespace PageCompiler

/-- A number has no fewer digits than a smaller one. -/
theorem Text.length_ofNat_le {small large : Nat} (le : small ≤ large) :
    (ofNat small).length ≤ (ofNat large).length := by
  have digits := (Nat.length_toDigits_le_iff (b := 10) (by decide) Nat.length_toDigits_pos).mp
    (Nat.le_refl (ofNat large).length)
  exact (Nat.length_toDigits_le_iff (by decide) Nat.length_toDigits_pos).mpr
    (Nat.lt_of_le_of_lt le digits)

/-! ## Ends of lines -/

theorem atLineStart_append_lineFeed (text : Text) : AtLineStart (text ++ ['\n']) :=
  .inr List.getLast?_concat

theorem AtLineStart.append {first second : Text} (starts : AtLineStart first)
    (goesOn : AtLineStart second) : AtLineStart (first ++ second) := by
  rcases goesOn with rfl | ends
  · rwa [List.append_nil]
  · exact .inr (by rw [List.getLast?_append, ends, Option.some_or])

theorem atLineStart_caretLine (width column : Nat) : AtLineStart (caretLine width column) := by
  have caret : "^\n".toList = ['^'] ++ ['\n'] := rfl
  rw [caretLine, caret, ← List.append_assoc]
  exact atLineStart_append_lineFeed _

theorem atLineStart_excerptRule (width : Nat) : AtLineStart (excerptRule width) := by
  have bar : "|--\n".toList = "|--".toList ++ ['\n'] := rfl
  rw [excerptRule, bar, ← List.append_assoc]
  exact atLineStart_append_lineFeed _

/-! ## Bodies -/

section

variable (width marked column first : Nat)

theorem excerptBody_cons (text : Text) (lines : List Text) :
    excerptBody width marked (some column) first (text :: lines) =
      numberedLine width first text ++ (if first = marked then caretLine width column else []) ++
        excerptBody width marked (some column) (first + 1) lines :=
  rfl

theorem atLineStart_excerptBody (lines : List Text) :
    AtLineStart (excerptBody width marked (some column) first lines) := by
  induction lines generalizing first with
  | nil => exact .inl rfl
  | cons text lines inductionHypothesis =>
    rw [excerptBody_cons]
    refine AtLineStart.append (.append (atLineStart_append_lineFeed _) ?_)
      (inductionHypothesis (first + 1))
    split
    · exact atLineStart_caretLine width column
    · exact .inl rfl

theorem excerptBody_append (upper lower : List Text) :
    excerptBody width marked (some column) first (upper ++ lower) =
      excerptBody width marked (some column) first upper ++
        excerptBody width marked (some column) (first + upper.length) lower := by
  induction upper generalizing first with
  | nil => rfl
  | cons text upper inductionHypothesis =>
    rw [List.cons_append, excerptBody_cons, excerptBody_cons, inductionHypothesis,
      List.append_assoc _ (excerptBody _ _ _ _ upper), List.length_cons, Nat.add_assoc first 1,
      Nat.add_comm 1]

end

/-! ## Whole excerpts -/

/-- A window of some lines is cut by a line inside it. -/
theorem exists_window {lines : List Text} {line : Text} {first last index : Nat}
    (found : lines[index]? = some line) (after : first ≤ index) (before : index < last) :
    ∃ upper lower, (lines.take last).drop first = upper ++ line :: lower ∧
      first + upper.length = index := by
  have shown : ((lines.take last).drop first)[index - first]? = some line := by
    rw [List.getElem?_drop, Nat.add_sub_cancel' after, List.getElem?_take, if_pos before, found]
  generalize (lines.take last).drop first = window at shown ⊢
  obtain ⟨inside, rfl⟩ := List.getElem?_eq_some_iff.mp shown
  refine ⟨window.take (index - first), window.drop (index - first + 1), ?_, ?_⟩
  · rw [← List.drop_eq_getElem_cons inside, List.take_append_drop]
  · rw [List.length_take]
    omega

/-- The line stands behind its number, and the caret in the line below. -/
theorem exists_excerpt_eq {text line : Text} {index : Nat} (column : Nat)
    (found : (Text.lineTexts text)[index]? = some line) :
    ∃ width above below, (Text.ofNat (index + 1)).length ≤ width ∧ AtLineStart above ∧
      excerpt text (index + 1) (some column) =
        above ++ (numberedLine width (index + 1) line ++ caretLine width column) ++ below := by
  obtain ⟨inside, -⟩ := List.getElem?_eq_some_iff.mp found
  simp only [excerpt]
  generalize first : max (index + 1 - excerptMargin) 1 = start
  generalize last : min (index + 1 + excerptMargin) (Text.lineTexts text).length = stop
  -- The window goes from `start` to `stop`, and the marked line is in it.
  have before : index < stop := by omega
  have after : start - 1 ≤ index := by omega
  obtain ⟨upper, lower, window, reached⟩ := exists_window found after before
  have number : start + upper.length = index + 1 := by omega
  have digits := Text.length_ofNat_le before
  generalize (Text.ofNat stop).length = width at digits
  refine ⟨width, excerptRule width ++ excerptBody width (index + 1) (some column) start upper,
    excerptBody width (index + 1) (some column) (index + 1 + 1) lower ++ excerptRule width, digits,
    (atLineStart_excerptRule width).append (atLineStart_excerptBody width _ column start upper), ?_⟩
  rw [if_neg (by omega), window, excerptBody_append, excerptBody_cons, number, if_pos rfl]
  simp only [List.append_assoc]

example : excerpt "a\nb\n  /*html*/<p>\nc\nd\ne".toList 3 (some 3) =
    "--|--\n1 | a\n2 | b\n3 |   /*html*/<p>\n  |   ^\n4 | c\n5 | d\n--|--\n".toList := by
  decide +kernel

end PageCompiler
