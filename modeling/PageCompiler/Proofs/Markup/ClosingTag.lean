import PageCompiler.Proofs.Script.Literal

/-! # Broken closing tags

A backslash is put into every place where a text closes the element that it stands in, and nowhere
else. Such a place starts with `<`, and the tag holds no other one, so no two places overlap: none
is skipped, and what comes out closes the element nowhere.
-/

namespace PageCompiler.Markup

open Script (eq_of_asciiLower startsIgnoringCase_closingTag)

/-! ## Places -/

/-- The text starts with `</` and the tag, in any ASCII letter case. -/
def ClosesAt (tag text : Text) : Prop :=
  ∃ word after, text = '<' :: '/' :: (word ++ after) ∧
    Text.asciiLowercase word = Text.asciiLowercase tag

/-- `broken` is `text` with one backslash in each place that closes `tag`. -/
inductive Breaks (tag : Text) : Text → Text → Prop where
  | nil : Breaks tag [] []
  | keep {c : Char} {text broken : Text} (open_ : ¬ ClosesAt tag (c :: text))
      (others : Breaks tag text broken) : Breaks tag (c :: text) (c :: broken)
  | break {text broken : Text} (closes : ClosesAt tag ('<' :: '/' :: text))
      (others : Breaks tag text broken) :
      Breaks tag ('<' :: '/' :: text) ('<' :: '\\' :: '/' :: broken)

theorem asciiLower_angle : Text.asciiLower '<' = '<' := by decide

theorem asciiLower_slash : Text.asciiLower '/' = '/' := by decide

theorem startsIgnoringCase_iff {tag text : Text} :
    startsIgnoringCase (closingTag tag) text = true ↔ ClosesAt tag text := by
  constructor
  · intro starts
    obtain ⟨after, rfl⟩ := startsIgnoringCase_closingTag starts
    refine ⟨after.take tag.length, after.drop tag.length, by rw [List.take_append_drop], ?_⟩
    simpa [startsIgnoringCase, closingTag, Text.asciiLowercase, asciiLower_angle,
      asciiLower_slash] using starts
  · rintro ⟨word, after, rfl, same⟩
    have length : word.length = tag.length := by
      simpa [Text.asciiLowercase] using congrArg List.length same
    have taken : (word ++ after).take tag.length = word := by rw [← length, List.take_left]
    simpa [startsIgnoringCase, closingTag, Text.asciiLowercase, asciiLower_angle,
      asciiLower_slash, taken] using same

theorem not_closesAt_of_ne {tag : Text} {c : Char} (other : c ≠ '<') (text : Text) :
    ¬ ClosesAt tag (c :: text) := by
  rintro ⟨word, after, same, -⟩
  exact other (List.cons.inj same).1

/-- A character that is no letter stands in a word if it stands in the tag. -/
theorem mem_of_asciiLowercase_eq {tag word : Text} {c : Char} (low : c.toNat < 97)
    (fixed : Text.asciiLower c = c) (same : Text.asciiLowercase word = Text.asciiLowercase tag)
    (member : c ∈ word) : c ∈ tag := by
  have written : Text.asciiLower c ∈ Text.asciiLowercase word := List.mem_map_of_mem member
  rw [same] at written
  obtain ⟨d, there, lowered⟩ := List.mem_map.mp written
  rwa [← eq_of_asciiLower low (lowered.trans fixed)]

variable {tag : Text}

/-- Behind its first character a place holds no start of another one. -/
theorem not_mem_place (single : '<' ∉ tag) {word : Text}
    (spelled : Text.asciiLowercase word = Text.asciiLowercase tag) : '<' ∉ '/' :: word := by
  rw [List.mem_cons, not_or]
  refine ⟨by decide, fun member => single ?_⟩
  exact mem_of_asciiLowercase_eq (by decide) asciiLower_angle spelled member

/-! ## What is written -/

/-- Up to the end of a place that has been found, there is no other one. -/
theorem breaks_breakOccurrences (single : '<' ∉ tag) {skip : Nat} {text : Text}
    (skipped : '<' ∉ text.take skip) :
    Breaks tag text (breakOccurrences (closingTag tag) skip text) := by
  fun_induction breakOccurrences (closingTag tag) skip text with
  | case1 => exact .nil
  | case2 skip c rest inductionHypothesis =>
    rw [List.take_succ_cons, List.mem_cons, not_or] at skipped
    exact .keep (not_closesAt_of_ne (Ne.symm skipped.1) rest) (inductionHypothesis skipped.2)
  | case3 c rest starts inductionHypothesis =>
    have closes := startsIgnoringCase_iff.mp starts
    obtain ⟨word, after, same, spelled⟩ := closes
    obtain ⟨rfl, rfl⟩ := List.cons.inj same
    have length : word.length = tag.length := by
      simpa [Text.asciiLowercase] using congrArg List.length spelled
    have inside : ('/' :: (word ++ after)).take ((closingTag tag).length - 1) = '/' :: word := by
      simp [closingTag, Text.asciiLowercase, ← length]
    have others := inductionHypothesis (inside ▸ not_mem_place single spelled)
    rw [Script.breakOccurrences_of_ne (by decide)] at others ⊢
    cases others with
    | keep _ behind => exact .break ⟨word, after, rfl, spelled⟩ behind
  | case4 c rest unlike inductionHypothesis =>
    refine .keep (fun closes => unlike (startsIgnoringCase_iff.mpr closes)) ?_
    exact inductionHypothesis List.not_mem_nil

/-- A word without the sign that places start with is kept. -/
theorem Breaks.exists_of_append {text word after : Text} (free : '<' ∉ word)
    (breaks : Breaks tag text (word ++ after)) :
    ∃ rest, text = word ++ rest ∧ Breaks tag rest after := by
  induction word generalizing text with
  | nil => exact ⟨text, rfl, breaks⟩
  | cons c word inductionHypothesis =>
    rw [List.mem_cons, not_or] at free
    generalize whole : c :: word ++ after = broken at breaks
    cases breaks with
    | nil => cases whole
    | keep _ others =>
      obtain ⟨rfl, rfl⟩ := List.cons.inj whole
      obtain ⟨rest, rfl, behind⟩ := inductionHypothesis free.2 others
      exact ⟨rest, rfl, behind⟩
    | «break» _ _ => exact absurd (List.cons.inj whole).1.symm free.1

/-- A new place would be one of the text, because it holds no backslash that has been put in. -/
theorem Breaks.not_closesAt (single : '<' ∉ tag) {text broken : Text}
    (breaks : Breaks tag text broken) :
    ∀ front rest, broken = front ++ rest → ¬ ClosesAt tag rest := by
  induction breaks with
  | nil =>
    rintro front rest split ⟨word, after, rfl, -⟩
    simp at split
  | @keep c text broken open_ others inductionHypothesis =>
    intro front rest split
    rcases List.cons_eq_append_iff.mp split with ⟨-, rfl⟩ | ⟨between, -, there⟩
    · rintro ⟨word, after, same, spelled⟩
      obtain ⟨rfl, rfl⟩ := List.cons.inj same
      obtain ⟨behind, rfl, -⟩ := exists_of_append (not_mem_place single spelled) others
      exact open_ ⟨word, behind, rfl, spelled⟩
    · exact inductionHypothesis between rest there
  | @«break» text broken closes others inductionHypothesis =>
    intro front rest split
    match front with
    | [] =>
      rintro ⟨word, after, same, -⟩
      rw [List.nil_append] at split
      cases split.trans same
    | [_] =>
      obtain rfl := (List.cons.inj split).2
      exact not_closesAt_of_ne (by decide) _
    | [_, _] =>
      obtain rfl := (List.cons.inj (List.cons.inj split).2).2
      exact not_closesAt_of_ne (by decide) _
    | _ :: _ :: _ :: between =>
      exact inductionHypothesis between rest
        (List.cons.inj (List.cons.inj (List.cons.inj split).2).2).2

theorem breaks_escapeClosingTag (single : '<' ∉ tag) (text : Text) :
    Breaks tag text (escapeClosingTag tag text) :=
  breaks_breakOccurrences single List.not_mem_nil

end PageCompiler.Markup
