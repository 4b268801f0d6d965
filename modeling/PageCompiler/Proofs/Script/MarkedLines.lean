import PageCompiler.Proofs.Script.Regions
import PageCompiler.Proofs.Text.VisibleLines

/-! # Leaving out marked lines

If no marker has a line feed, leaving out marked lines leaves a text in which no marker stands, and
of all lines that show something exactly the marked ones are gone.
-/

namespace PageCompiler

open Text (visibleLines visibleLinesOf)

namespace Script

variable {markers : List Text} (single : ∀ marker ∈ markers, '\n' ∉ marker)

include single

/-- The line feed of a line belongs to no marker. -/
theorem holdsMarker_lineFeed (body : Text) :
    HoldsMarker markers (body ++ ['\n']) ↔ HoldsMarker markers body := by
  refine exists_congr fun marker => and_congr_right fun member => and_congr_right fun nonempty => ?_
  rw [Text.infix_append_lineFeed_iff (single marker member)]
  exact or_iff_left fun found => nonempty (List.infix_nil.mp found)

theorem stripLines_ended {body : Text} (inside : '\n' ∉ body) (keepLines : Bool) (rest : Text) :
    stripLines markers keepLines (body ++ '\n' :: rest) =
      if HoldsMarker markers body then
        (if keepLines then '\n' :: stripLines markers keepLines rest
          else stripLines markers keepLines rest)
      else body ++ '\n' :: stripLines markers keepLines rest := by
  rw [stripLines, Text.lines_append_lineFeed inside, List.flatMap_cons, ← stripLines]
  by_cases holds : HoldsMarker markers body
  · have marked := isMarked_iff.mpr ((holdsMarker_lineFeed single body).mpr holds)
    rw [if_pos holds, stripLine, if_pos marked, endsLine_append_lineFeed]
    cases keepLines <;> rfl
  · have unmarked := isMarked_iff.not.mpr ((holdsMarker_lineFeed single body).not.mpr holds)
    rw [if_neg holds, stripLine, if_neg unmarked, List.append_assoc]
    rfl

omit single in
theorem not_holdsMarker_nil : ¬ HoldsMarker markers [] := by
  rintro ⟨marker, -, nonempty, found⟩
  exact nonempty (List.infix_nil.mp found)

omit single in
theorem stripLines_last {body : Text} (inside : '\n' ∉ body) (keepLines : Bool) :
    stripLines markers keepLines body = if HoldsMarker markers body then [] else body := by
  by_cases nonempty : body = []
  · rw [nonempty, if_neg not_holdsMarker_nil]
    rfl
  · rw [stripLines, Text.lines_of_not_mem inside nonempty, List.flatMap_singleton, stripLine,
      endsLine_of_not_mem inside, Bool.and_false]
    simp only [isMarked_iff, Bool.false_eq_true, if_false]

/-- Leaving out lines leaves every other line that shows something. -/
theorem visibleLinesOf_stripLines (keepLines : Bool) (text : Text) :
    visibleLinesOf (stripLines markers keepLines text) =
      visibleLines ((text.splitOn '\n').filter fun line => ¬ HoldsMarker markers line) := by
  induction text using Text.line_induction with
  | last body inside =>
    rw [stripLines_last inside, List.splitOn_eq_singleton inside]
    by_cases holds : HoldsMarker markers body
    · simp [holds, visibleLinesOf, visibleLines, Text.isBlank]
    · simp [holds, visibleLinesOf, List.splitOn_eq_singleton inside]
  | ended body rest inside inductionHypothesis =>
    rw [stripLines_ended single inside, List.splitOn_append_cons_self,
      List.splitOn_eq_singleton inside, List.filter_append, Text.visibleLines_append,
      ← inductionHypothesis]
    by_cases holds : HoldsMarker markers body
    · -- A line feed that is kept ends an empty line.
      have kept := Text.visibleLinesOf_append_lineFeed [] (stripLines markers keepLines rest)
      rw [List.nil_append, Text.visibleLinesOf_nil, List.nil_append] at kept
      cases keepLines <;> simp [holds, kept, visibleLines]
    · rw [if_neg holds, Text.visibleLinesOf_append_lineFeed]
      simp [holds, visibleLinesOf, List.splitOn_eq_singleton inside]

theorem not_infix_stripLines (keepLines : Bool) {marker : Text} (among : marker ∈ markers)
    (nonempty : marker ≠ []) (text : Text) :
    ¬ marker <:+: stripLines markers keepLines text := by
  have unmarked {body : Text} (free : ¬ HoldsMarker markers body) : ¬ marker <:+: body :=
    fun found => free ⟨marker, among, nonempty, found⟩
  induction text using Text.line_induction with
  | last body inside =>
    rw [stripLines_last inside]
    split
    · exact unmarked not_holdsMarker_nil
    · next free => exact unmarked free
  | ended body rest inside inductionHypothesis =>
    have behind {front : Text} (free : ¬ HoldsMarker markers front) :
        ¬ marker <:+: front ++ '\n' :: stripLines markers keepLines rest := by
      rw [Text.infix_append_lineFeed_iff (single marker among), not_or]
      exact ⟨unmarked free, inductionHypothesis⟩
    rw [stripLines_ended single inside]
    split
    · cases keepLines with
      | false => exact inductionHypothesis
      | true => exact behind not_holdsMarker_nil
    · next free => exact behind free

end Script

end PageCompiler
