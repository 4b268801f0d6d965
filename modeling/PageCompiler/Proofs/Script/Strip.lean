import PageCompiler.Proofs.Text.Thinning
import PageCompiler.Script.Strip

/-! # What is left out when lines are kept

With the line feeds kept, leaving out marked lines and regions only thins a script: whatever is left
stands on the line where it stood.
-/

namespace PageCompiler.Script

open Text (Thins)

/-! ## Lines -/

theorem endsLine_append_lineFeed (body : Text) : Text.endsLine (body ++ ['\n']) = true := by
  simp [Text.endsLine]

theorem endsLine_of_not_mem {body : Text} (inside : '\n' ∉ body) : Text.endsLine body = false := by
  simp only [Text.endsLine, beq_eq_false_iff_ne, ne_eq]
  intro last
  exact inside (List.mem_of_getLast? last)

theorem thins_stripLine (markers : List Text) {text line : Text} (member : line ∈ Text.lines text) :
    Thins line (stripLine markers true line) := by
  by_cases marked : isMarked markers line
  · obtain ⟨body, inside, rfl | rfl⟩ := (Text.areLines_lines text).shape_of_mem member
    · simp only [stripLine, marked, endsLine_append_lineFeed, Bool.and_self, if_true]
      exact (Thins.of_not_mem inside).append (.refl ['\n'])
    · simp only [stripLine, marked, endsLine_of_not_mem inside, Bool.and_false, if_true]
      exact .of_not_mem inside
  · simp only [stripLine, marked]
    exact .refl line

theorem thins_stripLines (markers : List Text) (text : Text) :
    Thins text (stripLines markers true text) := by
  have each : Thins (Text.lines text).flatten (stripLines markers true text) :=
    .flatMap fun line member => thins_stripLine markers member
  rwa [Text.flatten_lines] at each

theorem stripLines_no_markers (keepLines : Bool) (text : Text) :
    stripLines [] keepLines text = text := by
  have unmarked : stripLine [] keepLines = id := by
    funext line
    simp [stripLine, isMarked]
  rw [stripLines, unmarked, List.flatMap_id, Text.flatten_lines]

/-! ## Regions -/

theorem thins_cutRegions (opening closing : Text) (opening_ne_nil : opening ≠ []) (text : Text) :
    Thins text (cutRegions opening closing opening_ne_nil true text) := by
  fun_induction cutRegions opening closing opening_ne_nil true text with
  | case1 => exact .refl _
  | case2 => exact .refl _
  | case3 text before body opens inside after closes shorter inductionHypothesis =>
    -- The text is what stands in front, the region and the rest.
    have split : text = before ++ (opening ++ inside ++ closing) ++ after := by
      rw [Text.eq_append_of_cut? opens, Text.eq_append_of_cut? closes]
      simp
    rw [if_pos rfl]
    have cut := ((Thins.refl before).append (.lineFeeds (opening ++ inside ++ closing))).append
      inductionHypothesis
    rwa [← split] at cut

theorem thins_stripBlock (text closing : Text) : Thins text (stripBlock true text closing) := by
  rw [stripBlock]
  split
  · exact thins_cutRegions _ closing _ text
  · exact .refl text

theorem thins_stripBlocks (closings : List Text) (text : Text) :
    Thins text (stripBlocks closings true text) := by
  rw [stripBlocks]
  induction closings generalizing text with
  | nil => exact .refl text
  | cons closing closings inductionHypothesis =>
    exact (thins_stripBlock text closing).trans (inductionHypothesis _)

end PageCompiler.Script
