import PageCompiler.Proofs.Source.Passage
import PageCompiler.Proofs.Text.Thinning

/-! # Positions behind a prefix

The scanner names a place by the byte size of what stands in front of it. The line of that place is
one more than the line feeds in front, and its column is one more than the characters between the
last of them and the place. The same line of the text, counted by its lines, is found there.
-/

namespace PageCompiler

namespace Text

/-! ## Offsets -/

/-- A prefix is what its own byte size takes. -/
theorem takeBytes_byteSize_append (front rest : Text) :
    (front ++ rest).takeBytes front.byteSize = front := by
  induction front with
  | nil =>
    cases rest with
    | nil => rfl
    | cons c rest =>
      have wide := c.utf8Size_pos
      rw [List.nil_append, takeBytes, if_neg (by simpa using Nat.ne_of_gt wide)]
  | cons c front inductionHypothesis =>
    rw [List.cons_append, byteSize_cons, takeBytes, if_pos (Nat.le_add_right _ _),
      Nat.add_sub_cancel_left, inductionHypothesis]

/-! ## First lines -/

theorem firstLine_ne_nil (c : Char) (rest : Text) : (firstLine (c :: rest)).1 ≠ [] := by
  by_cases feed : c = '\n'
  · simp [firstLine, feed]
  · simp [firstLine_cons_of_ne feed]

theorem IsFirstLine.exists_append {text line : Text} (first : IsFirstLine text line) :
    ∃ after, text = line ++ after := by
  refine ⟨(firstLine text).2, ?_⟩
  rw [← isFirstLine_iff.mp first, firstLine_append]

/-- A first line goes on with the first line of what stands behind its beginning. -/
theorem isFirstLine_append_iff {front rest line : Text} (inside : '\n' ∉ front) :
    IsFirstLine (front ++ rest) (front ++ line) ↔ IsFirstLine rest line := by
  rw [isFirstLine_iff, isFirstLine_iff]
  induction front with
  | nil => rfl
  | cons c front inductionHypothesis =>
    rw [List.mem_cons, not_or] at inside
    rw [List.cons_append, firstLine_cons_of_ne (Ne.symm inside.1), List.cons_append,
      List.cons.injEq, ← inductionHypothesis inside.2]
    exact and_iff_right rfl

/-! ## The line of a place -/

/-- The last line of a text, as far as it goes; nothing behind a line feed. -/
def lastLine (front : Text) : Text :=
  (front.reverse.takeWhile (· != '\n')).reverse

/-- The lines of a text in front of the last one. -/
def endedLines (front : Text) : Text :=
  (front.reverse.dropWhile (· != '\n')).reverse

theorem endedLines_append_lastLine (front : Text) : front.endedLines ++ front.lastLine = front := by
  rw [endedLines, lastLine, ← List.reverse_append, List.takeWhile_append_dropWhile,
    List.reverse_reverse]

theorem not_mem_lastLine (front : Text) : '\n' ∉ front.lastLine := by
  intro member
  have other := List.all_eq_true.mp List.all_takeWhile _ (List.mem_reverse.mp member)
  simp at other

theorem count_endedLines (front : Text) : front.endedLines.count '\n' = front.count '\n' := by
  conv_rhs => rw [← endedLines_append_lastLine front, List.count_append,
    List.count_eq_zero.mpr (not_mem_lastLine front), Nat.add_zero]

theorem atLineStart_endedLines (front : Text) : AtLineStart front.endedLines := by
  have stops := List.head?_dropWhile_not (· != '\n') front.reverse
  rw [AtLineStart, endedLines, List.getLast?_reverse, List.reverse_eq_nil_iff]
  cases rest : front.reverse.dropWhile (· != '\n') with
  | nil => exact .inl rfl
  | cons c rest =>
    rw [rest] at stops
    exact .inr (by simpa using stops)

theorem lastLine_append {front line : Text} (starts : AtLineStart front) (inside : '\n' ∉ line) :
    (front ++ line).lastLine = line := by
  have accepted : ∀ c ∈ line.reverse, (c != '\n') = true := by
    intro c member
    rw [bne_iff_ne]
    rintro rfl
    exact inside (List.mem_reverse.mp member)
  rw [lastLine, List.reverse_append, List.takeWhile_append_of_pos accepted]
  rcases starts with rfl | ends
  · simp
  · obtain ⟨ended, rfl⟩ := List.getLast?_eq_some_iff.mp ends
    simp

/-- A character in front of a line start ends a line or has such a character behind it. -/
theorem atLineStart_cons {c : Char} {front : Text} :
    AtLineStart (c :: front) ↔ front = [] ∧ c = '\n' ∨ front ≠ [] ∧ AtLineStart front := by
  cases front with
  | nil => simp [AtLineStart]
  | cons d front => simp [AtLineStart]

/-- A text is cut into lines in front of a line start and behind it. -/
theorem lines_append {front : Text} (starts : AtLineStart front) (rest : Text) :
    lines (front ++ rest) = lines front ++ lines rest ∧
      (lines front).length = front.count '\n' := by
  induction front with
  | nil => exact ⟨rfl, rfl⟩
  | cons c front inductionHypothesis =>
    rcases atLineStart_cons.mp starts with ⟨rfl, rfl⟩ | ⟨nonempty, later⟩
    · exact ⟨lines_lineFeed_cons rest, rfl⟩
    · obtain ⟨whole, length⟩ := inductionHypothesis later
      by_cases feed : c = '\n'
      · rw [feed, List.cons_append, lines_lineFeed_cons, lines_lineFeed_cons, whole]
        exact ⟨rfl, by simp [length]⟩
      · obtain ⟨line, others, found⟩ := List.exists_cons_of_ne_nil (lines_ne_nil nonempty)
        rw [found, List.cons_append] at whole
        rw [List.cons_append, lines_cons_of_ne feed whole, lines_cons_of_ne feed found]
        exact ⟨rfl, by simpa [found, feed] using length⟩

/-- The first of the lines of a text is its first line. -/
theorem head?_lines {text line : Text} (nonempty : text ≠ []) (first : IsFirstLine text line) :
    (lines text).head? = some line := by
  induction text generalizing line with
  | nil => exact absurd rfl nonempty
  | cons c text inductionHypothesis =>
    rw [isFirstLine_iff] at first
    by_cases feed : c = '\n'
    · subst feed
      rw [lines_lineFeed_cons, ← first]
      rfl
    · rw [firstLine_cons_of_ne feed] at first
      cases text with
      | nil => simpa [lines, feed, firstLine] using first
      | cons d text =>
        have rest := inductionHypothesis (List.cons_ne_nil d text) (isFirstLine_iff.mpr rfl)
        obtain ⟨others, found⟩ := List.head?_eq_some_iff.mp rest
        rw [lines_cons_of_ne feed found, ← first]
        rfl

/-! ## The same line without its end -/

/-- What ends a line is a line feed, perhaps behind a carriage return. -/
theorem eq_withoutLineEnd_append (line : Text) :
    ∃ ending, line = withoutLineEnd line ++ ending ∧ ∀ c ∈ ending, c = '\n' ∨ c = '\r' := by
  unfold withoutLineEnd
  split
  · next rest reversed =>
    refine ⟨['\r', '\n'], ?_, by simp⟩
    rw [← List.reverse_inj, reversed]
    simp
  · next rest _ reversed =>
    refine ⟨['\n'], ?_, by simp⟩
    rw [← List.reverse_inj, reversed]
    simp
  · exact ⟨[], by simp, by simp⟩

/-- A line keeps all up to another character when its end is cut off. -/
theorem exists_withoutLineEnd_append (front rest : Text) {c : Char}
    (visible : c ≠ '\n' ∧ c ≠ '\r') :
    ∃ behind, withoutLineEnd (front ++ c :: rest) = front ++ c :: behind := by
  obtain ⟨ending, split, ends⟩ := eq_withoutLineEnd_append (front ++ c :: rest)
  generalize withoutLineEnd (front ++ c :: rest) = core at split
  have other : c ∉ ending := fun member => (ends c member).elim visible.1 visible.2
  rcases List.append_eq_append_iff.mp split with ⟨between, rfl, behind⟩ | ⟨between, rfl, behind⟩
  · rcases List.cons_eq_append_iff.mp behind with ⟨rfl, rfl⟩ | ⟨left, rfl, rfl⟩
    · exact absurd List.mem_cons_self other
    · exact ⟨left, rfl⟩
  · rw [behind] at other
    simp at other

/-- A place in front of a character that ends no line is on the line with its number, behind as many
characters. -/
theorem line_of_place (front behind : Text) {c : Char} (visible : c ≠ '\n' ∧ c ≠ '\r') :
    ((lines (front ++ c :: behind)).take (front.count '\n')).flatten = front.endedLines ∧
      ∃ after, (lineTexts (front ++ c :: behind))[front.count '\n']? =
        some (front.lastLine ++ c :: after) := by
  -- The ended lines in front do not run into the line of the place.
  obtain ⟨apart, length⟩ :=
    lines_append (atLineStart_endedLines front) (front.lastLine ++ c :: behind)
  rw [← List.append_assoc, endedLines_append_lastLine] at apart
  rw [count_endedLines] at length
  have first : IsFirstLine (front.lastLine ++ c :: behind)
      (front.lastLine ++ c :: (firstLine behind).1) := by
    rw [isFirstLine_append_iff front.not_mem_lastLine, isFirstLine_iff,
      firstLine_cons_of_ne visible.1]
  obtain ⟨others, found⟩ := List.head?_eq_some_iff.mp (head?_lines (by simp) first)
  obtain ⟨after, shown⟩ := exists_withoutLineEnd_append front.lastLine (firstLine behind).1 visible
  refine ⟨?_, after, ?_⟩
  · rw [apart, ← length, List.take_left, flatten_lines]
  · rw [lineTexts, apart, found, List.getElem?_map, List.getElem?_append_right (by omega), length,
      Nat.sub_self, ← shown]
    rfl

end Text

/-! ## Lines and columns -/

namespace Position

theorem locate_append (front rest : Text) :
    locate (front ++ rest) front.byteSize =
      ⟨front.count '\n' + 1, front.lastLine.length + 1, front.byteSize⟩ := by
  rw [locate, Text.takeBytes_byteSize_append, Text.lastLine, List.length_reverse]

end Position

end PageCompiler
