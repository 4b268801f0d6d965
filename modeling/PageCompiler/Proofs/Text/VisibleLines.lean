import PageCompiler.Proofs.Text.Thinning

/-! # Lines of a text that show something

A line goes from one line feed to the next. What has no line feed in it stands on one line or not at
all, and the lines that show something are those of the passages between any line feeds. White
space behind a text adds none, and neither do blank lines.
-/

namespace PageCompiler

namespace Text

/-! ## Texts line by line -/

/-- A text is one line, or a line with a line feed in front of another text. -/
theorem line_induction {holds : Text → Prop} (last : ∀ body, '\n' ∉ body → holds body)
    (ended : ∀ body rest, '\n' ∉ body → holds rest → holds (body ++ '\n' :: rest)) (text : Text) :
    holds text := by
  have areLines := areLines_lines text
  have whole := flatten_lines text
  generalize lines text = ls at areLines whole
  subst whole
  induction areLines with
  | nil => exact last [] List.not_mem_nil
  | @last body inside _ => simpa using last body inside
  | @ended body others inside _ inductionHypothesis =>
    simpa using ended body others.flatten inside inductionHypothesis

theorem lines_append_lineFeed {body : Text} (inside : '\n' ∉ body) (rest : Text) :
    lines (body ++ '\n' :: rest) = (body ++ ['\n']) :: lines rest := by
  induction body with
  | nil => exact lines_lineFeed_cons rest
  | cons c body inductionHypothesis =>
    rw [List.mem_cons, not_or] at inside
    exact lines_cons_of_ne (Ne.symm inside.1) (inductionHypothesis inside.2)

/-- What has no line feed stands on one side of every line feed. -/
theorem infix_append_lineFeed_iff {needle : Text} (inside : '\n' ∉ needle) (front rest : Text) :
    needle <:+: front ++ '\n' :: rest ↔ needle <:+: front ∨ needle <:+: rest := by
  have starts {start : Text} (absent : '\n' ∉ start) (found : start <+: '\n' :: rest) :
      start = [] := by
    cases start with
    | nil => rfl
    | cons c start => simp [(List.cons_prefix_cons.mp found).1] at absent
  rw [List.infix_append_iff, List.infix_cons_iff]
  constructor
  · rintro (before | (across | behind) | ⟨upper, lower, rfl, before, across⟩)
    · exact .inl before
    · rw [starts inside across]
      exact .inl List.nil_infix
    · exact .inr behind
    · rw [starts (fun member => inside (List.mem_append_right _ member)) across, List.append_nil]
      exact .inl before.isInfix
  · rintro (before | behind)
    · exact .inl before
    · exact .inr (.inl (.inr behind))

/-- What has no line feed stands on a line. -/
theorem infix_iff_exists_line {needle : Text} (inside : '\n' ∉ needle) (text : Text) :
    needle <:+: text ↔ ∃ line ∈ text.splitOn '\n', needle <:+: line := by
  induction text using line_induction with
  | last body single => simp [List.splitOn_eq_singleton single]
  | ended body rest single inductionHypothesis =>
    rw [infix_append_lineFeed_iff inside, inductionHypothesis, List.splitOn_append_cons_self,
      List.splitOn_eq_singleton single]
    simp

/-! ## Visible lines -/

/-- The lines that show something, without the white space at their ends. -/
def visibleLines (lines : List Text) : List Text :=
  (lines.filter fun line => !isBlank line).map trimEnd

theorem visibleLines_append (first second : List Text) :
    visibleLines (first ++ second) = visibleLines first ++ visibleLines second := by
  simp [visibleLines]

theorem visibleLines_flatMap {α : Type} (items : List α) (linesOf : α → List Text) :
    visibleLines (items.flatMap linesOf) =
      items.flatMap fun item => visibleLines (linesOf item) := by
  simp [visibleLines, List.filter_flatMap, List.map_flatMap]

/-- The visible lines of a text, split at its line feeds. -/
def visibleLinesOf (text : Text) : List Text :=
  visibleLines (text.splitOn '\n')

theorem visibleLinesOf_append_lineFeed (front rest : Text) :
    visibleLinesOf (front ++ '\n' :: rest) = visibleLinesOf front ++ visibleLinesOf rest := by
  rw [visibleLinesOf, List.splitOn_append_cons_self, visibleLines_append]
  rfl

theorem visibleLinesOf_line {body : Text} (inside : '\n' ∉ body) :
    visibleLinesOf body = if isBlank body then [] else [trimEnd body] := by
  rw [visibleLinesOf, List.splitOn_eq_singleton inside]
  by_cases blank : isBlank body = true <;> simp [visibleLines, blank]

theorem isBlank_lineFeed_cons (text : Text) : isBlank ('\n' :: text) = isBlank text := by
  simp [isBlank, show isSpace '\n' = true from by decide]

theorem visibleLinesOf_blank {text : Text} (blank : isBlank text = true) :
    visibleLinesOf text = [] := by
  induction text using line_induction with
  | last body inside => rw [visibleLinesOf_line inside, if_pos blank]
  | ended body rest inside inductionHypothesis =>
    rw [isBlank_append, isBlank_lineFeed_cons] at blank
    rw [visibleLinesOf_append_lineFeed, visibleLinesOf_line inside, if_pos blank.1,
      inductionHypothesis blank.2, List.append_nil]

@[simp] theorem visibleLinesOf_nil : visibleLinesOf [] = [] :=
  visibleLinesOf_blank rfl

theorem trimEnd_append_blank (body : Text) {trailing : Text} (blank : isBlank trailing = true) :
    trimEnd (body ++ trailing) = trimEnd body := by
  rw [trimEnd, trimEnd, List.reverse_append, List.dropWhile_append_of_pos]
  intro c member
  exact List.all_eq_true.mp blank c (List.mem_reverse.mp member)

/-- White space within the last line is trimmed from it anyway. -/
theorem visibleLinesOf_append_line (core : Text) {trailing : Text} (inside : '\n' ∉ trailing)
    (blank : isBlank trailing = true) :
    visibleLinesOf (core ++ trailing) = visibleLinesOf core := by
  induction core using line_induction with
  | last body single =>
    have both : '\n' ∉ body ++ trailing := by simp [single, inside]
    have same : isBlank (body ++ trailing) = isBlank body := by
      rw [Bool.eq_iff_iff, isBlank_append]
      exact and_iff_left blank
    rw [visibleLinesOf_line both, visibleLinesOf_line single, same, trimEnd_append_blank body blank]
  | ended body rest _ inductionHypothesis =>
    rw [List.append_assoc, List.cons_append, visibleLinesOf_append_lineFeed, inductionHypothesis,
      visibleLinesOf_append_lineFeed]

theorem visibleLinesOf_append_blank (core : Text) {trailing : Text}
    (blank : isBlank trailing = true) :
    visibleLinesOf (core ++ trailing) = visibleLinesOf core := by
  by_cases inside : '\n' ∈ trailing
  · obtain ⟨line, others, rfl, single⟩ := List.eq_append_cons_of_mem inside
    rw [isBlank_append, isBlank_lineFeed_cons] at blank
    rw [← List.append_assoc, visibleLinesOf_append_lineFeed,
      visibleLinesOf_append_line core single blank.1, visibleLinesOf_blank blank.2,
      List.append_nil]
  · exact visibleLinesOf_append_line core inside blank

end Text

end PageCompiler
