import Mathlib.Order.Bounds.Defs
import PageCompiler.Proofs.Source.Position

/-! # Positions by a table of lines

A `LineIndex` keeps the byte offsets of the line starts. They go up, and one of them is behind each
line feed, so those up to an offset are as many as the lines that have begun in front of it, and the
last of these starts cuts off the line that the offset stands on. The position by the table is
therefore the one that is found by reading the text, and no two places of a text have one line and
column.
-/

namespace PageCompiler

namespace Text

/-! ## Boundaries -/

/-- A byte offset in front of a character or at the end of the text. -/
def IsBoundary (text : Text) (offset : Nat) : Prop :=
  ∃ front rest, text = front ++ rest ∧ front.byteSize = offset

/-- What stands between two boundaries. -/
structure IsPassage (text : Text) (start stop : Nat) (passage : Text) : Prop where
  cut : ∃ front rest, text = front ++ passage ++ rest ∧ front.byteSize = start
  ends : start + passage.byteSize = stop

theorem takeBytes_append_of_le {front : Text} {limit : Nat} (fits : front.byteSize ≤ limit)
    (rest : Text) :
    (front ++ rest).takeBytes limit = front ++ rest.takeBytes (limit - front.byteSize) := by
  induction front generalizing limit with
  | nil => simp
  | cons c front inductionHypothesis =>
    rw [byteSize_cons] at fits
    have others : takeBytes (limit - c.utf8Size) (front ++ rest) =
        front ++ takeBytes (limit - c.utf8Size - byteSize front) rest :=
      inductionHypothesis (by omega)
    rw [List.cons_append, takeBytes, if_pos (by omega), others, byteSize_cons, Nat.sub_sub]
    rfl

theorem dropBytes_byteSize_append (front rest : Text) :
    (front ++ rest).dropBytes front.byteSize = rest := by
  have whole := takeBytes_append_dropBytes front.byteSize (front ++ rest)
  rw [takeBytes_byteSize_append] at whole
  exact List.append_cancel_left whole

/-- The prefix that an offset takes ends at the last boundary up to the offset. -/
theorem isGreatest_takeBytes (text : Text) (offset : Nat) :
    IsGreatest {boundary | text.IsBoundary boundary ∧ boundary ≤ min offset text.byteSize}
      (text.takeBytes offset).byteSize := by
  have whole := takeBytes_append_dropBytes offset text
  have size := congrArg byteSize whole
  rw [byteSize_append] at size
  have fits := byteSize_takeBytes_le offset text
  constructor
  · exact ⟨⟨_, _, whole.symm, rfl⟩, by omega⟩
  · rintro boundary ⟨⟨front, rest, rfl, rfl⟩, inside⟩
    rw [takeBytes_append_of_le (by omega), byteSize_append]
    exact Nat.le_add_right _ _

end Text

/-! ## Starts of lines -/

namespace LineIndex

theorem startsAfter_append (offset : Nat) (front rest : Text) :
    startsAfter offset (front ++ rest) =
      startsAfter offset front ++ startsAfter (offset + front.byteSize) rest := by
  induction front generalizing offset with
  | nil => rfl
  | cons c front inductionHypothesis =>
    simp only [List.cons_append, startsAfter, Text.byteSize_cons, inductionHypothesis]
    rw [Nat.add_assoc]
    split
    · rfl
    · rfl

theorem length_startsAfter (offset : Nat) (text : Text) :
    (startsAfter offset text).length = text.count '\n' := by
  induction text generalizing offset with
  | nil => rfl
  | cons c text inductionHypothesis =>
    rw [startsAfter]
    by_cases feed : c = '\n'
    · simp [feed, inductionHypothesis]
    · simp [feed, inductionHypothesis]

theorem mem_startsAfter {offset start : Nat} {text : Text}
    (member : start ∈ startsAfter offset text) :
    offset < start ∧ start ≤ offset + text.byteSize := by
  induction text generalizing offset with
  | nil => simp [startsAfter] at member
  | cons c text inductionHypothesis =>
    have wide := c.utf8Size_pos
    rw [Text.byteSize_cons]
    rw [startsAfter] at member
    split at member
    · rcases List.mem_cons.mp member with rfl | later
      · omega
      · have := inductionHypothesis later
        omega
    · have := inductionHypothesis member
      omega

/-- The starts go up. -/
theorem pairwise_startsAfter (offset : Nat) (text : Text) :
    (startsAfter offset text).Pairwise (· < ·) := by
  induction text generalizing offset with
  | nil => exact .nil
  | cons c text inductionHypothesis =>
    rw [startsAfter]
    split
    · exact .cons (fun start later => (mem_startsAfter later).1) (inductionHypothesis _)
    · exact inductionHypothesis _

theorem pairwise_starts (text : Text) : (ofText text).starts.Pairwise (· < ·) :=
  .cons (fun _ later => (mem_startsAfter later).1) (pairwise_startsAfter 0 text)

/-- Behind lines that have all ended, the last start is the end. -/
theorem getElem?_starts_of_atLineStart {front : Text} (starts : AtLineStart front) :
    (ofText front).starts[front.count '\n']? = some front.byteSize := by
  rcases starts with rfl | ends
  · rfl
  · obtain ⟨ended, rfl⟩ := List.getLast?_eq_some_iff.mp ends
    have behind : startsAfter 0 (ended ++ ['\n']) =
        startsAfter 0 ended ++ [Text.byteSize (ended ++ ['\n'])] := by
      simp [startsAfter_append, startsAfter]
    have last : (ended ++ ['\n']).count '\n' = (startsAfter 0 ended).length + 1 := by
      simp [length_startsAfter]
    rw [ofText, behind, last, List.getElem?_cons_succ, List.getElem?_concat_length]

/-! ## The line of a place -/

section

variable (front rest : Text)

/-- The starts up to a place are the ones of the lines that have begun in front of it. -/
theorem takeWhile_starts :
    (ofText (front ++ rest)).starts.takeWhile (· ≤ front.byteSize) = (ofText front).starts := by
  have before : ∀ start ∈ (ofText front).starts, decide (start ≤ front.byteSize) = true := by
    intro start member
    rcases List.mem_cons.mp member with rfl | later
    · simp
    · simpa using (mem_startsAfter later).2
  have behind : (startsAfter front.byteSize rest).takeWhile (· ≤ front.byteSize) = [] := by
    cases later : startsAfter front.byteSize rest with
    | nil => rfl
    | cons start others =>
      have beyond := (mem_startsAfter (later ▸ List.mem_cons_self (a := start) (l := others))).1
      simp [beyond]
  have split : (ofText (front ++ rest)).starts =
      (ofText front).starts ++ startsAfter front.byteSize rest := by
    simp [ofText, startsAfter_append]
  rw [split, List.takeWhile_append_of_pos before, behind, List.append_nil]

theorem length_takeWhile_starts :
    ((ofText (front ++ rest)).starts.takeWhile (· ≤ front.byteSize)).length =
      front.count '\n' + 1 := by
  rw [takeWhile_starts, ofText, List.length_cons, length_startsAfter]

/-- The line of a place starts behind the lines that have ended in front of it. -/
theorem lineStart?_ofText :
    (ofText (front ++ rest)).lineStart? (front.count '\n' + 1) =
      some front.endedLines.byteSize := by
  have found := getElem?_starts_of_atLineStart front.atLineStart_endedLines
  rw [Text.count_endedLines] at found
  obtain ⟨inside, -⟩ := List.getElem?_eq_some_iff.mp found
  have split : (ofText (front ++ rest)).starts = (ofText front.endedLines).starts ++
      startsAfter front.endedLines.byteSize (front.lastLine ++ rest) := by
    conv_lhs => rw [← front.endedLines_append_lastLine, List.append_assoc]
    simp [ofText, startsAfter_append]
  rw [lineStart?, split, List.getElem?_append_left inside, found]

theorem dropBytes_endedLines : front.dropBytes front.endedLines.byteSize = front.lastLine :=
  calc
    front.dropBytes front.endedLines.byteSize =
        (front.endedLines ++ front.lastLine).dropBytes front.endedLines.byteSize := by
      rw [front.endedLines_append_lastLine]
    _ = front.lastLine := Text.dropBytes_byteSize_append _ _

variable {front rest}

theorem position_of_takeBytes {offset : Nat} (taken : (front ++ rest).takeBytes offset = front) :
    (ofText (front ++ rest)).position (front ++ rest) offset =
      ⟨front.count '\n' + 1, front.lastLine.length + 1, front.byteSize⟩ := by
  rw [position, taken, Text.takeBytes_byteSize_append, length_takeWhile_starts, lineStart?_ofText,
    Option.getD_some, dropBytes_endedLines]

end

end LineIndex

/-! ## Positions in order -/

namespace Position

theorem locate_of_takeBytes {text front : Text} {offset : Nat}
    (taken : text.takeBytes offset = front) :
    locate text offset =
      ⟨front.count '\n' + 1, front.lastLine.length + 1, front.byteSize⟩ := by
  rw [locate, taken, Text.lastLine, List.length_reverse]

/-- An earlier line, or the same line and an earlier column. -/
def Precedes (first second : Position) : Prop :=
  first.line < second.line ∨ first.line = second.line ∧ first.column < second.column

/-- A place further on is on a later line or further on its line. -/
theorem precedes_append (front : Text) {more : Text} (nonempty : more ≠ []) (offset next : Nat) :
    Precedes ⟨front.count '\n' + 1, front.lastLine.length + 1, offset⟩
      ⟨(front ++ more).count '\n' + 1, (front ++ more).lastLine.length + 1, next⟩ := by
  unfold Precedes
  dsimp only
  rw [List.count_append]
  by_cases feed : '\n' ∈ more
  · have := List.count_pos_iff.mpr feed
    exact .inl (by omega)
  · have longer := List.length_pos_iff.mpr nonempty
    have line : (front ++ more).lastLine = front.lastLine ++ more := by
      have inside : '\n' ∉ front.lastLine ++ more := fun member =>
        (List.mem_append.mp member).elim front.not_mem_lastLine feed
      have behind := Text.lastLine_append front.atLineStart_endedLines inside
      rwa [← List.append_assoc, front.endedLines_append_lastLine] at behind
    rw [List.count_eq_zero.mpr feed, line, List.length_append]
    exact .inr ⟨rfl, by omega⟩

theorem locate_precedes {text : Text} {offset next : Nat}
    (further : (text.takeBytes offset).byteSize < (text.takeBytes next).byteSize) :
    (locate text offset).Precedes (locate text next) := by
  have whole := (Text.takeBytes_append_dropBytes offset text).trans
    (Text.takeBytes_append_dropBytes next text).symm
  rw [locate_of_takeBytes (Eq.refl (text.takeBytes next)), locate_of_takeBytes rfl]
  -- Of two prefixes of one text the longer one goes on from the other.
  rcases List.append_eq_append_iff.mp whole with ⟨more, longer, -⟩ | ⟨more, shorter, -⟩
  · rw [longer] at further ⊢
    refine precedes_append _ ?_ _ _
    rintro rfl
    simp at further
  · rw [shorter, Text.byteSize_append] at further
    omega

end Position

/-! ## Both ways to a position -/

/-- The position of every offset is that of the last boundary up to it. The table of line starts
gives the same position as reading the text does: the number of a line that starts at or in front of
the boundary, the number of characters between them, which are on one line, and the boundary. A
boundary further on comes later by line and column. -/
theorem LineIndex.position_eq_locate (text : Text) (offset : Nat) :
    (ofText text).starts.Pairwise (· < ·) ∧
      (ofText text).position text offset = .locate text offset ∧
      IsGreatest {boundary | text.IsBoundary boundary ∧ boundary ≤ min offset text.byteSize}
        (Position.locate text offset).offset ∧
      (∃ start line, (ofText text).lineStart? (Position.locate text offset).line = some start ∧
        text.IsPassage start (Position.locate text offset).offset line ∧ '\n' ∉ line ∧
        (Position.locate text offset).column = line.length + 1) ∧
      ∀ next, (Position.locate text offset).offset < (Position.locate text next).offset →
        (Position.locate text offset).Precedes (.locate text next) := by
  have greatest := text.isGreatest_takeBytes offset
  obtain ⟨front, rest, rfl, taken⟩ :
      ∃ front rest, text = front ++ rest ∧ text.takeBytes offset = front :=
    ⟨_, _, (Text.takeBytes_append_dropBytes offset text).symm, rfl⟩
  have located := Position.locate_of_takeBytes taken
  rw [taken] at greatest
  refine ⟨pairwise_starts _, (position_of_takeBytes taken).trans located.symm, ?_,
    ⟨front.endedLines.byteSize, front.lastLine, ?_, ?_, front.not_mem_lastLine, ?_⟩, ?_⟩
  · rwa [located]
  · rw [located]
    exact lineStart?_ofText front rest
  · rw [located]
    refine ⟨⟨front.endedLines, rest, by rw [front.endedLines_append_lastLine], rfl⟩, ?_⟩
    rw [← Text.byteSize_append, front.endedLines_append_lastLine]
  · rw [located]
  · intro next further
    exact Position.locate_precedes further

/-- The second offset is inside a character of four bytes, the third one behind the end. -/
theorem LineIndex.position_eq_locate_emptyLine :
    let text := "é😀\n\n/*css*/".toList
    (ofText text).starts = [0, 7, 8] ∧
      [1, 4, 7, 8, 99].map ((ofText text).position text) =
        [⟨1, 1, 0⟩, ⟨1, 2, 2⟩, ⟨2, 1, 7⟩, ⟨3, 1, 8⟩, ⟨3, 8, 15⟩] ∧
      [1, 4, 7, 8, 99].map ((ofText text).position text) =
        [1, 4, 7, 8, 99].map (Position.locate text) ∧
      (Position.locate text 4).offset < (Position.locate text 7).offset ∧
      (Position.locate text 4).Precedes (.locate text 7) := by
  intro text
  have agree := fun offset => (position_eq_locate text offset).2.1
  obtain ⟨-, -, -, -, order⟩ := position_eq_locate text 4
  have further : (Position.locate text 4).offset < (Position.locate text 7).offset := by
    decide +kernel
  exact ⟨by decide +kernel, by decide +kernel, List.map_congr_left fun offset _ => agree offset,
    further, order 7 further⟩

end PageCompiler
