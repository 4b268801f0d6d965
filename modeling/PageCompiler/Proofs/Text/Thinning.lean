import Mathlib.Algebra.GroupWithZero.Nat
import Mathlib.Data.List.Basic
import Mathlib.Data.List.Forall2
import PageCompiler.Proofs.Text.Cutting

/-! # Deleting characters but no line feeds

A text is thinned when some of its characters are deleted and every line feed stays. What is left of
each line then still stands on the line with the same number: as long as the last line keeps a
character, the lines of the thinned text are, one by one, the old lines without some characters.
-/

namespace PageCompiler.Text

/-! ## Thinning -/

/-- `rest` is `text` without some characters, none of which is a line feed. -/
inductive Thins : Text → Text → Prop where
  | nil : Thins [] []
  | keep {text rest : Text} (c : Char) (others : Thins text rest) : Thins (c :: text) (c :: rest)
  | delete {text rest : Text} {c : Char} (other : c ≠ '\n') (others : Thins text rest) :
      Thins (c :: text) rest

namespace Thins

variable {text rest first second firstRest secondRest : Text}

theorem refl (text : Text) : Thins text text := by
  induction text with
  | nil => exact .nil
  | cons c text inductionHypothesis => exact .keep c inductionHypothesis

theorem trans (outer : Thins first second) (inner : Thins second rest) : Thins first rest := by
  induction outer generalizing rest with
  | nil => exact inner
  | keep c _ inductionHypothesis =>
    cases inner with
    | keep _ others => exact .keep c (inductionHypothesis others)
    | delete other others => exact .delete other (inductionHypothesis others)
  | delete other _ inductionHypothesis => exact .delete other (inductionHypothesis inner)

theorem append (before : Thins first firstRest) (after : Thins second secondRest) :
    Thins (first ++ second) (firstRest ++ secondRest) := by
  induction before with
  | nil => exact after
  | keep c _ inductionHypothesis => exact .keep c inductionHypothesis
  | delete other _ inductionHypothesis => exact .delete other inductionHypothesis

/-- A passage within a line may go as a whole. -/
theorem of_not_mem (inside : '\n' ∉ text) : Thins text [] := by
  induction text with
  | nil => exact .nil
  | cons c text inductionHypothesis =>
    simp only [List.mem_cons, not_or] at inside
    exact .delete (Ne.symm inside.1) (inductionHypothesis inside.2)

theorem lineFeeds (text : Text) : Thins text text.lineFeeds := by
  induction text with
  | nil => exact .nil
  | cons c text inductionHypothesis =>
    by_cases feed : c = '\n'
    · simpa [Text.lineFeeds, feed] using inductionHypothesis.keep '\n'
    · simpa [Text.lineFeeds, feed] using inductionHypothesis.delete feed

theorem count_eq (thins : Thins text rest) : rest.count '\n' = text.count '\n' := by
  induction thins with
  | nil => rfl
  | keep c _ inductionHypothesis => simp [List.count_cons, inductionHypothesis]
  | delete other _ inductionHypothesis => simp [inductionHypothesis, other]

theorem flatMap {pieces : List Text} {change : Text → Text}
    (each : ∀ piece ∈ pieces, Thins piece (change piece)) :
    Thins pieces.flatten (pieces.flatMap change) := by
  induction pieces with
  | nil => exact .nil
  | cons piece pieces inductionHypothesis =>
    rw [List.flatten_cons, List.flatMap_cons]
    exact (each piece List.mem_cons_self).append
      (inductionHypothesis fun other member => each other (List.mem_cons_of_mem piece member))

theorem join (separator : Text) {texts rests : List Text} (each : List.Forall₂ Thins texts rests) :
    Thins (Text.join separator texts) (Text.join separator rests) := by
  induction each with
  | nil => exact .nil
  | @cons text rest texts rests thins each inductionHypothesis =>
    cases each with
    | nil => simpa [Text.join] using thins
    | cons _ _ =>
      simp only [Text.join, List.intercalate_cons_cons] at inductionHypothesis ⊢
      exact (thins.append (refl separator)).append inductionHypothesis

end Thins

/-! ## Line numbers -/

/-- The characters of a text that begins on a line, each with the number of the line it is on. -/
def numbered (line : Nat) : Text → List (Char × Nat)
  | [] => []
  | c :: text => (c, line) :: numbered (if c = '\n' then line + 1 else line) text

/-- What is left of a thinned text is on the lines where it was. -/
theorem Thins.sublist_numbered {text rest : Text} (thins : Thins text rest) (line : Nat) :
    (numbered line rest).Sublist (numbered line text) := by
  induction thins generalizing line with
  | nil => exact .slnil
  | keep c _ inductionHypothesis => exact (inductionHypothesis _).cons_cons _
  | delete other _ inductionHypothesis =>
    rw [numbered, if_neg other]
    exact (inductionHypothesis line).cons _

/-! ## Lines -/

/-- The text is not empty, and its last line has no line feed. -/
def EndsInLine (text : Text) : Prop :=
  ∃ c, text.getLast? = some c ∧ c ≠ '\n'

theorem EndsInLine.ne_nil {text : Text} (ends : text.EndsInLine) : text ≠ [] := by
  rintro rfl
  simp [EndsInLine] at ends

/-- What follows another character ends in a line as well, or is not there. -/
theorem EndsInLine.of_cons {c : Char} {text : Text} (ends : EndsInLine (c :: text)) :
    text = [] ∧ c ≠ '\n' ∨ text.EndsInLine := by
  cases text with
  | nil => exact .inl (by simpa [EndsInLine] using ends)
  | cons d text => exact .inr (by simpa [EndsInLine] using ends)

theorem lines_ne_nil {text : Text} (nonempty : text ≠ []) : lines text ≠ [] := by
  intro none
  have whole := flatten_lines text
  simp [none, nonempty.symm] at whole

theorem lines_lineFeed_cons (text : Text) : lines ('\n' :: text) = ['\n'] :: lines text := by
  rw [lines, if_pos rfl]

/-- A character that is no line feed stands on the line of what follows it. -/
theorem lines_cons_of_ne {c : Char} (other : c ≠ '\n') {text line : Text} {others : List Text}
    (found : lines text = line :: others) : lines (c :: text) = (c :: line) :: others := by
  rw [lines, if_neg other, found]

theorem lines_of_not_mem {text : Text} (inside : '\n' ∉ text) (nonempty : text ≠ []) :
    lines text = [text] := by
  induction text with
  | nil => exact absurd rfl nonempty
  | cons c text inductionHypothesis =>
    simp only [List.mem_cons, not_or] at inside
    cases text with
    | nil => simp [lines, Ne.symm inside.1]
    | cons d text =>
      exact lines_cons_of_ne (Ne.symm inside.1) (inductionHypothesis inside.2 (by simp))

/-- Every text but the last has a line feed, each at its end only, and none of them is empty. -/
inductive AreLines : List Text → Prop where
  | nil : AreLines []
  | last {body : Text} (inside : '\n' ∉ body) (nonempty : body ≠ []) : AreLines [body]
  | ended {body : Text} {others : List Text} (inside : '\n' ∉ body) (rest : AreLines others) :
      AreLines ((body ++ ['\n']) :: others)

theorem areLines_lines (text : Text) : AreLines (lines text) := by
  induction text with
  | nil => exact .nil
  | cons c text inductionHypothesis =>
    by_cases feed : c = '\n'
    · rw [feed, lines_lineFeed_cons]
      exact .ended List.not_mem_nil inductionHypothesis
    · cases found : lines text with
      | nil =>
        simp only [lines, if_neg feed, found]
        exact .last (by simpa using Ne.symm feed) (by simp)
      | cons line others =>
        rw [lines_cons_of_ne feed found]
        rw [found] at inductionHypothesis
        -- The character goes in front of the first line, whichever form that has.
        cases inductionHypothesis with
        | last inside _ => exact .last (by simp [Ne.symm feed, inside]) (by simp)
        | @ended body _ inside rest =>
          have alone : '\n' ∉ c :: body := by simp [Ne.symm feed, inside]
          exact .ended alone rest

namespace AreLines

variable {front others : List Text} {line : Text}

theorem of_cons (areLines : AreLines (line :: others)) : AreLines others := by
  cases areLines with
  | last => exact .nil
  | ended _ rest => exact rest

theorem of_append (areLines : AreLines (front ++ others)) : AreLines others := by
  induction front with
  | nil => exact areLines
  | cons first front inductionHypothesis => exact inductionHypothesis areLines.of_cons

theorem shape_of_mem (areLines : AreLines others) (member : line ∈ others) :
    ∃ body, '\n' ∉ body ∧ (line = body ++ ['\n'] ∨ line = body) := by
  induction areLines with
  | nil => cases member
  | @last body inside _ => exact ⟨body, inside, .inr (List.mem_singleton.mp member)⟩
  | @ended body _ inside _ inductionHypothesis =>
    rw [List.mem_cons] at member
    cases member with
    | inl same => exact ⟨body, inside, .inl same⟩
    | inr later => exact inductionHypothesis later

/-- The lines in front of another line end with a line feed. -/
theorem getLast?_front (areLines : AreLines (front ++ line :: others)) :
    ∀ c ∈ front.flatten.getLast?, c = '\n' := by
  induction front with
  | nil => simp
  | cons first front inductionHypothesis =>
    intro c last
    have later := inductionHypothesis areLines.of_cons
    cases found : front.flatten.getLast? with
    | some d =>
      rw [List.flatten_cons, List.getLast?_append, found] at last
      obtain rfl : d = c := by simpa using last
      exact later d found
    | none =>
      rw [List.getLast?_eq_none_iff] at found
      generalize behind : front ++ line :: others = rest at areLines
      rw [List.cons_append, behind] at areLines
      cases areLines with
      | last => simp at behind
      | ended _ _ => simpa [found, eq_comm] using last

end AreLines

/-- Every line feed but none at the end starts one more line. -/
theorem length_lines {text : Text} (ends : text.EndsInLine) :
    (lines text).length = text.count '\n' + 1 := by
  induction text with
  | nil => exact absurd rfl ends.ne_nil
  | cons c text inductionHypothesis =>
    cases ends.of_cons with
    | inl last => simp [last.1, lines, last.2]
    | inr ends =>
      have rest := inductionHypothesis ends
      by_cases feed : c = '\n'
      · simp [feed, lines_lineFeed_cons, rest]
      · obtain ⟨line, others, found⟩ := List.exists_cons_of_ne_nil (lines_ne_nil ends.ne_nil)
        rw [found, List.length_cons] at rest
        simp [lines_cons_of_ne feed found, feed, rest]

/-- A line feed between two texts leaves the lines of both as many as they are. -/
theorem length_lines_append_lineFeed {text : Text} (ends : text.EndsInLine) (rest : Text) :
    (lines (text ++ '\n' :: rest)).length = (lines text).length + (lines rest).length := by
  induction text with
  | nil => exact absurd rfl ends.ne_nil
  | cons c text inductionHypothesis =>
    cases ends.of_cons with
    | inl last =>
      simp [last.1, lines, last.2, Nat.add_comm]
    | inr ends =>
      have both := inductionHypothesis ends
      by_cases feed : c = '\n'
      · simp only [feed, List.cons_append, lines_lineFeed_cons, List.length_cons, both]
        omega
      · obtain ⟨line, others, found⟩ := List.exists_cons_of_ne_nil (lines_ne_nil ends.ne_nil)
        have whole : text ++ '\n' :: rest ≠ [] := by simp
        obtain ⟨start, behind, foundAll⟩ := List.exists_cons_of_ne_nil (lines_ne_nil whole)
        rw [List.cons_append, lines_cons_of_ne feed found, lines_cons_of_ne feed foundAll]
        simpa [found, foundAll] using both

theorem endsInLine_join (separator : Text) {texts : List Text} (nonempty : texts ≠ [])
    (ends : ∀ text ∈ texts, text.EndsInLine) : (join separator texts).EndsInLine :=
  exists_getLast?_join separator nonempty ends

theorem length_lines_join {texts : List Text} (ends : ∀ text ∈ texts, text.EndsInLine) :
    (lines (join ['\n'] texts)).length = (texts.map fun text => (lines text).length).sum := by
  induction texts with
  | nil => rfl
  | cons text texts inductionHypothesis =>
    cases texts with
    | nil => simp [join]
    | cons next texts =>
      have rest := inductionHypothesis fun other member =>
        ends other (List.mem_cons_of_mem text member)
      have step : join ['\n'] (text :: next :: texts) =
          text ++ '\n' :: join ['\n'] (next :: texts) := by
        simp [join, List.intercalate_cons_cons]
      rw [step, length_lines_append_lineFeed (ends text List.mem_cons_self), rest]
      simp

/-- Thinning keeps lines in their places, if the last one keeps a character. -/
theorem Thins.forall₂_lines {text rest : Text} (thins : Thins text rest) (ends : rest.EndsInLine) :
    List.Forall₂ List.Sublist (lines rest) (lines text) := by
  induction thins with
  | nil => exact absurd rfl ends.ne_nil
  | @keep text rest c others inductionHypothesis =>
    by_cases feed : c = '\n'
    · subst feed
      cases ends.of_cons with
      | inl last => exact absurd rfl last.2
      | inr ends =>
        rw [lines_lineFeed_cons, lines_lineFeed_cons]
        exact .cons (.refl _) (inductionHypothesis ends)
    · cases ends.of_cons with
      | inl last =>
        -- Nothing is left behind `c`, so it stands on the last line.
        have inside : '\n' ∉ text := by
          have count := others.count_eq
          rw [last.1] at count
          exact List.count_eq_zero.mp count.symm
        rw [last.1, lines_of_not_mem (by simpa using Ne.symm feed) (by simp),
          lines_of_not_mem (by simp [Ne.symm feed, inside]) (by simp)]
        exact .cons (by simp) .nil
      | inr ends =>
        have later := inductionHypothesis ends
        obtain ⟨line, behind, found⟩ := List.exists_cons_of_ne_nil (lines_ne_nil ends.ne_nil)
        rw [found] at later
        cases foundOld : lines text with
        | nil => simp [foundOld] at later
        | cons oldLine oldBehind =>
          rw [foundOld, List.forall₂_cons] at later
          rw [lines_cons_of_ne feed found, lines_cons_of_ne feed foundOld]
          exact .cons (later.1.cons_cons c) later.2
  | @delete text rest c other others inductionHypothesis =>
    have later := inductionHypothesis ends
    obtain ⟨line, behind, found⟩ := List.exists_cons_of_ne_nil (lines_ne_nil ends.ne_nil)
    cases foundOld : lines text with
    | nil => simp [foundOld, found] at later
    | cons oldLine oldBehind =>
      rw [foundOld, found, List.forall₂_cons] at later
      rw [lines_cons_of_ne other foundOld, found]
      exact .cons (later.1.cons c) later.2

end PageCompiler.Text
