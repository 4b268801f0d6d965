import Mathlib.Data.List.Basic
import PageCompiler.Assembly.Document
import PageCompiler.Assembly.Script
import PageCompiler.Proofs.Text.Cutting

/-! # What trimming leaves alone

A fragment and the body of a module are trimmed, each by a rule of its own. Both rules only take
white space off the ends, so a passage that starts and ends visibly stays, and what stands around it
loses some white space at most.
-/

namespace PageCompiler

namespace Text

/-! ## Losing white space -/

/-- `rest` is `text` without some white space at its start. -/
def LosesStart (text rest : Text) : Prop :=
  ∃ blank, text = blank ++ rest ∧ ∀ c ∈ blank, isSpace c = true

/-- `rest` is `text` without some white space at its end. -/
def LosesEnd (text rest : Text) : Prop :=
  ∃ blank, text = rest ++ blank ∧ ∀ c ∈ blank, isSpace c = true

def LosesEnds (text core : Text) : Prop :=
  ∃ middle, LosesStart text middle ∧ LosesEnd middle core

def StartsVisibly (text : Text) : Prop :=
  ∃ c, text.head? = some c ∧ isSpace c = false

def EndsVisibly (text : Text) : Prop :=
  ∃ c, text.getLast? = some c ∧ isSpace c = false

variable {text rest core shown front back : Text}

theorem StartsVisibly.ne_nil (starts : text.StartsVisibly) : text ≠ [] := by
  obtain ⟨c, first, -⟩ := starts
  exact List.ne_nil_of_mem (List.mem_of_head? first)

theorem StartsVisibly.append (starts : shown.StartsVisibly) (back : Text) :
    (shown ++ back).StartsVisibly := by
  obtain ⟨c, first, visible⟩ := starts
  exact ⟨c, by simp [List.head?_append, first], visible⟩

theorem EndsVisibly.append (ends : shown.EndsVisibly) (front : Text) :
    (front ++ shown).EndsVisibly := by
  obtain ⟨c, last, visible⟩ := ends
  exact ⟨c, by simp [List.getLast?_append, last], visible⟩

theorem LosesStart.append (loses : LosesStart (front ++ shown) rest)
    (starts : shown.StartsVisibly) : ∃ start, LosesStart front start ∧ rest = start ++ shown := by
  obtain ⟨blank, split, isBlank⟩ := loses
  rcases List.append_eq_append_iff.mp split with ⟨excess, blankSplit, shownSplit⟩ |
    ⟨start, frontSplit, restSplit⟩
  · subst blankSplit
    cases excess with
    | nil =>
      refine ⟨[], ⟨front, (List.append_nil front).symm, fun c member => ?_⟩, by simpa using
        shownSplit.symm⟩
      exact isBlank c (List.mem_append_left _ member)
    | cons c excess =>
      -- The first character of the passage would be one of the lost ones.
      obtain ⟨d, first, visible⟩ := starts
      have same : c = d := by simpa [shownSplit] using first
      simp [← same, isBlank c (by simp)] at visible
  · exact ⟨start, ⟨blank, frontSplit, isBlank⟩, restSplit⟩

theorem LosesEnd.append (loses : LosesEnd (shown ++ back) rest) (ends : shown.EndsVisibly) :
    ∃ remaining, LosesEnd back remaining ∧ rest = shown ++ remaining := by
  obtain ⟨blank, split, isBlank⟩ := loses
  rcases List.append_eq_append_iff.mp split with ⟨remaining, restSplit, backSplit⟩ |
    ⟨excess, shownSplit, blankSplit⟩
  · exact ⟨remaining, ⟨blank, backSplit, isBlank⟩, restSplit⟩
  · subst blankSplit
    rcases List.eq_nil_or_concat' excess with rfl | ⟨others, c, rfl⟩
    · refine ⟨[], ⟨back, rfl, fun c member => ?_⟩, by simpa using shownSplit.symm⟩
      exact isBlank c (List.mem_append_right _ member)
    · -- The last character of the passage would be one of the lost ones.
      obtain ⟨d, last, visible⟩ := ends
      have same : c = d := by simpa [shownSplit, ← List.append_assoc] using last
      simp [← same, isBlank c (by simp)] at visible

/-- A passage that starts and ends visibly stays. -/
theorem LosesEnds.append (loses : LosesEnds (front ++ shown ++ back) core)
    (starts : shown.StartsVisibly) (ends : shown.EndsVisibly) :
    ∃ start remaining, LosesStart front start ∧ LosesEnd back remaining ∧
      core = start ++ shown ++ remaining := by
  obtain ⟨middle, atStart, atEnd⟩ := loses
  rw [List.append_assoc] at atStart
  obtain ⟨start, lostStart, rfl⟩ := atStart.append (starts.append back)
  rw [← List.append_assoc] at atEnd
  obtain ⟨remaining, lostEnd, rfl⟩ := atEnd.append (ends.append start)
  exact ⟨start, remaining, lostStart, lostEnd, rfl⟩

theorem LosesEnds.eq_self (loses : LosesEnds text core) (starts : text.StartsVisibly)
    (ends : text.EndsVisibly) : core = text := by
  have whole : [] ++ text ++ [] = text := List.append_nil text
  rw [← whole] at loses
  obtain ⟨start, remaining, ⟨blank, nothing, -⟩, ⟨blankToo, nothingToo, -⟩, rfl⟩ :=
    loses.append starts ends
  rw [(List.append_eq_nil_iff.mp nothing.symm).2, (List.append_eq_nil_iff.mp nothingToo.symm).1,
    whole]

end Text

/-! ## Fragments -/

theorem tidy_losesEnds (text : Text) : text.LosesEnds (tidy text) := by
  -- First the end is trimmed, then whole lines are dropped at the front.
  obtain ⟨trailing, split, blank, -⟩ := Text.trimEnd_eq_iff.mp (Eq.refl (Text.trimEnd text))
  refine ⟨tidy text ++ trailing,
    ⟨((Text.lines (Text.trimEnd text)).takeWhile Text.isBlank).flatten, ?_, fun c member => ?_⟩,
    trailing, rfl, blank⟩
  · rw [tidy, ← List.append_assoc, ← List.flatten_append, List.takeWhile_append_dropWhile,
      Text.flatten_lines]
    exact split
  · obtain ⟨line, there, inside⟩ := List.mem_flatten.mp member
    have blankLine : Text.isBlank line = true := List.all_eq_true.mp List.all_takeWhile line there
    exact List.all_eq_true.mp blankLine c inside

/-! ## Bodies of modules -/

theorem trimLineFeeds_losesEnds (text : Text) : text.LosesEnds (trimLineFeeds text) := by
  obtain ⟨leading, split, feeds, -⟩ :=
    Text.dropWhile_eq_iff.mp (Eq.refl (text.dropWhile (· == '\n')))
  obtain ⟨trailing, splitToo, feedsToo, -⟩ :=
    Text.dropWhile_eq_iff.mp (Eq.refl ((text.dropWhile (· == '\n')).reverse.dropWhile (· == '\n')))
  have space {c : Char} (feed : (c == '\n') = true) : Text.isSpace c = true := by
    rw [eq_of_beq feed]
    decide
  refine ⟨text.dropWhile (· == '\n'), ⟨leading, split, fun c member => space (feeds c member)⟩,
    trailing.reverse, ?_, fun c member => space (feedsToo c (List.mem_reverse.mp member))⟩
  rw [trimLineFeeds, ← List.reverse_append, ← splitToo, List.reverse_reverse]

/-- A body with a passage that starts and ends visibly is not blank. -/
theorem definitionBody_append {front shown back : Text} (starts : shown.StartsVisibly)
    (ends : shown.EndsVisibly) :
    ∃ start remaining, front.LosesStart start ∧ back.LosesEnd remaining ∧
      definitionBody (front ++ shown ++ back) = start ++ shown ++ remaining ++ ['\n'] := by
  obtain ⟨start, remaining, lostStart, lostEnd, trimmed⟩ :=
    (trimLineFeeds_losesEnds (front ++ shown ++ back)).append starts ends
  refine ⟨start, remaining, lostStart, lostEnd, ?_⟩
  obtain ⟨c, first, visible⟩ := starts
  rw [definitionBody, trimmed]
  apply if_neg
  intro blank
  have space := List.all_eq_true.mp blank c (by simp [List.mem_of_head? first])
  simp [space] at visible

/-- A definition starts with the keyword of its first statement and ends with a semicolon. -/
theorem tidy_moduleDefinition (name : ModuleName) (exports : List Text) (body : Text) :
    tidy (moduleDefinition name exports body) = moduleDefinition name exports body := by
  refine (tidy_losesEnds _).eq_self ⟨'v', ?_, by decide⟩ ?_
  · obtain ⟨outermost, others, split⟩ := List.exists_cons_of_ne_nil name.qualifier_ne_nil
    simp [moduleDefinition, namespaceStatements, split, List.range_succ_eq_map]
  · apply Text.EndsVisibly.append
    exact ⟨';', rfl, by decide⟩

theorem tidy_moduleDefinition_ne_nil (name : ModuleName) (exports : List Text) (body : Text) :
    tidy (moduleDefinition name exports body) ≠ [] := by
  rw [tidy_moduleDefinition]
  simp [moduleDefinition]

end PageCompiler
