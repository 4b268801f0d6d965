import PageCompiler.Text.Basic

/-! # Lines

A line ends with its line feed. `lines` keeps the line feeds, so that the lines of a text together
are the text; `lineTexts` drops each line feed together with a carriage return in front of it.
-/

namespace PageCompiler.Text

/-- The first line of a text, with its line feed, and what follows it. -/
def firstLine : Text → Text × Text
  | [] => ([], [])
  | '\n' :: rest => (['\n'], rest)
  | c :: rest =>
    let (line, after) := firstLine rest
    (c :: line, after)

theorem firstLine_append (text : Text) : (firstLine text).1 ++ (firstLine text).2 = text := by
  fun_induction firstLine text with
  | case1 => rfl
  | case2 => rfl
  | case3 c rest _ line after found ih => simp_all

theorem firstLine_snd_length_lt (c : Char) (rest : Text) :
    (firstLine (c :: rest)).2.length < (c :: rest).length := by
  induction rest generalizing c with
  | nil => by_cases h : c = '\n' <;> simp [firstLine, h]
  | cons d rest ih =>
    by_cases h : c = '\n'
    · simp [firstLine, h]
    · have shorter := ih d
      simp only [firstLine, List.length_cons] at shorter ⊢
      omega

/-- The lines of a text, each with its line feed; the last one may have none, and is not empty. -/
def lines : Text → List Text
  | [] => []
  | c :: rest =>
    if c = '\n' then [c] :: lines rest
    else
      match lines rest with
      | line :: others => (c :: line) :: others
      | [] => [[c]]

/-- The lines of a text together are the text. -/
theorem flatten_lines (text : Text) : (lines text).flatten = text := by
  induction text with
  | nil => rfl
  | cons c rest ih =>
    rw [lines]
    split
    · simp [ih]
    · cases found : lines rest with
      | nil => simp_all
      | cons line others => simp_all

/-- A line without its line feed and without a carriage return in front of that. -/
def withoutLineEnd (line : Text) : Text :=
  match line.reverse with
  | '\n' :: '\r' :: rest => rest.reverse
  | '\n' :: rest => rest.reverse
  | _ => line

def lineTexts (text : Text) : List Text :=
  (lines text).map withoutLineEnd

/-- The line feeds of a text alone. -/
def lineFeeds (text : Text) : Text :=
  text.filter (· == '\n')

def endsLine (text : Text) : Bool :=
  text.getLast? == some '\n'

end PageCompiler.Text
