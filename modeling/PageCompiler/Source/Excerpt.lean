import PageCompiler.Text.Lines

/-! # Excerpts

The lines of a source text around one of them, each with its number, for the message of an error. If
a column is given, a caret in the line below points at it.
-/

namespace PageCompiler

/-- How many lines are shown on either side. -/
def excerptMargin : Nat := 2

/-- A line number, right-aligned. -/
def lineNumber (width line : Nat) : Text :=
  let digits := Text.ofNat line
  List.replicate (width - digits.length) ' ' ++ digits

def numberedLine (width line : Nat) (text : Text) : Text :=
  lineNumber width line ++ " | ".toList ++ text ++ ['\n']

def caretLine (width column : Nat) : Text :=
  List.replicate width ' ' ++ " | ".toList ++ List.replicate (column - 1) ' ' ++ "^\n".toList

def excerptRule (width : Nat) : Text :=
  List.replicate (width + 1) '-' ++ "|--\n".toList

/-- A number of lines from the line `first` on, with the caret below the line `marked`. -/
def excerptBody (width marked : Nat) (column? : Option Nat) (first : Nat) : List Text → Text
  | [] => []
  | text :: others =>
    let caret :=
      match column? with
      | some column => if first = marked then caretLine width column else []
      | none => []
    numberedLine width first text ++ caret ++ excerptBody width marked column? (first + 1) others

/-- The lines around a line, counted from one; nothing if the text has no such line. -/
def excerpt (text : Text) (line : Nat) (column? : Option Nat) : Text :=
  let lines := Text.lineTexts text
  if line = 0 ∨ lines.length < line then []
  else
    let first := max (line - excerptMargin) 1
    let last := min (line + excerptMargin) lines.length
    let width := (Text.ofNat last).length
    excerptRule width
      ++ excerptBody width line column? first ((lines.take last).drop (first - 1))
      ++ excerptRule width

end PageCompiler
