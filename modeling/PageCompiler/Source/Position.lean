import PageCompiler.Text.Basic

/-! # Positions in a source text

A position is a line and a column, both counted from one, and a byte offset. An offset past the end
or inside a character stands for the nearest character boundary before it. `Position.locate` reads
the text up to the offset; a `LineIndex` keeps the offsets of the line starts, for many questions
about one text.
-/

namespace PageCompiler

structure Position where
  line : Nat
  column : Nat
  offset : Nat
deriving DecidableEq, Inhabited

namespace Position

def start : Position :=
  ⟨1, 1, 0⟩

/-- The position of a byte offset: the column counts characters since the last line feed. -/
def locate (text : Text) (offset : Nat) : Position :=
  let before := text.takeBytes offset
  ⟨before.count '\n' + 1, (before.reverse.takeWhile (· != '\n')).length + 1, before.byteSize⟩

end Position

/-- The byte offsets at which the lines of a text start. -/
structure LineIndex where
  starts : List Nat

namespace LineIndex

/-- The offsets behind the line feeds of a text that begins at `offset`. -/
def startsAfter (offset : Nat) : Text → List Nat
  | [] => []
  | c :: rest =>
    let next := offset + c.utf8Size
    if c = '\n' then next :: startsAfter next rest else startsAfter next rest

def ofText (text : Text) : LineIndex :=
  ⟨0 :: startsAfter 0 text⟩

/-- The number of lines; the empty line behind a last line feed counts. -/
def lineCount (index : LineIndex) : Nat :=
  index.starts.length

/-- The offset at which a line, counted from one, starts. -/
def lineStart? (index : LineIndex) : Nat → Option Nat
  | 0 => none
  | line + 1 => index.starts[line]?

/-- The position of a byte offset in the text that the index was made of. -/
def position (index : LineIndex) (text : Text) (offset : Nat) : Position :=
  let offset := (text.takeBytes offset).byteSize
  let line := (index.starts.takeWhile (· ≤ offset)).length
  let start := (index.lineStart? line).getD 0
  ⟨line, ((text.takeBytes offset).dropBytes start).length + 1, offset⟩

end LineIndex

end PageCompiler
