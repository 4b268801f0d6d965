import PageCompiler.Text.Basic

/-! # White space

The characters with the Unicode property White_Space, and what is done with them: cutting them off
either end of a text, and cutting a text into words.
-/

namespace PageCompiler.Text

/-- The code points with the property White_Space. -/
def spaceRanges : List (Nat × Nat) :=
  [(0x9, 0xD), (0x20, 0x20), (0x85, 0x85), (0xA0, 0xA0), (0x1680, 0x1680), (0x2000, 0x200A),
    (0x2028, 0x2029), (0x202F, 0x202F), (0x205F, 0x205F), (0x3000, 0x3000)]

def isSpace (c : Char) : Bool :=
  inRanges spaceRanges c

def isBlank (text : Text) : Bool :=
  text.all isSpace

def trimStart (text : Text) : Text :=
  text.dropWhile isSpace

def trimEnd (text : Text) : Text :=
  (text.reverse.dropWhile isSpace).reverse

/-- `text` without the white space at either end. -/
def trim (text : Text) : Text :=
  trimEnd (trimStart text)

/-- The runs of characters that are not white space. -/
def words (text : Text) : List Text :=
  (text.splitOnP isSpace).filter fun piece => !piece.isEmpty

/-- A blank of indentation: a space or a tab. -/
def isIndent (c : Char) : Bool :=
  c == ' ' || c == '\t'

end PageCompiler.Text
