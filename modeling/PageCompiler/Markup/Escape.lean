import PageCompiler.Text.LetterCase

/-! # Escaping in markup

`escapeText` makes a text stand for itself in markup. `escapeClosingTag` is for the inside of
`style` and `script` elements, where nothing can be written as an entity: it puts a backslash
between the characters of each `</` that a tag name follows, so that the element is not closed
early.
-/

namespace PageCompiler.Markup

def escapeChar (c : Char) : Text :=
  if c = '&' then "&amp;".toList
  else if c = '<' then "&lt;".toList
  else if c = '>' then "&gt;".toList
  else if c = '"' then "&quot;".toList
  else [c]

/-- `text` with the characters that markup gives a meaning replaced by entities. -/
def escapeText (text : Text) : Text :=
  text.flatMap escapeChar

/-- Whether `text` starts with `needle`, which is in small letters, in any ASCII letter case. -/
def startsIgnoringCase (needle text : Text) : Bool :=
  Text.asciiLowercase (text.take needle.length) == needle

/-- Puts a backslash behind the first character of each occurrence of `needle`, from front to back;
the next `skip` characters belong to an occurrence that has been found. -/
def breakOccurrences (needle : Text) : Nat → Text → Text
  | _, [] => []
  | skip + 1, c :: rest => c :: breakOccurrences needle skip rest
  | 0, c :: rest =>
    if startsIgnoringCase needle (c :: rest) then
      c :: '\\' :: breakOccurrences needle (needle.length - 1) rest
    else c :: breakOccurrences needle 0 rest

/-- The start of the closing tag of an element, in small letters. -/
def closingTag (tag : Text) : Text :=
  '<' :: '/' :: Text.asciiLowercase tag

/-- `text` so that it cannot close an element `tag` that it stands in. -/
def escapeClosingTag (tag text : Text) : Text :=
  breakOccurrences (closingTag tag) 0 text

end PageCompiler.Markup
