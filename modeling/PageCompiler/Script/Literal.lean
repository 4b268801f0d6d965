import PageCompiler.Text.Alphanumeric

/-! # String literals

A text as a double-quoted string literal of the script language, on one line. Quotes, backslashes
and line breaks are escaped. Beyond U+0200 only letters and numbers stand as they are, so that the
encoding in which a page is served changes little; the rest is written in UTF-16 units.
-/

namespace PageCompiler.Script

def utf16Units (c : Char) : List Nat :=
  if c.toNat < 0x10000 then [c.toNat]
  else [0xD800 + (c.toNat - 0x10000) / 0x400, 0xDC00 + (c.toNat - 0x10000) % 0x400]

def hexDigit (n : Nat) : Char :=
  Nat.digitChar (n % 16)

/-- A UTF-16 unit as an escape with four hexadecimal digits. -/
def unitEscape (unit : Nat) : Text :=
  ['\\', 'u', hexDigit (unit / 0x1000), hexDigit (unit / 0x100), hexDigit (unit / 0x10),
    hexDigit unit]

/-- Whether a character is written in UTF-16 units: the control characters other than tab, the two
Unicode line breaks, and every symbol beyond U+0200. -/
def needsUnits (c : Char) : Bool :=
  (c.toNat < 0x20 && c != '\t') || c == '\u2028' || c == '\u2029'
    || (0x200 < c.toNat && !Text.isAlphanumeric c)

def escapeChar (c : Char) : Text :=
  if c = '\\' then ['\\', '\\']
  else if c = '"' then ['\\', '"']
  else if c = '\n' then ['\\', 'n']
  else if c = '\r' then ['\\', 'r']
  else if needsUnits c then (utf16Units c).flatMap unitEscape
  else [c]

/-- `text` as a string literal, quotes included. -/
def stringLiteral (text : Text) : Text :=
  '"' :: text.flatMap escapeChar ++ ['"']

end PageCompiler.Script
