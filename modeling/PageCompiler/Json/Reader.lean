import PageCompiler.Json.Value

/-! # Reading JSON

A strict reader: no comments, no trailing commas, no control characters in strings, and nothing
behind the document but white space. Every step takes at least a character, so the length of the
text bounds the recursion. A function that reads a part of the document gives the part together with
the text behind it.
-/

namespace PageCompiler.Json

/-- Reads a part of a document at the head of a text. -/
abbrev Reader (α : Type) := Text → Option (α × Text)

def isSpace (c : Char) : Bool :=
  c == ' ' || c == '\n' || c == '\t' || c == '\r'

def skipSpace (text : Text) : Text :=
  text.dropWhile isSpace

/-! ## Strings -/

def hexValue? (c : Char) : Option Nat :=
  if '0' ≤ c ∧ c ≤ '9' then some (c.toNat - 48)
  else if 'a' ≤ c ∧ c ≤ 'f' then some (c.toNat - 87)
  else if 'A' ≤ c ∧ c ≤ 'F' then some (c.toNat - 55)
  else none

/-- The number that four hexadecimal digits write. -/
def hexQuad? (a b c d : Char) : Option Nat := do
  return (((← hexValue? a) * 16 + (← hexValue? b)) * 16 + (← hexValue? c)) * 16 + (← hexValue? d)

/-- The character that an escape with one letter stands for. -/
def simpleEscape? : Char → Option Char
  | '"' => some '"'
  | '\\' => some '\\'
  | '/' => some '/'
  | 'b' => some '\x08'
  | 'f' => some '\x0c'
  | 'n' => some '\n'
  | 'r' => some '\r'
  | 't' => some '\t'
  | _ => none

/-- The code points and surrogates of a string whose opening quote has been read. -/
def stringUnits : Reader (List Nat)
  | [] => none
  | '"' :: rest => some ([], rest)
  | '\\' :: 'u' :: a :: b :: c :: d :: rest => do
    let unit ← hexQuad? a b c d
    let (units, after) ← stringUnits rest
    return (unit :: units, after)
  | '\\' :: c :: rest => do
    let escaped ← simpleEscape? c
    let (units, after) ← stringUnits rest
    return (escaped.toNat :: units, after)
  | c :: rest =>
    if c.toNat < 0x20 then none
    else do
      let (units, after) ← stringUnits rest
      return (c.toNat :: units, after)

/-- The text of code points and surrogates; none if a surrogate has no partner. -/
def textOfUnits? : List Nat → Option Text
  | [] => some []
  | unit :: rest =>
    if 0xD800 ≤ unit ∧ unit < 0xDC00 then
      match rest with
      | low :: rest =>
        if 0xDC00 ≤ low ∧ low < 0xE000 then
          (textOfUnits? rest).map
            (Char.ofNat (0x10000 + (unit - 0xD800) * 0x400 + (low - 0xDC00)) :: ·)
        else none
      | [] => none
    else if 0xDC00 ≤ unit ∧ unit < 0xE000 then none
    else (textOfUnits? rest).map (Char.ofNat unit :: ·)

/-! ## Numbers -/

def digits : Reader Text := fun text =>
  let run := text.takeWhile Char.isDigit
  if run.isEmpty then none else some (run, text.dropWhile Char.isDigit)

/-- The digits in front of the decimal point, without a superfluous zero. -/
def integerPart : Reader Text := fun text => do
  let (run, rest) ← digits text
  if run.head? = some '0' ∧ run.length ≠ 1 then none else return (run, rest)

/-- A decimal point and digits, or nothing. -/
def fractionPart : Reader Text := fun text =>
  match text with
  | '.' :: rest => (digits rest).map fun (run, rest) => ('.' :: run, rest)
  | _ => some ([], text)

def exponentPart : Reader Text := fun text =>
  match text with
  | c :: rest =>
    if c = 'e' ∨ c = 'E' then
      match rest with
      | '+' :: rest => (digits rest).map fun (run, rest) => ('e' :: run, rest)
      | '-' :: rest => (digits rest).map fun (run, rest) => ('e' :: '-' :: run, rest)
      | _ => (digits rest).map fun (run, rest) => ('e' :: run, rest)
    else some ([], text)
  | [] => some ([], text)

/-- A number without its sign. -/
def unsignedNumber : Reader Text := fun text => do
  let (whole, rest) ← integerPart text
  let (fraction, rest) ← fractionPart rest
  let (exponent, rest) ← exponentPart rest
  return (whole ++ fraction ++ exponent, rest)

def number : Reader Text := fun text =>
  match text with
  | '-' :: rest => (unsignedNumber rest).map fun (literal, rest) => ('-' :: literal, rest)
  | _ => unsignedNumber text

/-! ## Values -/

/-- The words of the language. -/
def word? : Reader Value := fun text =>
  (("true".toList.isPrefixOf? text).map fun rest => (Value.bool true, rest)).or <|
    (("false".toList.isPrefixOf? text).map fun rest => (Value.bool false, rest)).or <|
      ("null".toList.isPrefixOf? text).map fun rest => (Value.null, rest)

/-- Reads the items of a list that are separated by commas, up to the closing character. -/
def itemsBy {α : Type} (item : Reader α) (closing : Char) : Nat → Reader (List α)
  | 0, _ => none
  | fuel + 1, text => do
    let (first, rest) ← item text
    match skipSpace rest with
    | ',' :: rest =>
      let (others, after) ← itemsBy item closing fuel rest
      return (first :: others, after)
    | c :: after => if c = closing then return ([first], after) else none
    | [] => none

/-- Reads a list whose opening character has been read. -/
def listBy {α : Type} (item : Reader α) (closing : Char) : Reader (List α) := fun text =>
  match skipSpace text with
  | c :: rest =>
    if c = closing then some ([], rest) else itemsBy item closing text.length (c :: rest)
  | [] => none

/-- Reads a member of an object; `value` reads what stands behind the colon. -/
def member (value : Reader Value) : Reader (Option Text × Value) := fun text =>
  match skipSpace text with
  | '"' :: rest => do
    let (units, rest) ← stringUnits rest
    match skipSpace rest with
    | ':' :: rest =>
      let (content, after) ← value rest
      return ((textOfUnits? units, content), after)
    | _ => none
  | _ => none

/-- Reads a value that nests at most `fuel` deep. -/
def value : Nat → Reader Value
  | 0, _ => none
  | fuel + 1, text =>
    match skipSpace text with
    | '"' :: rest =>
      (stringUnits rest).map fun (units, after) => (.string (textOfUnits? units), after)
    | '[' :: rest => (listBy (value fuel) ']' rest).map fun (items, after) => (.array items, after)
    | '\x7b' :: rest =>
      (listBy (member (value fuel)) '\x7d' rest).map fun (members, after) =>
        (.object members, after)
    | text =>
      (word? text).or ((number text).map fun (literal, after) => (.number literal, after))

def parse? (text : Text) : Option Value :=
  match value (text.length + 1) text with
  | some (document, rest) => if (skipSpace rest).isEmpty then some document else none
  | none => none

end PageCompiler.Json
