import PageCompiler.Text.LetterCase
import PageCompiler.Text.Space

/-! # Module names

A module name is a list of segments joined by dots, at least two: the last one is the identifier,
the others are the namespaces it lives in. `ModuleName.parse` is the only way from a text to a name,
and a name carries the fact that its segments are well formed.
-/

namespace PageCompiler

/-! ## Words of a name -/

/-- A character of a name segment: an ASCII letter or digit, `_` or `$`. -/
def isSegmentChar (c : Char) : Bool :=
  c.isAlphanum || c == '_' || c == '$'

/-- A segment of a module name: one or more segment characters. -/
def isNameSegment (text : Text) : Bool :=
  !text.isEmpty && text.all isSegmentChar

/-- An identifier of the script language: a segment that does not start with a digit. -/
def isIdentifier (text : Text) : Bool :=
  isNameSegment text && !(text.head?.any Char.isDigit)

/-! ## Names -/

inductive NameMatching where
  | exact
  | ignoreCase
deriving DecidableEq, Inhabited

structure ModuleName where
  /-- The namespaces, outermost first. -/
  qualifier : List Text
  identifier : Text
  qualifier_ne_nil : qualifier ≠ []
  segments_valid : ∀ segment ∈ qualifier ++ [identifier], isNameSegment segment = true
deriving DecidableEq

inductive NameError where
  | empty
  | missingNamespace (name : Text)
  | invalidSegment (name segment : Text)
deriving DecidableEq

namespace NameError

def message : NameError → Text
  | empty => "module name is empty".toList
  | missingNamespace name =>
    "module name '".toList ++ name
      ++ "' has no namespace (expected namespace.Identifier)".toList
  | invalidSegment name segment =>
    "module name '".toList ++ name ++ "' contains an invalid segment '".toList ++ segment
      ++ "'".toList

end NameError

namespace ModuleName

def segments (name : ModuleName) : List Text :=
  name.qualifier ++ [name.identifier]

def namespaceText (name : ModuleName) : Text :=
  Text.join ['.'] name.qualifier

def qualified (name : ModuleName) : Text :=
  Text.join ['.'] name.segments

/-- The text under which a name is registered. -/
def key (matching : NameMatching) (name : ModuleName) : Text :=
  match matching with
  | .exact => name.qualified
  | .ignoreCase => Text.lowercase name.qualified

/-- Reads a name; white space around it does not matter. -/
def parse (text : Text) : Except NameError ModuleName :=
  let trimmed := Text.trim text
  if trimmed.isEmpty then .error .empty
  else
    match trimmed.splitOn '.' with
    | first :: second :: others =>
      let init := (first :: second :: others).dropLast
      let last := (first :: second :: others).getLast (by simp)
      match invalid : (init ++ [last]).find? fun segment => !isNameSegment segment with
      | some segment => .error (.invalidSegment trimmed segment)
      | none => .ok {
          qualifier := init
          identifier := last
          qualifier_ne_nil := by simp [init]
          segments_valid := fun segment member => by
            simpa using List.find?_eq_none.1 invalid segment member }
    | _ => .error (.missingNamespace trimmed)

end ModuleName

end PageCompiler
