import PageCompiler.Json.Value
import PageCompiler.Script.Literal

/-! # Writing JSON

Documents on one line, without a blank between their parts. Strings escape quotes, backslashes and
control characters and leave everything else as it is.
-/

namespace PageCompiler.Json

/-- How a character is written inside a string. -/
def escapeChar (c : Char) : Text :=
  if c = '"' then ['\\', '"']
  else if c = '\\' then ['\\', '\\']
  else if c = '\n' then ['\\', 'n']
  else if c = '\r' then ['\\', 'r']
  else if c = '\t' then ['\\', 't']
  else if c = '\x08' then ['\\', 'b']
  else if c = '\x0c' then ['\\', 'f']
  else if c.toNat < 0x20 then Script.unitEscape c.toNat
  else [c]

def quote (text : Text) : Text :=
  '"' :: text.flatMap escapeChar ++ ['"']

mutual

def Value.render : Value → Text
  | .null => "null".toList
  | .bool true => "true".toList
  | .bool false => "false".toList
  | .number literal => literal
  | .string text? => quote (text?.getD [])
  | .array items => '[' :: Text.join [','] (renderItems items) ++ [']']
  | .object members => '\x7b' :: Text.join [','] (renderMembers members) ++ ['\x7d']

def renderItems : List Value → List Text
  | [] => []
  | item :: others => item.render :: renderItems others

def renderMembers : List (Option Text × Value) → List Text
  | [] => []
  | (name?, content) :: others =>
    (quote (name?.getD []) ++ ':' :: content.render) :: renderMembers others

end

end PageCompiler.Json
