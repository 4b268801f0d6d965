import PageCompiler.Text.Basic

/-! # JSON documents

A JSON document as its text says it, before any question of what it means: numbers keep their
digits, objects keep repeated names, and a string whose escapes pair up to no text is a string
without text.
-/

namespace PageCompiler.Json

inductive Value where
  | null
  | bool (value : Bool)
  /-- A number, as it is written. -/
  | number (literal : Text)
  /-- A string; it has no text if a surrogate stands alone in it. -/
  | string (text? : Option Text)
  | array (items : List Value)
  | object (members : List (Option Text × Value))

namespace Value

def ofText (text : Text) : Value :=
  string (some text)

def ofNat (n : Nat) : Value :=
  number (Text.ofNat n)

def ofMembers (members : List (Text × Value)) : Value :=
  object (members.map fun (name, value) => (some name, value))

end Value

mutual

/-- How deep arrays and objects are nested in a document. -/
def Value.depth : Value → Nat
  | .array items => depthOfItems items + 1
  | .object members => depthOfMembers members + 1
  | _ => 0

def depthOfItems : List Value → Nat
  | [] => 0
  | item :: others => max item.depth (depthOfItems others)

def depthOfMembers : List (Option Text × Value) → Nat
  | [] => 0
  | (_, content) :: others => max content.depth (depthOfMembers others)

end

/-! ## Representable documents -/

/-- The digits and the decimal exponent of a number literal. -/
def splitLiteral (literal : Text) : Text × Int :=
  let mantissa : Text := literal.takeWhile fun c => c != 'e' && c != 'E'
  let exponent : Text := literal.drop (mantissa.length + 1)
  let size : Nat := ((exponent.filter Char.isDigit).foldl (fun n c => n * 10 + (c.toNat - 48)) 0)
  let fraction : Text := (mantissa.dropWhile (· != '.')).drop 1
  let sign : Int := if exponent.head? = some '-' then -1 else 1
  (mantissa.filter Char.isDigit, sign * size - fraction.length)

/-- Whether a number literal rounds to a finite binary64 number. -/
def isRepresentable (literal : Text) : Bool :=
  let (digits, exponent) := splitLiteral literal
  let significand : Nat := digits.foldl (fun n c => n * 10 + (c.toNat - 48)) 0
  if significand = 0 then true
  else if exponent ≤ 0 then
    significand / Nat.pow 10 (Nat.min exponent.natAbs digits.length) < Nat.pow 2 1024
  else if 308 < exponent then false
  else significand * Nat.pow 10 exponent.toNat < Nat.pow 2 1024 - Nat.pow 2 970

mutual

/-- Whether every string of a document has a text and every number is representable. -/
def Value.isSound : Value → Bool
  | .null | .bool _ => true
  | .number literal => isRepresentable literal
  | .string text? => text?.isSome
  | .array items => areItemsSound items
  | .object members => areMembersSound members

def areItemsSound : List Value → Bool
  | [] => true
  | item :: others => item.isSound && areItemsSound others

def areMembersSound : List (Option Text × Value) → Bool
  | [] => true
  | (name?, content) :: others => name?.isSome && content.isSound && areMembersSound others

end

end PageCompiler.Json
