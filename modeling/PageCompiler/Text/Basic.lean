/-! # Texts

A text is the list of its characters, so that a function on texts is a plain recursion. Offsets into
a text count UTF-8 bytes, as editors and other tools do; `byteSize`, `takeBytes` and `dropBytes` are
the only places that know how many bytes a character takes.
-/

namespace PageCompiler

/-- A text is the list of its characters. -/
abbrev Text := List Char

namespace Text

/-! ## Bytes -/

/-- The number of bytes of `text` in UTF-8. -/
def byteSize (text : Text) : Nat :=
  text.foldr (fun c size => c.utf8Size + size) 0

/-- The longest prefix of the text that takes at most `limit` bytes. -/
def takeBytes (limit : Nat) : Text → Text
  | [] => []
  | c :: rest => if c.utf8Size ≤ limit then c :: takeBytes (limit - c.utf8Size) rest else []

/-- What follows the longest prefix that takes at most `limit` bytes. -/
def dropBytes (limit : Nat) : Text → Text
  | [] => []
  | c :: rest => if c.utf8Size ≤ limit then dropBytes (limit - c.utf8Size) rest else c :: rest

@[simp] theorem byteSize_nil : byteSize [] = 0 := rfl

@[simp] theorem byteSize_cons (c : Char) (rest : Text) :
    byteSize (c :: rest) = c.utf8Size + byteSize rest := rfl

@[simp] theorem byteSize_append (first second : Text) :
    byteSize (first ++ second) = byteSize first + byteSize second := by
  induction first with
  | nil => simp
  | cons c rest ih => simp [ih, Nat.add_assoc]

/-- Cutting a text at an offset loses nothing. -/
theorem takeBytes_append_dropBytes (limit : Nat) (text : Text) :
    takeBytes limit text ++ dropBytes limit text = text := by
  induction text generalizing limit with
  | nil => rfl
  | cons c rest ih =>
    rw [takeBytes, dropBytes]
    split
    · simpa using ih (limit - c.utf8Size)
    · rfl

theorem byteSize_takeBytes_le (limit : Nat) (text : Text) :
    byteSize (takeBytes limit text) ≤ limit := by
  induction text generalizing limit with
  | nil => simp [takeBytes]
  | cons c rest ih =>
    rw [takeBytes]
    split
    · next fits =>
      have := ih (limit - c.utf8Size)
      rw [byteSize_cons]
      omega
    · simp

/-- The bytes of `text` in UTF-8. -/
def toBytes (text : Text) : ByteArray :=
  (String.ofList text).toUTF8

/-- The text that `bytes` encode, if they are well-formed UTF-8. -/
def ofBytes? (bytes : ByteArray) : Option Text :=
  (String.fromUTF8? bytes).map String.toList

/-! ## Numbers and ranges -/

def ofNat (n : Nat) : Text :=
  Nat.toDigits 10 n

/-- Whether the code point of `c` lies in one of the ranges, both ends included. -/
def inRanges (ranges : List (Nat × Nat)) (c : Char) : Bool :=
  ranges.any fun (first, last) => first ≤ c.toNat && c.toNat ≤ last

/-! ## Cutting and joining -/

/-- The texts one after the other, with `separator` between neighbours. -/
def join (separator : Text) (texts : List Text) : Text :=
  List.intercalate separator texts

theorem eq_append_of_isPrefixOf? {start text rest : Text}
    (found : start.isPrefixOf? text = some rest) : text = start ++ rest := by
  induction start generalizing text with
  | nil =>
    cases found
    rfl
  | cons c start ih =>
    cases text with
    | nil => cases found
    | cons d text =>
      change (if c == d then start.isPrefixOf? text else none) = some rest at found
      split at found
      · next same => simp [ih found, eq_of_beq same]
      · simp at found

/-- The text before the first occurrence of `needle` and the text after it. -/
def cut? (needle : Text) : Text → Option (Text × Text)
  | [] => if needle.isEmpty then some ([], []) else none
  | c :: rest =>
    match needle.isPrefixOf? (c :: rest) with
    | some after => some ([], after)
    | none => (cut? needle rest).map fun (before, after) => (c :: before, after)

theorem eq_append_of_cut? {needle text before after : Text}
    (found : cut? needle text = some (before, after)) : text = before ++ needle ++ after := by
  induction text generalizing before with
  | nil =>
    rw [cut?] at found
    split at found
    · next empty => simp_all
    · simp at found
  | cons c rest ih =>
    rw [cut?] at found
    split at found
    · next starts =>
      obtain ⟨rfl, rfl⟩ := by simpa using found
      simpa using eq_append_of_isPrefixOf? starts
    · obtain ⟨⟨inner, behind⟩, inner_found, same⟩ := Option.map_eq_some_iff.1 found
      obtain ⟨rfl, rfl⟩ := by simpa using same
      simp [ih inner_found]

def contains (text needle : Text) : Bool :=
  (cut? needle text).isSome

/-- `text` without `ending`, if it ends in it. -/
def withoutSuffix? (ending text : Text) : Option Text :=
  (ending.reverse.isPrefixOf? text.reverse).map List.reverse

end Text

end PageCompiler
