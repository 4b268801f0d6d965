import Mathlib.Tactic.SplitIfs
import PageCompiler.Json.Reader
import PageCompiler.Markup.Escape
import PageCompiler.Script.Literal

/-! # Reading string literals

A string literal stands for a sequence of UTF-16 units: `literalUnits?` reads them as the script
language does, and `literalText?` puts them together to a text. Reading what `stringLiteral` writes
gives the text back. A literal may stand in a `script` element, where every `</` of a closing tag
gets a backslash; what this adds is an escape of its own, so reading gives the same text.
-/

namespace PageCompiler.Script

/-! ## Literals -/

/-- Characters and escapes in a row: a quote or a backslash stands only behind a backslash. -/
inductive IsEscaped : Text → Prop where
  | nil : IsEscaped []
  | plain {c : Char} {rest : Text} (notQuote : c ≠ '"') (notBackslash : c ≠ '\\')
      (others : IsEscaped rest) : IsEscaped (c :: rest)
  | escape (c : Char) {rest : Text} (others : IsEscaped rest) : IsEscaped ('\\' :: c :: rest)

/-- Whether a character may stand in a literal as it is, if it is not a quote or a backslash. -/
def IsInline (c : Char) : Prop :=
  c ≠ '\n' ∧ c ≠ '\r' ∧ c ≠ '\u2028' ∧ c ≠ '\u2029' ∧ (c.toNat < 0x20 → c = '\t')

instance (c : Char) : Decidable (IsInline c) :=
  inferInstanceAs (Decidable (_ ∧ _))

/-- A string literal in double quotes, on one line. -/
structure IsLiteral (text : Text) : Prop where
  quoted : ∃ inside, text = '"' :: inside ++ ['"'] ∧ IsEscaped inside
  oneLine : ∀ c ∈ text, IsInline c

/-- What a character stands for behind a backslash. -/
def escapedChar? (c : Char) : Option Char :=
  if c = '\\' ∨ c = '"' ∨ c = '/' then some c
  else if c = 'n' then some '\n'
  else if c = 'r' then some '\r'
  else none

/-- The UTF-16 units of a literal whose opening quote has been read. Nothing may follow the closing
quote. -/
def literalUnits? : Text → Option (List Nat)
  | [] => none
  | ['"'] => some []
  | '\\' :: 'u' :: a :: b :: c :: d :: rest => do
    let unit ← Json.hexQuad? a b c d
    let units ← literalUnits? rest
    return unit :: units
  | '\\' :: c :: rest => do
    let escaped ← escapedChar? c
    let units ← literalUnits? rest
    return utf16Units escaped ++ units
  | c :: rest =>
    if c = '"' ∨ c = '\\' then none
    else do
      let units ← literalUnits? rest
      return utf16Units c ++ units

/-- The text that a string literal stands for. -/
def literalText? : Text → Option Text
  | '"' :: rest => (literalUnits? rest).bind Json.textOfUnits?
  | _ => none

/-! ## Units -/

theorem hexValue?_hexDigit (n : Nat) : Json.hexValue? (hexDigit n) = some (n % 16) := by
  have digits : ∀ value < 16, Json.hexValue? (Nat.digitChar value) = some value := by decide
  exact digits _ (Nat.mod_lt n (by decide))

theorem hexQuad?_hexDigits {unit : Nat} (small : unit < 0x10000) :
    Json.hexQuad? (hexDigit (unit / 0x1000)) (hexDigit (unit / 0x100)) (hexDigit (unit / 0x10))
      (hexDigit unit) = some unit := by
  simp only [Json.hexQuad?, hexValue?_hexDigit, Option.bind_eq_bind, Option.bind_some,
    Option.pure_def, Option.some.injEq]
  omega

theorem literalUnits?_unitEscape {unit : Nat} (small : unit < 0x10000) (rest : Text) :
    literalUnits? (unitEscape unit ++ rest) = (literalUnits? rest).map (unit :: ·) := by
  simp only [unitEscape, List.cons_append, List.nil_append, literalUnits?, hexQuad?_hexDigits small]
  cases literalUnits? rest <;> rfl

/-- Surrogates are not characters. -/
theorem toNat_range (c : Char) :
    c.toNat < 0xD800 ∨ 0xDFFF < c.toNat ∧ c.toNat < 0x110000 :=
  c.valid

theorem utf16Units_lt (c : Char) : ∀ unit ∈ utf16Units c, unit < 0x10000 := by
  have valid := toNat_range c
  rw [utf16Units]
  split
  · simpa using ‹_›
  · intro unit member
    simp only [List.mem_cons, List.not_mem_nil, or_false] at member
    omega

/-- A character is put together again from its units, whatever follows it. -/
theorem textOfUnits?_utf16Units (c : Char) (rest : List Nat) :
    Json.textOfUnits? (utf16Units c ++ rest) = (Json.textOfUnits? rest).map (c :: ·) := by
  have valid := toNat_range c
  rw [utf16Units]
  split
  case isTrue small =>
    have notHigh : ¬ (0xD800 ≤ c.toNat ∧ c.toNat < 0xDC00) := by omega
    have notLow : ¬ (0xDC00 ≤ c.toNat ∧ c.toNat < 0xE000) := by omega
    rw [List.singleton_append, Json.textOfUnits?.eq_def]
    simp only [notHigh, notLow, if_false, Char.ofNat_toNat]
  case isFalse large =>
    -- The two units are a high and a low surrogate, and they name the character again.
    have high : 0xD800 ≤ 0xD800 + (c.toNat - 0x10000) / 0x400 ∧
        0xD800 + (c.toNat - 0x10000) / 0x400 < 0xDC00 := by omega
    have low : 0xDC00 ≤ 0xDC00 + (c.toNat - 0x10000) % 0x400 ∧
        0xDC00 + (c.toNat - 0x10000) % 0x400 < 0xE000 := by omega
    have named : 0x10000 + (0xD800 + (c.toNat - 0x10000) / 0x400 - 0xD800) * 0x400 +
        (0xDC00 + (c.toNat - 0x10000) % 0x400 - 0xDC00) = c.toNat := by omega
    rw [List.cons_append, List.singleton_append, Json.textOfUnits?.eq_def]
    simp only [high, low, and_self, if_true, named, Char.ofNat_toNat]

theorem textOfUnits?_flatMap (text : Text) :
    Json.textOfUnits? (text.flatMap utf16Units) = some text := by
  induction text with
  | nil => rfl
  | cons c rest inductionHypothesis =>
    rw [List.flatMap_cons, textOfUnits?_utf16Units, inductionHypothesis, Option.map_some]

/-! ## Read literals -/

/-- What is not a hexadecimal digit does not stand among four of them. -/
theorem hexQuad?_ne {other : Char} (noDigit : Json.hexValue? other = none) {a b c d : Char}
    {unit : Nat} (reads : Json.hexQuad? a b c d = some unit) :
    a ≠ other ∧ b ≠ other ∧ c ≠ other ∧ d ≠ other := by
  simp only [Json.hexQuad?, Option.bind_eq_bind, Option.bind_eq_some_iff] at reads
  obtain ⟨_, first, _, second, _, third, _, fourth, -⟩ := reads
  refine ⟨?_, ?_, ?_, ?_⟩ <;> rintro rfl <;> simp_all

theorem hexValue?_quote : Json.hexValue? '"' = none := by decide

theorem hexValue?_backslash : Json.hexValue? '\\' = none := by decide

/-- Whatever can be read to the end of the text holds no other quote that ends it. -/
theorem exists_isEscaped_of_literalUnits? {text : Text} {units : List Nat}
    (reads : literalUnits? text = some units) :
    ∃ inside, text = inside ++ ['"'] ∧ IsEscaped inside := by
  fun_induction literalUnits? text generalizing units with
  | case1 => cases reads
  | case2 => exact ⟨[], rfl, .nil⟩
  | case3 a b c d rest inductionHypothesis =>
    obtain ⟨unit, quad, others, readsRest, -⟩ := by
      simpa only [Option.bind_eq_bind, Option.bind_eq_some_iff] using reads
    obtain ⟨inside, rfl, escaped⟩ := inductionHypothesis readsRest
    obtain ⟨quoteA, quoteB, quoteC, quoteD⟩ := hexQuad?_ne hexValue?_quote quad
    obtain ⟨slashA, slashB, slashC, slashD⟩ := hexQuad?_ne hexValue?_backslash quad
    exact ⟨'\\' :: 'u' :: a :: b :: c :: d :: inside, rfl, .escape 'u' (.plain quoteA slashA
      (.plain quoteB slashB (.plain quoteC slashC (.plain quoteD slashD escaped))))⟩
  | case4 c rest _ inductionHypothesis =>
    obtain ⟨_, -, others, readsRest, -⟩ := by
      simpa only [Option.bind_eq_bind, Option.bind_eq_some_iff] using reads
    obtain ⟨inside, rfl, escaped⟩ := inductionHypothesis readsRest
    exact ⟨'\\' :: c :: inside, rfl, .escape c escaped⟩
  | case5 => cases reads
  | case6 c rest _ _ _ plain inductionHypothesis =>
    obtain ⟨others, readsRest, -⟩ := by
      simpa only [Option.bind_eq_bind, Option.bind_eq_some_iff] using reads
    obtain ⟨inside, rfl, escaped⟩ := inductionHypothesis readsRest
    rw [not_or] at plain
    exact ⟨c :: inside, rfl, .plain plain.1 plain.2 escaped⟩

/-! ## Written characters -/

theorem literalUnits?_unitEscapes {units : List Nat} (small : ∀ unit ∈ units, unit < 0x10000)
    (rest : Text) :
    literalUnits? (units.flatMap unitEscape ++ rest) = (literalUnits? rest).map (units ++ ·) := by
  induction units with
  | nil => simp
  | cons unit units inductionHypothesis =>
    rw [List.flatMap_cons, List.append_assoc, literalUnits?_unitEscape (small _ List.mem_cons_self),
      inductionHypothesis fun other member => small other (List.mem_cons_of_mem _ member),
      Option.map_map]
    rfl

theorem literalUnits?_plain {c : Char} (notQuote : c ≠ '"') (notBackslash : c ≠ '\\')
    (rest : Text) : literalUnits? (c :: rest) = (literalUnits? rest).map (utf16Units c ++ ·) := by
  rw [literalUnits?]
  · rw [if_neg (by simp [notQuote, notBackslash])]
    cases literalUnits? rest <;> rfl
  · rintro rfl
    exact absurd rfl notQuote
  · exact fun _ _ _ _ _ same => absurd same notBackslash
  · exact fun _ _ same => absurd same notBackslash

theorem literalUnits?_escape {c escaped : Char} (stands : escapedChar? c = some escaped)
    (rest : Text) :
    literalUnits? ('\\' :: c :: rest) = (literalUnits? rest).map (utf16Units escaped ++ ·) := by
  rw [literalUnits?]
  · rw [stands]
    cases literalUnits? rest <;> rfl
  · rintro a b c' d after rfl -
    simp [escapedChar?] at stands

/-- Whatever follows it, a character is read as its own units. -/
theorem literalUnits?_escapeChar (c : Char) (rest : Text) :
    literalUnits? (escapeChar c ++ rest) = (literalUnits? rest).map (utf16Units c ++ ·) := by
  rw [escapeChar]
  split_ifs with backslash quote lineFeed carriageReturn units
  · subst backslash
    exact literalUnits?_escape rfl rest
  · subst quote
    exact literalUnits?_escape rfl rest
  · subst lineFeed
    exact literalUnits?_escape rfl rest
  · subst carriageReturn
    exact literalUnits?_escape rfl rest
  · exact literalUnits?_unitEscapes (utf16Units_lt c) rest
  · exact literalUnits?_plain quote backslash rest

theorem literalUnits?_stringLiteral (text : Text) :
    literalUnits? (text.flatMap escapeChar ++ ['"']) = some (text.flatMap utf16Units) := by
  induction text with
  | nil => rfl
  | cons c rest inductionHypothesis =>
    rw [List.flatMap_cons, List.append_assoc, literalUnits?_escapeChar, inductionHypothesis]
    rfl

/-! ## Closing tags -/

section

open PageCompiler.Markup (breakOccurrences closingTag escapeClosingTag startsIgnoringCase)

/-- Only a small letter can come from another character. -/
theorem eq_of_asciiLower {c d : Char} (low : d.toNat < 97) (same : Text.asciiLower c = d) :
    c = d := by
  delta Text.asciiLower Char.toLower at same
  split at same
  · next capital =>
    have above : 65 ≤ c.val.toNat ∧ c.val.toNat ≤ 90 :=
      ⟨UInt32.le_iff_toNat_le.mp capital.1, UInt32.le_iff_toNat_le.mp capital.2⟩
    have step : ('a'.val - 'A'.val).toNat = 32 := rfl
    have moved : d.toNat = c.val.toNat + 32 := by
      rw [← same, Char.toNat, UInt32.toNat_add, step]
      exact Nat.mod_eq_of_lt (by omega)
    omega
  · exact same

/-- The start of a closing tag begins with the two characters between which it is broken. -/
theorem startsIgnoringCase_closingTag {tag text : Text}
    (starts : startsIgnoringCase (closingTag tag) text = true) :
    ∃ after, text = '<' :: '/' :: after := by
  rw [startsIgnoringCase, beq_iff_eq, closingTag] at starts
  match text with
  | [] | [c] => simp [Text.asciiLowercase] at starts
  | c :: d :: after =>
    simp only [List.length_cons, List.take_succ_cons, Text.asciiLowercase, List.map_cons,
      List.cons.injEq] at starts
    rw [eq_of_asciiLower (by decide) starts.1, eq_of_asciiLower (by decide) starts.2.1]
    exact ⟨after, rfl⟩

theorem breakOccurrences_of_ne {c : Char} (other : c ≠ '<') (tag : Text) (skip : Nat)
    (rest : Text) :
    breakOccurrences (closingTag tag) skip (c :: rest) =
      c :: breakOccurrences (closingTag tag) (skip - 1) rest := by
  cases skip with
  | succ skip => rfl
  | zero =>
    rw [breakOccurrences, if_neg]
    intro starts
    obtain ⟨after, same⟩ := startsIgnoringCase_closingTag starts
    exact other (List.cons.inj same).1

/-- A backslash is put between the two characters of `</` and nowhere else. -/
theorem breakOccurrences_cases (tag : Text) (skip : Nat) (rest : Text) :
    (∃ next, breakOccurrences (closingTag tag) skip ('<' :: rest) =
        '<' :: breakOccurrences (closingTag tag) next rest) ∨
      ∃ next after, rest = '/' :: after ∧
        breakOccurrences (closingTag tag) skip ('<' :: rest) =
          '<' :: '\\' :: '/' :: breakOccurrences (closingTag tag) next after := by
  cases skip with
  | succ skip => exact .inl ⟨skip, rfl⟩
  | zero =>
    rw [breakOccurrences]
    split
    · next starts =>
      obtain ⟨after, same⟩ := startsIgnoringCase_closingTag starts
      obtain rfl := (List.cons.inj same).2
      exact .inr ⟨_, after, rfl, by rw [breakOccurrences_of_ne (by decide)]⟩
    · exact .inl ⟨0, rfl⟩

theorem literalUnits?_breakOccurrences (tag : Text) (skip : Nat) {text : Text} {units : List Nat}
    (reads : literalUnits? text = some units) :
    literalUnits? (breakOccurrences (closingTag tag) skip text) = some units := by
  fun_induction literalUnits? text generalizing skip units with
  | case1 => cases reads
  | case2 =>
    rw [breakOccurrences_of_ne (by decide)]
    exact reads
  | case3 a b c d rest inductionHypothesis =>
    obtain ⟨unit, quad, others, readsRest, same⟩ := by
      simpa only [Option.bind_eq_bind, Option.bind_eq_some_iff] using reads
    obtain ⟨notA, notB, notC, notD⟩ := hexQuad?_ne (show Json.hexValue? '<' = none by decide) quad
    simp only [breakOccurrences_of_ne (show '\\' ≠ '<' by decide),
      breakOccurrences_of_ne (show 'u' ≠ '<' by decide), breakOccurrences_of_ne notA,
      breakOccurrences_of_ne notB, breakOccurrences_of_ne notC, breakOccurrences_of_ne notD]
    rw [literalUnits?, quad, inductionHypothesis _ readsRest]
    exact same
  | case4 c rest noUnit inductionHypothesis =>
    obtain ⟨escaped, stands, others, readsRest, same⟩ := by
      simpa only [Option.bind_eq_bind, Option.bind_eq_some_iff] using reads
    have notOpening : c ≠ '<' := by
      rintro rfl
      simp [escapedChar?] at stands
    rw [breakOccurrences_of_ne (by decide), breakOccurrences_of_ne notOpening,
      literalUnits?_escape stands, inductionHypothesis _ readsRest]
    exact same
  | case5 => cases reads
  | case6 c rest _ _ _ plain inductionHypothesis =>
    rw [not_or] at plain
    obtain ⟨others, readsRest, same⟩ := by
      simpa only [Option.bind_eq_bind, Option.bind_eq_some_iff] using reads
    by_cases opening : c = '<'
    · subst opening
      obtain ⟨next, kept⟩ | ⟨next, after, rfl, broken⟩ := breakOccurrences_cases tag skip rest
      · rw [kept, literalUnits?_plain plain.1 plain.2, inductionHypothesis _ readsRest]
        exact same
      · have readsBroken := inductionHypothesis (next + 1) readsRest
        rw [breakOccurrences_of_ne (by decide), literalUnits?_plain (by decide) (by decide)]
          at readsBroken
        rw [broken, literalUnits?_plain plain.1 plain.2, literalUnits?_escape rfl]
        rw [Nat.add_sub_cancel] at readsBroken
        exact (congrArg _ readsBroken).trans same
    · rw [breakOccurrences_of_ne opening, literalUnits?_plain plain.1 plain.2,
        inductionHypothesis _ readsRest]
      exact same

theorem mem_breakOccurrences {needle : Text} {skip : Nat} {text : Text} {c : Char}
    (member : c ∈ breakOccurrences needle skip text) : c ∈ text ∨ c = '\\' := by
  fun_induction breakOccurrences needle skip text with
  | case1 => cases member
  | case2 skip first rest inductionHypothesis =>
    rcases List.mem_cons.mp member with rfl | later
    · exact .inl List.mem_cons_self
    · exact (inductionHypothesis later).imp_left (List.mem_cons_of_mem _)
  | case3 first rest starts inductionHypothesis =>
    rcases List.mem_cons.mp member with rfl | later
    · exact .inl List.mem_cons_self
    rcases List.mem_cons.mp later with rfl | last
    · exact .inr rfl
    · exact (inductionHypothesis last).imp_left (List.mem_cons_of_mem _)
  | case4 first rest unlike inductionHypothesis =>
    rcases List.mem_cons.mp member with rfl | later
    · exact .inl List.mem_cons_self
    · exact (inductionHypothesis later).imp_left (List.mem_cons_of_mem _)

end

/-! ## Whole literals -/

theorem isInline_of_mem_unitEscape {unit : Nat} : ∀ c ∈ unitEscape unit, IsInline c := by
  have digits : ∀ value < 16, IsInline (Nat.digitChar value) := by decide
  have digit (n : Nat) : IsInline (hexDigit n) := digits _ (Nat.mod_lt n (by decide))
  have slash : IsInline '\\' := by decide
  have letter : IsInline 'u' := by decide
  simp [unitEscape, slash, letter, digit]

theorem isInline_of_mem_escapeChar (c : Char) : ∀ written ∈ escapeChar c, IsInline written := by
  have escape (letter : Char) (inline : IsInline letter) :
      ∀ written ∈ ['\\', letter], IsInline written := by
    simp [inline, show IsInline '\\' by decide]
  rw [escapeChar]
  split_ifs with backslash quote lineFeed carriageReturn units
  · exact escape '\\' (by decide)
  · exact escape '"' (by decide)
  · exact escape 'n' (by decide)
  · exact escape 'r' (by decide)
  · intro written member
    obtain ⟨unit, -, there⟩ := List.mem_flatMap.mp member
    exact isInline_of_mem_unitEscape written there
  · -- The characters that need units are those that may not stand as they are, and more.
    intro written member
    obtain rfl := List.mem_singleton.mp member
    simp only [needsUnits, Bool.or_eq_true, Bool.and_eq_true, not_or] at units
    refine ⟨lineFeed, carriageReturn, ?_, ?_, ?_⟩ <;> simp_all

theorem isInline_of_mem_stringLiteral {text : Text} : ∀ c ∈ stringLiteral text, IsInline c := by
  have quote : IsInline '"' := by decide
  intro c member
  rw [stringLiteral, List.cons_append, List.mem_cons, List.mem_append, List.mem_singleton] at member
  rcases member with rfl | inside | rfl
  · exact quote
  · obtain ⟨original, -, written⟩ := List.mem_flatMap.mp inside
    exact isInline_of_mem_escapeChar original c written
  · exact quote

/-- What can be read and stays on its line is a literal. -/
theorem isLiteral_of_literalUnits? {rest : Text} {units : List Nat}
    (reads : literalUnits? rest = some units) (oneLine : ∀ c ∈ '"' :: rest, IsInline c) :
    IsLiteral ('"' :: rest) := by
  obtain ⟨inside, rfl, escaped⟩ := exists_isEscaped_of_literalUnits? reads
  exact ⟨⟨inside, rfl, escaped⟩, oneLine⟩

theorem isLiteral_stringLiteral (text : Text) : IsLiteral (stringLiteral text) :=
  isLiteral_of_literalUnits? (literalUnits?_stringLiteral text) isInline_of_mem_stringLiteral

theorem literalText?_written (text : Text) : literalText? (stringLiteral text) = some text := by
  have written : stringLiteral text = '"' :: (text.flatMap escapeChar ++ ['"']) := rfl
  rw [written, literalText?, literalUnits?_stringLiteral]
  exact textOfUnits?_flatMap text

/-- A text is written as a literal on one line, and reading the literal gives the text back. Both
stay so when the closing tags of an element are broken in it. -/
theorem literalText?_stringLiteral (text tag : Text) :
    (IsLiteral (stringLiteral text) ∧ literalText? (stringLiteral text) = some text) ∧
      IsLiteral (Markup.escapeClosingTag tag (stringLiteral text)) ∧
      literalText? (Markup.escapeClosingTag tag (stringLiteral text)) = some text := by
  have written : stringLiteral text = '"' :: (text.flatMap escapeChar ++ ['"']) := rfl
  have reads := literalUnits?_stringLiteral text
  have broken := literalUnits?_breakOccurrences tag 0 reads
  have escaped : Markup.escapeClosingTag tag (stringLiteral text) = '"' ::
      Markup.breakOccurrences (Markup.closingTag tag) 0 (text.flatMap escapeChar ++ ['"']) :=
    breakOccurrences_of_ne (by decide) tag 0 _
  refine ⟨⟨?_, ?_⟩, ?_, ?_⟩
  · exact isLiteral_of_literalUnits? reads isInline_of_mem_stringLiteral
  · rw [written, literalText?, reads]
    exact textOfUnits?_flatMap text
  · rw [escaped]
    refine isLiteral_of_literalUnits? broken fun c member => ?_
    rw [← escaped] at member
    rcases mem_breakOccurrences member with there | rfl
    · exact isInline_of_mem_stringLiteral c there
    · decide
  · rw [escaped, literalText?, broken]
    exact textOfUnits?_flatMap text

/-- The closing tag is broken behind a backslash that has an escape of its own, and the last
character is written in two units. -/
example : Markup.escapeClosingTag "script".toList (stringLiteral "\\</script>\n😀".toList) =
    "\"\\\\<\\/script>\\n\\ud83d\\ude00\"".toList := by decide +kernel

end PageCompiler.Script
