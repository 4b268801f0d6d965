import PageCompiler.Text.LetterCase

/-! # Letter case leaves punctuation alone

Texts that agree ignoring their letter case have the same dots and slashes: a small letter is never
one of the characters in front of the small letters of ASCII, and such a character is its own small
letter unless it is a capital. In a text of ASCII characters only the letters A to Z change.
-/

namespace PageCompiler.Text

/-- A character of ASCII in front of the small letters, and no capital. -/
structure IsPlain (c : Char) : Prop where
  positive : 0 < c.toNat
  early : c.toNat < 0x61
  noCapital : c.toNat < 0x41 ∨ 0x5A < c.toNat

theorem isPlain_dot : IsPlain '.' := ⟨by decide, by decide, by decide⟩

theorem isPlain_slash : IsPlain '/' := ⟨by decide, by decide, by decide⟩

theorem isPlain_backslash : IsPlain '\\' := ⟨by decide, by decide, by decide⟩

variable {d : Char}

theorem asciiLower_eq_iff (plain : IsPlain d) (c : Char) : asciiLower c = d ↔ c = d := by
  have early := plain.early
  have noCapital := plain.noCapital
  delta asciiLower Char.toLower
  split
  · next capital =>
    have above : 0x41 ≤ c.toNat ∧ c.toNat ≤ 0x5A :=
      ⟨UInt32.le_iff_toNat_le.mp capital.1, UInt32.le_iff_toNat_le.mp capital.2⟩
    have step : ('a'.val - 'A'.val).toNat = 0x20 := rfl
    constructor
    · rintro rfl
      simp only [Char.toNat, UInt32.toNat_add, step] at early above
      omega
    · rintro rfl
      omega
  · rfl

/-- The small letters of the runs come late. -/
theorem small_of_mem_runs : ∀ run ∈ LetterCase.runs, 0x61 ≤ run.2.2.2 := by decide +kernel

/-- A number that is no code point gives the first character. -/
theorem toNat_ofNat (n : Nat) : (Char.ofNat n).toNat = n ∨ (Char.ofNat n).toNat = 0 := by
  by_cases valid : n.isValidChar
  · exact .inl (by rw [Char.ofNat, dif_pos valid]; rfl)
  · exact .inr (by rw [Char.ofNat, dif_neg valid]; rfl)

theorem simpleLower_eq_iff (plain : IsPlain d) (c : Char) : simpleLower c = d ↔ c = d := by
  have early := plain.early
  rw [simpleLower]
  split
  · exact asciiLower_eq_iff plain c
  · next late =>
    have other : c ≠ d := by
      rintro rfl
      omega
    split
    · next first last step small found =>
      have late : 0x61 ≤ small := small_of_mem_runs _ (List.mem_of_find?_eq_some found)
      refine iff_of_false ?_ other
      rintro rfl
      have positive := plain.positive
      have code := toNat_ofNat (small + (c.toNat - first))
      omega
    · rfl

theorem mem_lowerInContext_iff (plain : IsPlain d) (before : Text) (c : Char) (after : Text) :
    d ∈ lowerInContext before c after ↔ d = c := by
  have differs {e : Char} (late : 0x61 ≤ e.toNat) : d ≠ e := by
    have early := plain.early
    rintro rfl
    omega
  rw [lowerInContext]
  split
  · next sigma =>
    subst sigma
    split <;> simp [differs (e := 'ς') (by decide), differs (e := 'σ') (by decide),
      differs (e := 'Σ') (by decide)]
  · split
    · next dotted =>
      subst dotted
      simp [differs (e := 'i') (by decide), differs (e := '\u0307') (by decide),
        differs (e := 'İ') (by decide)]
    · rw [List.mem_singleton, eq_comm, simpleLower_eq_iff plain, eq_comm]

theorem mem_lowercase_iff (plain : IsPlain d) (text : Text) : d ∈ lowercase text ↔ d ∈ text := by
  suffices general : ∀ before, d ∈ lowercaseAfter before text ↔ d ∈ text from general []
  induction text with
  | nil => exact fun _ => .rfl
  | cons c text inductionHypothesis =>
    intro before
    rw [lowercaseAfter, List.mem_append, mem_lowerInContext_iff plain, inductionHypothesis,
      List.mem_cons]

theorem lowerInContext_ne_nil (before : Text) (c : Char) (after : Text) :
    lowerInContext before c after ≠ [] := by
  rw [lowerInContext]
  split
  · split <;> simp
  · split <;> simp

/-- In ASCII no surroundings matter. -/
theorem lowerInContext_of_ascii {c : Char} (ascii : c.toNat < 0x80) (before after : Text) :
    lowerInContext before c after = [asciiLower c] := by
  rw [lowerInContext, if_neg, if_neg, simpleLower, if_pos ascii]
  · rintro rfl
    exact absurd ascii (by decide)
  · rintro rfl
    exact absurd ascii (by decide)

theorem lowercase_of_ascii {text : Text} (ascii : ∀ c ∈ text, c.toNat < 0x80) :
    lowercase text = asciiLowercase text := by
  suffices general : ∀ before, lowercaseAfter before text = asciiLowercase text from general []
  induction text with
  | nil => exact fun _ => rfl
  | cons c text inductionHypothesis =>
    intro before
    rw [List.forall_mem_cons] at ascii
    rw [lowercaseAfter, lowerInContext_of_ascii ascii.1, inductionHypothesis ascii.2]
    rfl

theorem lowerInContext_of_plain {c : Char} (plain : IsPlain c) (before after : Text) :
    lowerInContext before c after = [c] := by
  have early := plain.early
  rw [lowerInContext_of_ascii (by omega), (asciiLower_eq_iff plain c).mpr rfl]

theorem lowercase_of_plain {text : Text} (plain : ∀ c ∈ text, IsPlain c) :
    lowercase text = text := by
  suffices general : ∀ before, lowercaseAfter before text = text from general []
  induction text with
  | nil => exact fun _ => rfl
  | cons c text inductionHypothesis =>
    intro before
    rw [List.forall_mem_cons] at plain
    rw [lowercaseAfter, lowerInContext_of_plain plain.1, inductionHypothesis plain.2]
    rfl

/-- A text whose small form has no letters is its own small form. -/
theorem lowercase_eq_self_of_plain {text : Text} (plain : ∀ c ∈ lowercase text, IsPlain c) :
    lowercase text = text := by
  apply lowercase_of_plain
  suffices general : ∀ before, (∀ c ∈ lowercaseAfter before text, IsPlain c) →
      ∀ c ∈ text, IsPlain c from general [] plain
  clear plain
  induction text with
  | nil => exact fun _ _ => nofun
  | cons c text inductionHypothesis =>
    intro before plain
    rw [lowercaseAfter, List.forall_mem_append] at plain
    obtain ⟨small, member⟩ := List.exists_mem_of_ne_nil _ (lowerInContext_ne_nil before c text)
    have plainSmall := plain.1 small member
    rw [(mem_lowerInContext_iff plainSmall before c text).mp member] at plainSmall
    exact List.forall_mem_cons.mpr ⟨plainSmall, inductionHypothesis _ plain.2⟩

end PageCompiler.Text
