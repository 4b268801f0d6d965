import PageCompiler.Proofs.Source.DirectiveLine

/-! # Where passages end

Markers and directive lines are found where the grammar has them. The payload of a block goes up to
the first marker behind the opening one, and a run of script up to the first place where something
else begins.
-/

namespace PageCompiler

/-! ## Markers -/

namespace BlockKind

theorem openingAt_append (kind : BlockKind) (rest : Text) :
    openingAt (kind.openMarker ++ rest) = some kind := by
  cases kind <;> rfl

theorem closingAt_append (kind : BlockKind) (rest : Text) :
    closingAt (kind.closeMarker ++ rest) = some kind := by
  cases kind <;> rfl

theorem openingAt_eq_some_iff {text : Text} {kind : BlockKind} :
    openingAt text = some kind ↔ kind.openMarker <+: text := by
  constructor
  · intro found
    have starts := List.find?_some (l := all) found
    exact List.isPrefixOf_iff_prefix.mp starts
  · rintro ⟨rest, rfl⟩
    exact openingAt_append kind rest

theorem closingAt_eq_some_iff {text : Text} {kind : BlockKind} :
    closingAt text = some kind ↔ kind.closeMarker <+: text := by
  constructor
  · intro found
    have starts := List.find?_some (l := all) found
    exact List.isPrefixOf_iff_prefix.mp starts
  · rintro ⟨rest, rfl⟩
    exact closingAt_append kind rest

end BlockKind

theorem markerAt_open (kind : BlockKind) (rest : Text) : MarkerAt (kind.openMarker ++ rest) :=
  ⟨kind, .inl (List.prefix_append _ _)⟩

theorem markerAt_close (kind : BlockKind) (rest : Text) : MarkerAt (kind.closeMarker ++ rest) :=
  ⟨kind, .inr (List.prefix_append _ _)⟩

theorem startsWithMarker_iff {text : Text} : startsWithMarker text = true ↔ MarkerAt text := by
  simp only [startsWithMarker, Bool.or_eq_true, Option.isSome_iff_exists,
    BlockKind.openingAt_eq_some_iff, BlockKind.closingAt_eq_some_iff, MarkerAt, exists_or]

theorem no_marker_found {text : Text} (free : ¬ MarkerAt text) :
    BlockKind.openingAt text = none ∧ BlockKind.closingAt text = none := by
  rw [← startsWithMarker_iff, startsWithMarker, Bool.or_eq_true, not_or] at free
  simpa using free

theorem eq_cons_of_markerAt {text : Text} (marker : MarkerAt text) :
    ∃ rest, text = '/' :: '*' :: rest := by
  obtain ⟨kind, ⟨rest, rfl⟩ | ⟨rest, rfl⟩⟩ := marker
  · exact ⟨_, rfl⟩
  · exact ⟨_, rfl⟩

/-! ## Directive lines -/

theorem directiveAt_isSome_iff {text : Text} :
    (directiveAt text).isSome = true ↔ DirectiveAt text := by
  rw [Option.isSome_iff_exists]
  constructor
  · rintro ⟨⟨keyword, offset, rest⟩, found⟩
    exact ⟨_, keyword, rest, Text.isFirstLine_iff.mpr rfl, Directive.spells_of_line? found⟩
  · rintro ⟨line, keyword, rest, first, spells⟩
    obtain ⟨offset, found⟩ := Directive.line?_of_spells spells
    rw [← Text.isFirstLine_iff.mp first] at found
    exact ⟨_, found⟩

/-- A line that starts with a marker starts with neither a keyword nor `//`. -/
theorem directiveAt_eq_none_of_markerAt {text : Text} (marker : MarkerAt text) :
    directiveAt text = none := by
  obtain ⟨rest, rfl⟩ := eq_cons_of_markerAt marker
  rw [directiveAt, Text.firstLine_cons_of_ne (by decide), Text.firstLine_cons_of_ne (by decide),
    Directive.line?_plain rfl rfl]
  rfl

/-! ## Payloads -/

theorem readPayload_append {kind : BlockKind} {payload : Text} (after : Text)
    (markerFree : ∀ front rest, payload = front ++ rest → rest ≠ [] →
      ¬ MarkerAt (rest ++ kind.closeMarker ++ after)) :
    readPayload kind (payload ++ kind.closeMarker ++ after) = .ok (payload, after) := by
  induction payload with
  | nil =>
    have closes : kind.closeMarker.isPrefixOf? ('/' :: (kind.closeMarker.tail ++ after)) =
        some after :=
      Text.isPrefixOf?_eq_some_iff.mpr rfl
    change readPayload kind ('/' :: (kind.closeMarker.tail ++ after)) = _
    rw [readPayload, closes]
  | cons c payload inductionHypothesis =>
    have free := markerFree [] (c :: payload) rfl (List.cons_ne_nil c payload)
    obtain ⟨unopened, unclosed⟩ := no_marker_found free
    have others := inductionHypothesis fun front rest split =>
      markerFree (c :: front) rest (by rw [split]; rfl)
    -- A closing marker of this kind would be a marker inside the payload, too.
    have unended :
        kind.closeMarker.isPrefixOf? (c :: payload ++ kind.closeMarker ++ after) = none := by
      refine Option.eq_none_iff_forall_not_mem.mpr fun rest found => free ?_
      rw [Text.isPrefixOf?_eq_some_iff.mp found]
      exact markerAt_close kind rest
    rw [List.cons_append, List.cons_append] at unopened unclosed unended ⊢
    rw [readPayload, unended, unopened, unclosed]
    simp only [others]

theorem markerFree_of_readPayload {kind : BlockKind} {text payload after : Text}
    (read : readPayload kind text = .ok (payload, after)) :
    ∀ front rest, payload = front ++ rest → rest ≠ [] →
      ¬ MarkerAt (rest ++ kind.closeMarker ++ after) := by
  induction text generalizing payload with
  | nil => cases read
  | cons c text inductionHypothesis =>
    have whole := readPayload_eq_append read
    rw [readPayload] at read
    split at read
    · cases read
      intro front rest split nonempty
      exact absurd (List.append_eq_nil_iff.mp split.symm).2 nonempty
    · split at read
      · cases read
      · cases read
      · next unopened unclosed =>
        split at read
        · next inner others =>
          cases read
          intro front rest split nonempty
          rcases List.cons_eq_append_iff.mp split with ⟨rfl, rfl⟩ | ⟨between, rfl, rfl⟩
          · rw [← whole, ← startsWithMarker_iff, startsWithMarker, unopened, unclosed]
            simp
          · exact inductionHypothesis others between rest rfl nonempty
        · cases read

/-! ## Script -/

theorem atLineStart_append {before run : Text} (nonempty : run ≠ []) :
    AtLineStart (before ++ run) ↔ Text.endsLine run = true := by
  rw [AtLineStart, List.append_eq_nil_iff, List.getLast?_append, Text.endsLine]
  cases ends : run.getLast? with
  | none => exact absurd (List.getLast?_eq_none_iff.mp ends) nonempty
  | some last => simp [nonempty]

theorem atLineStart_append_singleton {before : Text} {c : Char} :
    AtLineStart (before ++ [c]) ↔ (c == '\n') = true := by
  rw [atLineStart_append (List.cons_ne_nil c []), Text.endsLine]
  simp

theorem endsScript_iff {before after : Text} {lineStart : Bool}
    (tracks : lineStart = true ↔ AtLineStart before) :
    endsScript lineStart after = true ↔ EndsScript before after := by
  rw [endsScript, Bool.or_eq_true, Bool.and_eq_true, tracks, directiveAt_isSome_iff,
    startsWithMarker_iff, EndsScript, or_comm]

/-- What the scanner looks for before it takes a character as script. -/
theorem not_endsScript_iff {before after : Text} {lineStart : Bool}
    (tracks : lineStart = true ↔ AtLineStart before) :
    ¬ EndsScript before after ↔ (if lineStart then directiveAt after else none) = none ∧
      BlockKind.openingAt after = none ∧ BlockKind.closingAt after = none := by
  rw [← endsScript_iff tracks, endsScript, startsWithMarker]
  cases lineStart <;> simp

theorem isScript_nil {before after : Text} : IsScript before [] after :=
  fun _ _ split nonempty => absurd (List.append_eq_nil_iff.mp split.symm).2 nonempty

theorem isScript_cons_iff {before passage after : Text} {c : Char} :
    IsScript before (c :: passage) after ↔
      ¬ EndsScript before (c :: (passage ++ after)) ∧ IsScript (before ++ [c]) passage after := by
  constructor
  · intro script
    refine ⟨?_, fun front rest split nonempty => ?_⟩
    · simpa using script [] (c :: passage) rfl (List.cons_ne_nil c passage)
    · simpa using script (c :: front) rest (by rw [split]; rfl) nonempty
  · rintro ⟨here, later⟩ front rest split nonempty
    rcases List.cons_eq_append_iff.mp split with ⟨rfl, rfl⟩ | ⟨between, rfl, rfl⟩
    · simpa using here
    · simpa using later between rest rfl nonempty

/-- A run of script is script, and it goes up to where script ends. -/
theorem scriptRun_spec {before : Text} {lineStart : Bool} (text : Text)
    (tracks : lineStart = true ↔ AtLineStart before) :
    IsScript before (scriptRun lineStart text).1 (scriptRun lineStart text).2 ∧
      ((scriptRun lineStart text).2 = [] ∨
        EndsScript (before ++ (scriptRun lineStart text).1) (scriptRun lineStart text).2) := by
  induction text generalizing before lineStart with
  | nil => exact ⟨isScript_nil, .inl rfl⟩
  | cons c text inductionHypothesis =>
    rw [scriptRun]
    split
    · next ends =>
      refine ⟨isScript_nil, .inr ?_⟩
      rw [List.append_nil]
      exact (endsScript_iff tracks).mp ends
    · next goes =>
      obtain ⟨script, stops⟩ := inductionHypothesis (@atLineStart_append_singleton before c).symm
      refine ⟨isScript_cons_iff.mpr ⟨?_, script⟩, ?_⟩
      · rw [scriptRun_append]
        exact fun ends => goes ((endsScript_iff tracks).mpr ends)
      · simpa using stops

/-- A passage of script that goes up to where script ends is found as it is. -/
theorem scriptRun_eq {before passage after : Text} {lineStart : Bool}
    (script : IsScript before passage after)
    (stops : after = [] ∨ EndsScript (before ++ passage) after)
    (tracks : lineStart = true ↔ AtLineStart before) :
    scriptRun lineStart (passage ++ after) = (passage, after) := by
  induction passage generalizing before lineStart with
  | nil =>
    cases after with
    | nil => rfl
    | cons d after =>
      have ends : EndsScript before (d :: after) := by simpa using stops
      rw [List.nil_append, scriptRun, if_pos ((endsScript_iff tracks).mpr ends)]
  | cons c passage inductionHypothesis =>
    obtain ⟨goes, later⟩ := isScript_cons_iff.mp script
    have found := inductionHypothesis later (by simpa using stops)
      atLineStart_append_singleton.symm
    rw [List.cons_append, scriptRun, if_neg fun ends => goes ((endsScript_iff tracks).mp ends),
      found]

end PageCompiler
