import Mathlib.Control.Monad.Basic
import PageCompiler.Proofs.Source.Passage

/-! # Scanning finds the one valid cut

The scanner gives a valid cut of every text that it accepts, and it accepts every text that has one.
Both directions go from front to back, with the part of the text that has been scanned as `before`:
it says at which offset the rest starts and whether a line starts there.
-/

namespace PageCompiler

/-- Behind a first line there is either another line or nothing. -/
theorem atLineStart_of_isFirstLine {before line after : Text} (nonempty : line ≠ [])
    (first : Text.IsFirstLine (line ++ after) line) :
    AtLineStart (before ++ line) ∨ after = [] := by
  rw [atLineStart_append nonempty]
  generalize whole : line ++ after = text at first
  cases first with
  | ended => exact .inl (by simp [Text.endsLine])
  | unended => exact .inr (List.append_right_eq_self.mp whole)

theorem not_isScript_directive {directive : Directive} {raw : Text} {start : Nat} :
    ¬ Segment.IsScript ⟨.directive directive, raw, start⟩ := by
  rintro ⟨text, same⟩
  cases same

theorem not_isScript_block {kind : BlockKind} {payload raw : Text} {start : Nat} :
    ¬ Segment.IsScript ⟨.block kind payload, raw, start⟩ := by
  rintro ⟨text, same⟩
  cases same

/-- A block ends with a slash. -/
theorem endsLine_block (kind : BlockKind) (payload : Text) :
    Text.endsLine (kind.openMarker ++ payload ++ kind.closeMarker) = false := by
  rw [Text.endsLine, List.getLast?_append]
  cases kind <;> rfl

/-! ## Soundness -/

theorem cutsBehind_of_scanFrom {whole : Text} {offset : Nat} {lineStart : Bool} {text : Text}
    {segments : List Segment} (found : scanFrom whole offset lineStart text = .ok segments)
    {before : Text} (tracks : lineStart = true ↔ AtLineStart before)
    (reached : offset = before.byteSize) :
    CutsBehind before text segments ∧
      (EndsScript before text → ∀ next ∈ segments.head?, ¬ next.IsScript) := by
  fun_induction scanFrom whole offset lineStart text generalizing before segments with
  | case1 =>
    cases found
    exact ⟨CutsBehind.nil_iff.mpr rfl, fun _ _ first => nomatch first⟩
  | case2 => cases found
  | case3 offset lineStart c tail line keyed directive read raw after =>
    rename_i inductionHypothesis
    obtain ⟨others, scanned, rfl⟩ := exists_of_map_eq_ok found
    refine ⟨?_, fun _ next first => Option.some.inj first ▸ not_isScript_directive⟩
    cases lineStart with
    | false => cases keyed
    | true =>
      have split : raw ++ after = c :: tail := Text.firstLine_append (c :: tail)
      have nonempty : raw ≠ [] := by
        intro empty
        have shorter := Text.firstLine_snd_length_lt c tail
        rw [empty, List.nil_append] at split
        exact absurd (congrArg List.length split) (Nat.ne_of_lt shorter)
      have first : Text.IsFirstLine (raw ++ after) raw := by
        rw [split]
        exact Text.isFirstLine_iff.mpr rfl
      have cut : CutsBehind (before ++ raw) after others := by
        -- A line without a line feed is the last one, and then there is nothing left to scan.
        rcases atLineStart_of_isFirstLine nonempty first with starts | ended
        · refine (inductionHypothesis scanned (iff_of_true rfl starts) ?_).1
          rw [Text.byteSize_append, reached]
        · rw [ended] at scanned ⊢
          rw [scanFrom] at scanned
          cases scanned
          exact CutsBehind.nil_iff.mpr rfl
      rw [← split]
      exact cut.cons nonempty reached (fun _ _ both => not_isScript_directive both.1)
        (.directive (tracks.mp rfl) first (Directive.spells_of_line? keyed)
          (Directive.asks_of_directive read))
  | case4 => cases found
  | case5 offset lineStart c tail unkeyed kind opens payload after read shorter raw =>
    rename_i inductionHypothesis
    obtain ⟨others, scanned, rfl⟩ := exists_of_map_eq_ok found
    refine ⟨?_, fun _ next first => Option.some.inj first ▸ not_isScript_block⟩
    obtain ⟨behind, opened⟩ := BlockKind.openingAt_eq_some_iff.mp opens
    rw [← opened, List.drop_left] at read
    have split : raw ++ after = c :: tail := by
      rw [← opened, readPayload_eq_append read]
      simp [raw]
    have nonempty : raw ≠ [] := List.cons_ne_nil _ _
    -- The scanner goes on inside a line, because a block ends with a slash.
    have inLine : false = true ↔ AtLineStart (before ++ raw) := by
      rw [atLineStart_append nonempty, endsLine_block]
    have next : offset + raw.byteSize = (before ++ raw).byteSize := by
      rw [Text.byteSize_append before raw, reached]
    obtain ⟨cut, -⟩ := inductionHypothesis scanned inLine next
    rw [← split]
    exact cut.cons nonempty reached (fun _ _ both => not_isScript_block both.1)
      (.block (markerFree_of_readPayload read))
  | case6 => cases found
  | case7 offset lineStart c tail unkeyed unopened unclosed run after =>
    rename_i inductionHypothesis
    obtain ⟨others, scanned, rfl⟩ := exists_of_map_eq_ok found
    have goes : ¬ EndsScript before (c :: tail) :=
      (not_endsScript_iff tracks).mpr ⟨by simpa using unkeyed, unopened, unclosed⟩
    refine ⟨?_, fun ends => absurd ends goes⟩
    have split : run ++ after = c :: tail := congrArg (c :: ·) (scriptRun_append _ _)
    obtain ⟨script, stops⟩ := scriptRun_spec tail (@atLineStart_append_singleton before c).symm
    have nonempty : run ≠ [] := List.cons_ne_nil _ _
    have next : offset + run.byteSize = (before ++ run).byteSize := by
      rw [Text.byteSize_append before run, reached]
    obtain ⟨cut, apart⟩ := inductionHypothesis scanned (atLineStart_append nonempty).symm next
    rw [← split] at goes ⊢
    refine cut.cons nonempty reached (fun next first both => ?_)
      (.script (isScript_cons_iff.mpr ⟨goes, script⟩))
    -- The run stops where the text or script ends, so no other script comes next.
    rcases stops with ended | ends
    · change scanFrom whole _ _ (scriptRun (c == '\n') tail).2 = .ok others at scanned
      rw [ended, scanFrom] at scanned
      cases scanned
      cases first
    · refine apart ?_ next first both.2
      rwa [List.append_assoc] at ends

/-! ## Completeness -/

theorem scanFrom_directive {whole line after rest : Text} {offset : Nat}
    {keyword : Directive.Keyword} {directive : Directive} (nonempty : line ≠ [])
    (first : Text.IsFirstLine (line ++ after) line) (spells : Directive.Spells line keyword rest)
    (asks : Directive.Asks keyword rest directive) :
    scanFrom whole offset true (line ++ after) =
      (scanFrom whole (offset + line.byteSize) true after).map
        (⟨.directive directive, line, offset⟩ :: ·) := by
  have read := Text.isFirstLine_iff.mp first
  have left : (Text.firstLine (line ++ after)).2 = after := by
    have split := Text.firstLine_append (line ++ after)
    rwa [read, List.append_cancel_left_eq] at split
  obtain ⟨position, keyed⟩ := Directive.line?_of_spells spells
  cases line with
  | nil => exact absurd rfl nonempty
  | cons c tail =>
    rw [List.cons_append] at read left ⊢
    rw [scanFrom]
    simp only [if_true, directiveAt, read, keyed, left, Directive.directive_of_asks asks]

theorem scanFrom_block {whole payload after : Text} {offset : Nat} {lineStart : Bool}
    {kind : BlockKind}
    (markerFree : ∀ front rest, payload = front ++ rest → rest ≠ [] →
      ¬ MarkerAt (rest ++ kind.closeMarker ++ after)) :
    scanFrom whole offset lineStart (kind.openMarker ++ payload ++ kind.closeMarker ++ after) =
      (scanFrom whole
        (offset + (kind.openMarker ++ payload ++ kind.closeMarker).byteSize) false after).map
          (⟨.block kind payload, kind.openMarker ++ payload ++ kind.closeMarker, offset⟩ :: ·) := by
  have marker : MarkerAt (kind.openMarker ++ (payload ++ kind.closeMarker ++ after)) :=
    markerAt_open kind _
  have unkeyed := directiveAt_eq_none_of_markerAt marker
  have opens := BlockKind.openingAt_append kind (payload ++ kind.closeMarker ++ after)
  have read : readPayload kind ((kind.openMarker ++ (payload ++ kind.closeMarker ++ after)).drop
      kind.openMarker.length) = .ok (payload, after) := by
    rw [List.drop_left]
    exact readPayload_append after markerFree
  obtain ⟨rest, text⟩ := eq_cons_of_markerAt marker
  simp only [List.append_assoc] at text unkeyed opens read ⊢
  rw [text] at unkeyed opens read ⊢
  rw [scanFrom]
  simp only [unkeyed, ite_self, opens]
  split
  · next failed =>
    rw [read] at failed
    cases failed
  · next found =>
    rw [read] at found
    cases found
    simp only [List.append_assoc]

theorem scanFrom_script {whole passage after before : Text} {offset : Nat} {lineStart : Bool}
    (nonempty : passage ≠ []) (script : IsScript before passage after)
    (stops : after = [] ∨ EndsScript (before ++ passage) after)
    (tracks : lineStart = true ↔ AtLineStart before) :
    scanFrom whole offset lineStart (passage ++ after) =
      (scanFrom whole (offset + passage.byteSize) (Text.endsLine passage) after).map
        (⟨.script passage, passage, offset⟩ :: ·) := by
  cases passage with
  | nil => exact absurd rfl nonempty
  | cons c tail =>
    obtain ⟨goes, later⟩ := isScript_cons_iff.mp script
    have run := scriptRun_eq later (by simpa using stops)
      (@atLineStart_append_singleton before c).symm
    obtain ⟨unkeyed, unopened, unclosed⟩ := (not_endsScript_iff tracks).mp goes
    rw [List.cons_append, scanFrom]
    simp only [unkeyed, unopened, unclosed, run]

theorem CutsBehind.endsScript {before text : Text} {segments : List Segment}
    (cut : CutsBehind before text segments) (apart : ∀ next ∈ segments.head?, ¬ next.IsScript) :
    text = [] ∨ EndsScript before text := by
  cases segments with
  | nil => exact .inl (CutsBehind.nil_iff.mp cut)
  | cons segment segments =>
    obtain ⟨content, raw, start⟩ := segment
    obtain ⟨rfl, -, -, fits⟩ := cut.head
    refine .inr ?_
    cases fits with
    | script => exact absurd ⟨_, rfl⟩ (apart _ rfl)
    | block =>
      rw [List.append_assoc, List.append_assoc]
      exact .inl (markerAt_open _ _)
    | directive lineStart first spells asks => exact .inr ⟨lineStart, _, _, _, first, spells⟩

theorem scanFrom_of_cutsBehind {whole before text : Text} {segments : List Segment}
    {lineStart : Bool} (cut : CutsBehind before text segments)
    (tracks : text ≠ [] → (lineStart = true ↔ AtLineStart before)) :
    scanFrom whole before.byteSize lineStart text = .ok segments := by
  induction segments generalizing before text lineStart with
  | nil => rw [CutsBehind.nil_iff.mp cut, scanFrom]
  | cons segment segments inductionHypothesis =>
    obtain ⟨content, raw, start⟩ := segment
    obtain ⟨rfl, nonempty, rfl, fits⟩ := cut.head
    have apart := cut.head_apart
    have others := cut.tail
    generalize segments.flatMap Segment.raw = after at fits others tracks ⊢
    replace tracks := tracks fun empty => nonempty (List.append_eq_nil_iff.mp empty).1
    cases fits with
    | script script =>
      -- Whatever comes next is not script, so the scanner stops where the passage does.
      have stops := others.endsScript fun next first both => apart next first ⟨⟨_, rfl⟩, both⟩
      have scanned := inductionHypothesis others fun _ => (atLineStart_append nonempty).symm
      rw [scanFrom_script nonempty script stops tracks, ← Text.byteSize_append, scanned]
      rfl
    | @block kind payload markerFree =>
      have inLine : false = true ↔
          AtLineStart (before ++ (kind.openMarker ++ payload ++ kind.closeMarker)) := by
        rw [atLineStart_append nonempty, endsLine_block]
      have scanned := inductionHypothesis others fun _ => inLine
      rw [scanFrom_block markerFree, ← Text.byteSize_append, scanned]
      rfl
    | directive starts first spells asks =>
      obtain rfl := tracks.mpr starts
      have scanned := inductionHypothesis others fun more =>
        iff_of_true rfl ((atLineStart_of_isFirstLine nonempty first).resolve_right more)
      rw [scanFrom_directive nonempty first spells asks, ← Text.byteSize_append, scanned]
      rfl

/-! ## Whole texts -/

/-- An accepted text is cut validly. -/
theorem segmentation_of_scan (path : Path) (text : Text) {source : SourceFile}
    (scanned : SourceFile.scan path text = .ok source) :
    source.path = path ∧ source.text = text ∧ Segmentation text source.segments := by
  obtain ⟨segments, found, rfl⟩ := exists_of_map_eq_ok scanned
  have tracks : true = true ↔ AtLineStart [] := iff_of_true rfl (.inl rfl)
  exact ⟨rfl, rfl, (cutsBehind_of_scanFrom found tracks rfl).1⟩

def bannerPath : Path :=
  .ofString "banner.js"

/-- The first marker shares its last slash with what would be another one. -/
def bannerText : Text :=
  "var a;\n//:import ui.Panel;\n/*html*/<p>/*/</p>/*~html*/*css*/\n".toList

def bannerSegments : List Segment := [
  ⟨.script "var a;\n".toList, "var a;\n".toList, 0⟩,
  ⟨.directive (.importModule ⟨["ui".toList], "Panel".toList, by decide, by decide⟩),
    "//:import ui.Panel;\n".toList, 7⟩,
  ⟨.block .markup "<p>/*/</p>".toList, "/*html*/<p>/*/</p>/*~html*/".toList, 27⟩,
  ⟨.script "*css*/\n".toList, "*css*/\n".toList, 54⟩]

theorem scanFrom_banner : scanFrom bannerText 0 true bannerText = .ok bannerSegments := by
  decide +kernel

theorem segmentation_of_scan_banner :
    SourceFile.scan bannerPath bannerText = .ok ⟨bannerPath, bannerText, bannerSegments⟩ ∧
      Segmentation bannerText bannerSegments := by
  have scanned : SourceFile.scan bannerPath bannerText =
      .ok ⟨bannerPath, bannerText, bannerSegments⟩ := by
    rw [SourceFile.scan, scanFrom_banner]
    rfl
  obtain ⟨-, -, cut⟩ := segmentation_of_scan bannerPath bannerText scanned
  exact ⟨scanned, cut⟩

/-- A text has at most one valid cut; the scanner finds it, and refuses only a text without one. -/
theorem scan_of_segmentation (path : Path) (text : Text) :
    (∀ segments, Segmentation text segments →
        SourceFile.scan path text = .ok ⟨path, text, segments⟩) ∧
      (∀ first second, Segmentation text first → Segmentation text second → first = second) ∧
      ∀ error, SourceFile.scan path text = .error error →
        ∀ segments, ¬ Segmentation text segments := by
  have complete : ∀ segments, Segmentation text segments →
      SourceFile.scan path text = .ok ⟨path, text, segments⟩ := by
    intro segments cut
    have tracks : true = true ↔ AtLineStart [] := iff_of_true rfl (.inl rfl)
    have found : scanFrom text 0 true text = .ok segments :=
      scanFrom_of_cutsBehind cut fun _ => tracks
    rw [SourceFile.scan, found]
    rfl
  refine ⟨complete, fun first second cutFirst cutSecond => ?_, fun error failed segments cut => ?_⟩
  · have same := (complete first cutFirst).symm.trans (complete second cutSecond)
    cases same
    rfl
  · rw [complete segments cut] at failed
    cases failed

/-- The banner has one cut, and a closing marker alone has none. -/
theorem scan_of_segmentation_banner :
    (∀ segments, Segmentation bannerText segments ↔ segments = bannerSegments) ∧
      ∀ segments, ¬ Segmentation "/*~css*/".toList segments := by
  have tracks : true = true ↔ AtLineStart [] := iff_of_true rfl (.inl rfl)
  have cut : Segmentation bannerText bannerSegments :=
    (cutsBehind_of_scanFrom scanFrom_banner tracks rfl).1
  have failed : SourceFile.scan bannerPath "/*~css*/".toList =
      .error ⟨.locate "/*~css*/".toList 0, .unmatched .stylesheet⟩ := by
    have refused : scanFrom "/*~css*/".toList 0 true "/*~css*/".toList =
        .error ⟨.locate "/*~css*/".toList 0, .unmatched .stylesheet⟩ := by
      decide +kernel
    rw [SourceFile.scan, refused]
    rfl
  obtain ⟨-, unique, -⟩ := scan_of_segmentation bannerPath bannerText
  obtain ⟨-, -, refused⟩ := scan_of_segmentation bannerPath "/*~css*/".toList
  refine ⟨fun segments => ⟨fun other => unique _ _ other cut, ?_⟩, refused _ failed⟩
  rintro rfl
  exact cut

end PageCompiler
