import PageCompiler.Proofs.Source.Excerpt
import PageCompiler.Proofs.Source.Position
import PageCompiler.Proofs.Source.Scan

/-! # Where a refused text is at fault

A text that has no cut is refused at one character of it: where a marker starts that has no partner
or stands inside another block, or where a directive line has the keyword that its argument does not
fit. The scanner counts bytes on its way there, across characters of any width.
-/

namespace PageCompiler

open Directive (Keyword Spells)

/-! ## Faults -/

/-- What a text is refused for begins with `rest`, which stands behind `indent` on its line. -/
inductive FaultAt (indent rest : Text) : Prop where
  | marker (marker : MarkerAt rest)
  | keyword {keyword : Keyword} {argument : Text} (leads : keyword ∈ Keyword.leading)
      (first : Text.IsFirstLine rest (keyword.word ++ argument))
      (spells : Spells (indent ++ (keyword.word ++ argument)) keyword argument)
  | require {spaces argument : Text}
      (first : Text.IsFirstLine rest ('=' :: (spaces ++ Keyword.requireKeyword.word ++ argument)))
      (spells : Spells (indent ++ '=' :: (spaces ++ Keyword.requireKeyword.word ++ argument))
        .requireKeyword argument)

/-- The character at fault can be seen: it does not end its line. -/
theorem FaultAt.exists_cons {indent rest : Text} (fault : FaultAt indent rest) :
    ∃ c behind, rest = c :: behind ∧ c ≠ '\n' ∧ c ≠ '\r' := by
  cases fault with
  | marker marker =>
    obtain ⟨behind, rfl⟩ := eq_cons_of_markerAt marker
    exact ⟨'/', _, rfl, by decide, by decide⟩
  | @keyword keyword argument leads first _ =>
    obtain ⟨after, rfl⟩ := first.exists_append
    obtain ⟨behind, word⟩ := List.head?_eq_some_iff.mp (Directive.head?_word_append leads argument)
    rw [word]
    exact ⟨':', _, rfl, by decide, by decide⟩
  | require first _ =>
    obtain ⟨after, rfl⟩ := first.exists_append
    exact ⟨'=', _, rfl, by decide, by decide⟩

/-! ## Directive lines -/

namespace Directive

/-- In front of the keyword of a line, or of the equals sign in front of it, stand blanks and
perhaps two slashes. -/
theorem exists_indent (text : Text) :
    ∃ indent, text = indent ++ (['/', '/'].isPrefixOf? (text.dropWhile Text.isIndent)).getD
      (text.dropWhile Text.isIndent) ∧ '\n' ∉ indent := by
  have unindented : text.takeWhile Text.isIndent ++ text.dropWhile Text.isIndent = text :=
    List.takeWhile_append_dropWhile
  have blank : '\n' ∉ text.takeWhile Text.isIndent := by
    intro member
    have accepted := List.all_eq_true.mp List.all_takeWhile _ member
    simp [Text.isIndent] at accepted
  cases slashes : ['/', '/'].isPrefixOf? (text.dropWhile Text.isIndent) with
  | none => exact ⟨_, unindented.symm, blank⟩
  | some body =>
    refine ⟨text.takeWhile Text.isIndent ++ ['/', '/'], ?_, by simpa using blank⟩
    rw [List.append_assoc, Option.getD_some, ← Text.isPrefixOf?_eq_some_iff.mp slashes, unindented]

/-- The offset of a directive line is the byte size of what stands in front of its keyword. -/
theorem offset_of_line? {text argument : Text} {keyword : Keyword} {offset : Nat}
    (found : line? text = some ⟨keyword, offset, argument⟩) :
    ∃ indent body, text = indent ++ body ∧ '\n' ∉ indent ∧ offset = indent.byteSize ∧
      (keyword ∈ Keyword.leading ∧ body = keyword.word ++ argument ∨
        keyword = .requireKeyword ∧
          ∃ spaces, body = '=' :: (spaces ++ Keyword.requireKeyword.word ++ argument)) := by
  obtain ⟨indent, split, inside⟩ := exists_indent text
  have behind := congrArg Text.byteSize split
  rw [Text.byteSize_append] at behind
  refine ⟨indent, _, split, inside, ?_⟩
  simp only [line?] at found
  split at found
  · next slashes equals =>
    obtain ⟨argument, argued, same⟩ := Option.map_eq_some_iff.mp found
    cases same
    obtain ⟨spaces, rfl, -, -⟩ := requireArgument?_eq_some_iff.mp argued
    exact ⟨Nat.sub_eq_of_eq_add behind, .inr ⟨rfl, spaces, equals⟩⟩
  · obtain ⟨⟨_, _⟩, keyed, same⟩ := Option.map_eq_some_iff.mp found
    cases same
    obtain ⟨leads, body, -⟩ := leadingKeyword?_eq_some_iff.mp keyed
    exact ⟨Nat.sub_eq_of_eq_add behind, .inl ⟨leads, body⟩⟩

end Directive

/-- The keyword of the directive line that a text starts with, as the place of a fault. -/
theorem faultAt_of_directiveAt {text : Text} {line : Directive.Line}
    (keyed : directiveAt text = some line) {before : Text} (starts : AtLineStart before) :
    ∃ indent rest, text = indent ++ rest ∧ line.offset = indent.byteSize ∧
      FaultAt (before ++ indent).lastLine rest := by
  have split := Text.firstLine_append text
  generalize (Text.firstLine text).2 = after at split
  have spells := Directive.spells_of_line? keyed
  obtain ⟨indent, body, same, inside, place, shape⟩ := Directive.offset_of_line? keyed
  rw [same, List.append_assoc] at split
  rw [same] at spells
  have first : Text.IsFirstLine (body ++ after) body := by
    rw [← Text.isFirstLine_append_iff inside, split, ← same]
    exact Text.isFirstLine_iff.mpr rfl
  refine ⟨indent, body ++ after, split.symm, place, ?_⟩
  rw [Text.lastLine_append starts inside]
  rcases shape with ⟨leads, rfl⟩ | ⟨requires, spaces, rfl⟩
  · exact .keyword leads first spells
  · rw [requires] at spells
    exact .require first spells

/-! ## Payloads -/

/-- A payload that does not end, or the place of the marker that stands in it. -/
theorem fault_of_readPayload {kind : BlockKind} {text : Text} {fault : PayloadFault}
    (failed : readPayload kind text = .error fault) :
    fault = .unclosed ∨ ∃ front rest, text = front ++ rest ∧ MarkerAt rest ∧
      ((∃ inner, fault = .nested inner front.byteSize) ∨
        ∃ other, fault = .crossed other front.byteSize) := by
  induction text generalizing fault with
  | nil =>
    cases failed
    exact .inl rfl
  | cons c text inductionHypothesis =>
    rw [readPayload] at failed
    split at failed
    · cases failed
    · split at failed
      · next inner opens =>
        cases failed
        exact .inr ⟨[], _, rfl, ⟨inner, .inl (BlockKind.openingAt_eq_some_iff.mp opens)⟩,
          .inl ⟨inner, rfl⟩⟩
      · next other _ closes =>
        cases failed
        exact .inr ⟨[], _, rfl, ⟨other, .inr (BlockKind.closingAt_eq_some_iff.mp closes)⟩,
          .inr ⟨other, rfl⟩⟩
      · split at failed
        · cases failed
        · next later found =>
          cases failed
          rcases inductionHypothesis found with rfl | ⟨front, rest, rfl, marker, place⟩
          · exact .inl rfl
          · refine .inr ⟨c :: front, rest, rfl, marker, ?_⟩
            rcases place with ⟨inner, rfl⟩ | ⟨other, rfl⟩
            · exact .inl ⟨inner, rfl⟩
            · exact .inr ⟨other, rfl⟩

/-- The marker that a block is refused for: the one in its payload, or else its own. -/
theorem markerAt_of_readPayload {kind : BlockKind} {text : Text} {fault : PayloadFault}
    (failed : readPayload kind text = .error fault) (whole : Text) (start : Nat) :
    ∃ front rest, kind.openMarker ++ text = front ++ rest ∧
      (payloadError whole start kind fault).position = .locate whole (start + front.byteSize) ∧
      MarkerAt rest := by
  rcases fault_of_readPayload failed with rfl | ⟨front, rest, rfl, marker, place⟩
  · exact ⟨[], _, rfl, rfl, markerAt_open kind text⟩
  · refine ⟨kind.openMarker ++ front, rest, by rw [List.append_assoc], ?_, marker⟩
    rw [Text.byteSize_append, ← Nat.add_assoc]
    rcases place with ⟨inner, rfl⟩ | ⟨other, rfl⟩
    · rfl
    · rfl

/-! ## Whole texts -/

theorem eq_error_of_map_eq_error {α β ε : Type} {function : α → β} {outcome : Except ε α}
    {error : ε} (mapped : outcome.map function = .error error) : outcome = .error error := by
  cases outcome with
  | ok value => cases mapped
  | error other => exact congrArg Except.error (Except.error.inj mapped)

/-- Wherever the scanner has come in a text, what it refuses stands at the offset of the error. -/
theorem fault_of_scanFrom {whole : Text} {offset : Nat} {lineStart : Bool} {text : Text}
    {error : ScanError} (failed : scanFrom whole offset lineStart text = .error error)
    {before : Text} (covers : whole = before ++ text)
    (tracks : lineStart = true ↔ AtLineStart before) (reached : offset = before.byteSize) :
    ∃ front rest, whole = front ++ rest ∧ error.position = .locate whole front.byteSize ∧
      FaultAt front.lastLine rest := by
  -- Behind a passage that is accepted, the scanner goes on with one more passage in front.
  fun_induction scanFrom whole offset lineStart text generalizing before with
  | case1 => cases failed
  | case2 offset lineStart c tail line keyed fault refused =>
    cases failed
    cases lineStart with
    | false => cases keyed
    | true =>
      obtain ⟨indent, rest, split, place, fault⟩ := faultAt_of_directiveAt keyed (tracks.mp rfl)
      refine ⟨before ++ indent, rest, ?_, ?_, fault⟩
      · rw [covers, split, List.append_assoc]
      · rw [Text.byteSize_append, ← reached, ← place]
  | case3 offset lineStart c tail line keyed directive read raw after =>
    rename_i inductionHypothesis
    have scanned := eq_error_of_map_eq_error failed
    have split : raw ++ after = c :: tail := Text.firstLine_append (c :: tail)
    have first : Text.IsFirstLine (raw ++ after) raw := by
      rw [split]
      exact Text.isFirstLine_iff.mpr rfl
    -- Nothing is left to refuse behind a line without a line feed.
    rcases atLineStart_of_isFirstLine (Text.firstLine_ne_nil c tail) first with starts | ended
    · refine inductionHypothesis scanned ?_ (iff_of_true rfl starts) ?_
      · rw [covers, List.append_assoc, split]
      · rw [Text.byteSize_append, reached]
    · rw [ended, scanFrom] at scanned
      cases scanned
  | case4 =>
    rename_i offset lineStart c tail unkeyed kind opens fault refused
    cases failed
    obtain ⟨behind, opened⟩ := BlockKind.openingAt_eq_some_iff.mp opens
    rw [← opened, List.drop_left] at refused
    obtain ⟨front, rest, split, place, marker⟩ := markerAt_of_readPayload refused whole offset
    refine ⟨before ++ front, rest, ?_, ?_, .marker marker⟩
    · rw [covers, ← opened, split, List.append_assoc]
    · rw [place, Text.byteSize_append, reached]
  | case5 offset lineStart c tail unkeyed kind opens payload after read shorter raw =>
    rename_i inductionHypothesis
    obtain ⟨behind, opened⟩ := BlockKind.openingAt_eq_some_iff.mp opens
    rw [← opened, List.drop_left] at read
    have split : raw ++ after = c :: tail := by
      rw [← opened, readPayload_eq_append read]
      simp [raw]
    have nonempty : raw ≠ [] := List.cons_ne_nil _ _
    have inLine : false = true ↔ AtLineStart (before ++ raw) := by
      rw [atLineStart_append nonempty, endsLine_block]
    refine inductionHypothesis (eq_error_of_map_eq_error failed) ?_ inLine ?_
    · rw [covers, List.append_assoc, split]
    · rw [Text.byteSize_append before raw, reached]
  | case6 =>
    rename_i offset lineStart c tail unkeyed unopened kind closes
    cases failed
    refine ⟨before, _, covers, by rw [reached], .marker ⟨kind, .inr ?_⟩⟩
    exact BlockKind.closingAt_eq_some_iff.mp closes
  | case7 offset lineStart c tail unkeyed unopened unclosed run after =>
    rename_i inductionHypothesis
    have split : run ++ after = c :: tail := congrArg (c :: ·) (scriptRun_append _ _)
    have ends : Text.endsLine run = true ↔ AtLineStart (before ++ run) :=
      (atLineStart_append (List.cons_ne_nil _ _)).symm
    refine inductionHypothesis (eq_error_of_map_eq_error failed) ?_ ends ?_
    · rw [covers, List.append_assoc, split]
    · rw [Text.byteSize_append before run, reached]

/-- A text is refused at a character that its lines have: the one that the line and column of the
error name, and the one that the caret in an excerpt of the text points at. -/
theorem scan_error_position {path : Path} {text : Text} {error : ScanError}
    (failed : SourceFile.scan path text = .error error) :
    1 ≤ error.position.line ∧ error.position.line ≤ (Text.lineTexts text).length ∧
      1 ≤ error.position.column ∧
      ∃ line, (Text.lineTexts text)[error.position.line - 1]? = some line ∧
        error.position.column ≤ line.length ∧
        (∃ rest, text = ((Text.lines text).take (error.position.line - 1)).flatten ++
            line.take (error.position.column - 1) ++ rest ∧
          FaultAt (line.take (error.position.column - 1)) rest) ∧
        ∃ width above below, (Text.ofNat error.position.line).length ≤ width ∧ AtLineStart above ∧
          excerpt text error.position.line (some error.position.column) =
            above ++
            (List.replicate (width - (Text.ofNat error.position.line).length) ' ' ++
              Text.ofNat error.position.line ++ " | ".toList ++ line ++ ['\n']) ++
            (List.replicate width ' ' ++ " | ".toList ++
              List.replicate (error.position.column - 1) ' ' ++ "^\n".toList) ++
            below := by
  have tracks : true = true ↔ AtLineStart [] := iff_of_true rfl (.inl rfl)
  obtain ⟨front, rest, covers, place, fault⟩ :=
    fault_of_scanFrom (eq_error_of_map_eq_error failed) rfl tracks rfl
  obtain ⟨c, behind, rfl, visible⟩ := fault.exists_cons
  obtain ⟨earlier, after, shown⟩ := Text.line_of_place front behind visible
  -- The position counts what stands in front of the fault: its line feeds and its last line.
  rw [place, covers, Position.locate_append]
  simp only [Nat.add_sub_cancel]
  obtain ⟨inside, -⟩ := List.getElem?_eq_some_iff.mp shown
  obtain ⟨width, above, below, digits, starts, whole⟩ :=
    exists_excerpt_eq (front.lastLine.length + 1) shown
  refine ⟨Nat.le_add_left 1 _, inside, Nat.le_add_left 1 _, _, shown, by simp,
    ⟨c :: behind, ?_, ?_⟩, width, above, below, digits, starts, ?_⟩
  · rw [List.take_left, earlier, Text.endedLines_append_lastLine]
  · rwa [List.take_left]
  · rw [whole, numberedLine, lineNumber, caretLine, Nat.add_sub_cancel]
    simp only [List.append_assoc]

/-- The fault stands on the last line but one of ten, behind characters of two and of four bytes. -/
def crossedText : Text :=
  List.replicate 7 '\n' ++ "var é;\r\n/*html*/<p>😀</p>/*~css*/\r\n\n".toList

def crossedLine : Text :=
  "/*html*/<p>😀</p>/*~css*/".toList

theorem scan_error_position_crossedText :
    SourceFile.scan bannerPath crossedText = .error ⟨⟨9, 17, 35⟩, .crossed .stylesheet .markup 9⟩ ∧
      (Text.lineTexts crossedText)[8]? = some crossedLine ∧
      (∃ rest, FaultAt (crossedLine.take 16) rest) ∧
      ∃ width above below, 1 ≤ width ∧
        excerpt crossedText 9 (some 17) =
          above ++
          (List.replicate (width - 1) ' ' ++ "9".toList ++ " | ".toList ++ crossedLine ++ ['\n']) ++
          (List.replicate width ' ' ++ " | ".toList ++ List.replicate 16 ' ' ++ "^\n".toList) ++
          below := by
  have refused : scanFrom crossedText 0 true crossedText =
      .error ⟨⟨9, 17, 35⟩, .crossed .stylesheet .markup 9⟩ := by
    decide +kernel
  have failed : SourceFile.scan bannerPath crossedText =
      .error ⟨⟨9, 17, 35⟩, .crossed .stylesheet .markup 9⟩ := by
    rw [SourceFile.scan, refused]
    rfl
  obtain ⟨-, -, -, line, shown, -, ⟨rest, -, fault⟩, width, above, below, digits, -, whole⟩ :=
    scan_error_position failed
  have here : (Text.lineTexts crossedText)[8]? = some crossedLine := by decide +kernel
  obtain rfl : crossedLine = line := Option.some.inj (here.symm.trans shown)
  exact ⟨failed, here, ⟨rest, fault⟩, width, above, below, digits, whole⟩

end PageCompiler
