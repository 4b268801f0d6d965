import Mathlib.Data.List.Forall2
import PageCompiler.Proofs.Build.Documents
import PageCompiler.Proofs.Resolution.Exports
import PageCompiler.Proofs.Script.Literal
import PageCompiler.Proofs.Script.Strip
import PageCompiler.Proofs.Source.Position

/-! # What stands for a segment in a script

The script of a source file has one piece of text for each segment. Script stays as it is and a
template becomes a literal on one line; every other piece has exactly the line feeds of its segment,
since neither a module name nor an exported name holds one. So in front of a segment the script has
the line feeds of the file, except for those inside of templates.
-/

namespace PageCompiler

/-! ## Pieces of script -/

/-- The content leaves nothing but line feeds in a script. -/
def Content.IsLeftOut : Content → Prop
  | .block .markup _ | .block .stylesheet _ => True
  | .directive (.exportNames _) | .directive (.includeFile _)
  | .directive (.includeStylesheet _) => True
  | _ => False

/-- The text of a string template, nothing for any other segment. -/
def Segment.template (segment : Segment) : Text :=
  match segment.content with
  | .block .template payload => payload
  | _ => []

/-- The text stands for the segment in a script whose imports are registered. -/
inductive Registry.StandsFor (registry : Registry) : Segment → Text → Prop where
  | script (text : Text) (start : Nat) : StandsFor registry ⟨.script text, text, start⟩ text
  | template {payload literal : Text} (start : Nat) (isLiteral : Script.IsLiteral literal)
      (denotes : Script.literalText? literal = some payload) :
      StandsFor registry ⟨.block .template payload,
        BlockKind.template.openMarker ++ payload ++ BlockKind.template.closeMarker, start⟩ literal
  | aliases {name : ModuleName} {compiled : CompiledModule} {indent line lineBreak : Text}
      (start : Nat) (found : registry.lookup? name = some compiled)
      (indented : ∀ c ∈ indent, c = ' ' ∨ c = '\t')
      (unindented : ∀ c ∈ line.head?, c ≠ ' ' ∧ c ≠ '\t') (inside : '\n' ∉ line)
      (ends : lineBreak = [] ∨ lineBreak = ['\n']) :
      StandsFor registry ⟨.directive (.importModule name), indent ++ line ++ lineBreak, start⟩
        (indent ++ (Returned.ofExports compiled.exports).aliases compiled.name.qualified
          ++ lineBreak)
  | lineFeeds {content : Content} (raw : Text) (start : Nat) (leftOut : content.IsLeftOut) :
      StandsFor registry ⟨content, raw, start⟩ (raw.filter (· == '\n'))

/-! ## Names and aliases -/

theorem lineFeed_not_mem_segment {text : Text} (segment : isNameSegment text = true) :
    '\n' ∉ text := by
  intro member
  rw [isNameSegment, Bool.and_eq_true, List.all_eq_true] at segment
  exact absurd (segment.2 _ member) (by decide)

theorem ModuleName.lineFeed_not_mem_qualified (name : ModuleName) : '\n' ∉ name.qualified := by
  intro member
  rcases Text.mem_join member with dot | ⟨segment, listed, inside⟩
  · exact absurd dot (by decide)
  · exact lineFeed_not_mem_segment (name.segments_valid segment listed) inside

theorem Returned.lineFeed_not_mem_aliases {returned : Returned} {holder : Text}
    (names : ∀ name ∈ returned.names, '\n' ∉ name) (held : '\n' ∉ holder) :
    '\n' ∉ returned.aliases holder := by
  cases returned with
  | value name => simpa [aliases, held] using names name List.mem_cons_self
  | object members =>
    intro member
    rcases Text.mem_join member with blank | ⟨statement, listed, inside⟩
    · exact absurd blank (by decide)
    · obtain ⟨name, exported, rfl⟩ := List.mem_map.mp listed
      have clean : '\n' ∉ name := names name exported
      simp [clean, held] at inside

/-- What a module exports can be a segment of a name. -/
theorem isNameSegment_of_mem_moduleExports {path : Path} {text : Text} {source : SourceFile}
    (scanned : SourceFile.scan path text = .ok source) {matching : NameMatching}
    {name : ModuleName} {exported : Text}
    (member : exported ∈ moduleExports matching name source) : isNameSegment exported = true := by
  have segment (identifier : isIdentifier exported = true) : isNameSegment exported = true := by
    rw [isIdentifier, Bool.and_eq_true] at identifier
    exact identifier.1
  rw [moduleExports] at member
  split at member
  · obtain rfl := List.mem_singleton.mp member
    rcases defaultExport_cases matching name source.path with same | ⟨identifier, -⟩
    · rw [same]
      exact name.isNameSegment_identifier
    · exact segment identifier
  · exact segment (SourceFile.isIdentifier_of_mem_exports scanned member)

/-- Every module of the registry was compiled from a source file. -/
def Registry.IsCompiled (registry : Registry) : Prop :=
  ∀ (key : Text) (compiled : CompiledModule), registry.modules[key]? = some compiled →
    ∃ (before : Registry) (name : ModuleName) (path : Path) (text : Text) (source : SourceFile),
      SourceFile.scan path text = .ok source ∧ compileModule before name source = .ok compiled

/-- What is made from files is compiled. -/
theorem Registry.Faithful.isCompiled {registry : Registry} {view : View} {resolver : Resolver}
    (faithful : registry.Faithful view resolver) : registry.IsCompiled := by
  intro key compiled found
  obtain ⟨-, -, -, loads, compiles⟩ := faithful.made key compiled found
  obtain ⟨text, -, scanned⟩ := loads.exists_file
  exact ⟨_, _, _, text, _, scanned, compiles⟩

/-- The aliases of a compiled module stand on one line. -/
theorem Registry.IsCompiled.lineFeed_not_mem {registry : Registry} (made : registry.IsCompiled)
    {name : ModuleName} {compiled : CompiledModule}
    (found : registry.lookup? name = some compiled) :
    '\n' ∉ (Returned.ofExports compiled.exports).aliases compiled.name.qualified := by
  obtain ⟨before, own, path, text, source, scanned, compiles⟩ := made _ _ found
  obtain ⟨body, -, rfl⟩ := exists_of_compileModule compiles
  refine Returned.lineFeed_not_mem_aliases (fun exported member => ?_)
    (ModuleName.lineFeed_not_mem_qualified own)
  rw [Returned.names_ofExports] at member
  exact lineFeed_not_mem_segment (isNameSegment_of_mem_moduleExports scanned member)

/-! ## Lines of directives -/

/-- A line is what stands in front of its end. -/
theorem exists_lineEnd {line after : Text} (first : Text.IsFirstLine (line ++ after) line) :
    ∃ body, '\n' ∉ body ∧ line = body ++ lineEnd line ∧
      (lineEnd line = [] ∨ lineEnd line = ['\n']) := by
  generalize line ++ after = text at first
  cases first with
  | @ended body _ inside =>
    have feed : lineEnd (body ++ ['\n']) = ['\n'] := by
      rw [lineEnd, Script.endsLine_append_lineFeed, if_pos rfl]
    exact ⟨body, inside, by rw [feed], .inr feed⟩
  | unended inside =>
    have none : lineEnd line = [] := by
      rw [lineEnd, Script.endsLine_of_not_mem inside]
      exact if_neg Bool.false_ne_true
    exact ⟨line, inside, by rw [none, List.append_nil], .inl none⟩

theorem lineEnd_eq_filter {line after : Text} (first : Text.IsFirstLine (line ++ after) line) :
    lineEnd line = line.filter (· == '\n') := by
  obtain ⟨body, inside, split, ends⟩ := exists_lineEnd first
  have nothing : body.filter (· == '\n') = [] := by
    rw [List.filter_eq_nil_iff]
    rintro c member feed
    exact inside (eq_of_beq feed ▸ member)
  rw [split, List.filter_append, nothing, ← split]
  rcases ends with none | feed
  · rw [none, List.filter_nil, List.append_nil]
  · rw [feed]
    rfl

/-- An import line is its indentation, the directive and its end. -/
theorem exists_indentation {line after : Text} (first : Text.IsFirstLine (line ++ after) line) :
    ∃ rest, line = indentation line ++ rest ++ lineEnd line ∧ '\n' ∉ rest ∧
      (∀ c ∈ indentation line, c = ' ' ∨ c = '\t') ∧
      (∀ c ∈ rest.head?, c ≠ ' ' ∧ c ≠ '\t') := by
  obtain ⟨body, inside, split, ends⟩ := exists_lineEnd first
  have stops : (lineEnd line).takeWhile Text.isIndent = [] := by
    rcases ends with none | feed
    · rw [none, List.takeWhile_nil]
    · rw [feed]
      rfl
  have blanks : indentation line = body.takeWhile Text.isIndent := by
    rw [indentation, split, List.takeWhile_append, stops, List.append_nil]
    split
    · next same => exact ((List.takeWhile_prefix _).eq_of_length same).symm
    · rfl
  have whole := List.takeWhile_append_dropWhile (p := Text.isIndent) (l := body)
  refine ⟨body.dropWhile Text.isIndent, ?_, fun member => ?_, fun c member => ?_, fun c first => ?_⟩
  · rw [blanks, whole, ← split]
  · exact inside (List.dropWhile_sublist _ |>.mem member)
  · rw [blanks] at member
    simpa [Text.isIndent] using List.all_eq_true.mp List.all_takeWhile c member
  · have other := List.head?_dropWhile_not Text.isIndent body
    rw [Option.mem_def.mp first] at other
    simpa [Text.isIndent] using other

/-! ## Segments and their pieces -/

variable {registry : Registry}

/-- What a segment of a cut becomes stands for it. -/
theorem standsFor_of_segmentScript {path : Path} {before after piece raw : Text}
    {content : Content} {start : Nat} (fits : Fits before after content raw)
    (made : segmentScript registry path ⟨content, raw, start⟩ = .ok piece) :
    registry.StandsFor ⟨content, raw, start⟩ piece := by
  cases fits with
  | script _ =>
    cases made
    exact .script _ start
  | @block kind payload _ =>
    cases kind with
    | template =>
      cases made
      exact .template start (Script.isLiteral_stringLiteral payload)
        (Script.literalText?_written payload)
    | markup | stylesheet =>
      cases made
      exact .lineFeeds _ start trivial
  | @directive directive line rest keyword _ first _ _ =>
    cases directive with
    | importModule name =>
      rw [segmentScript] at made
      cases found : registry.lookup? name with
      | none => simp [found] at made
      | some compiled =>
        obtain ⟨behind, split, inside, indented, unindented⟩ := exists_indentation first
        obtain ⟨-, -, -, ends⟩ := exists_lineEnd first
        have stands := Registry.StandsFor.aliases start found indented unindented inside ends
        rw [← split, Returned.aliases_ofExports] at stands
        simp only [found, Except.ok.injEq] at made
        exact made ▸ stands
    | exportNames _ | includeFile _ | includeStylesheet _ =>
      cases made
      rw [lineEnd_eq_filter first]
      exact .lineFeeds _ start trivial

/-- A segment has the line feeds of its piece and of its template. -/
theorem Registry.StandsFor.count_eq (made : registry.IsCompiled) {segment : Segment} {piece : Text}
    (stands : registry.StandsFor segment piece) :
    piece.count '\n' + segment.template.count '\n' = segment.raw.count '\n' := by
  cases stands with
  | script _ _ => rfl
  | template _ isLiteral _ =>
    have oneLine : piece.count '\n' = 0 :=
      List.count_eq_zero.mpr fun member => (isLiteral.oneLine _ member).1 rfl
    have opening : BlockKind.template.openMarker.count '\n' = 0 := by decide
    have closing : BlockKind.template.closeMarker.count '\n' = 0 := by decide
    simp [Segment.template, List.count_append, oneLine, opening, closing]
  | aliases _ found _ _ inside _ =>
    have alone := List.count_eq_zero.mpr (made.lineFeed_not_mem found)
    have rest := List.count_eq_zero.mpr inside
    simp [Segment.template, List.count_append, alone, rest]
  | @lineFeeds content raw start leftOut =>
    have noTemplate : Segment.template ⟨content, raw, start⟩ = [] := by
      rw [Segment.template]
      cases content with
      | script _ | directive _ => rfl
      | block kind _ =>
        cases kind with
        | markup | stylesheet => rfl
        | template => exact leftOut.elim
    rw [noTemplate, List.count_nil, Nat.add_zero, List.count_filter (by simp)]

theorem count_flatten (made : registry.IsCompiled) {segments : List Segment} {pieces : List Text}
    (stand : List.Forall₂ registry.StandsFor segments pieces) :
    pieces.flatten.count '\n' + (segments.flatMap Segment.template).count '\n' =
      (segments.flatMap Segment.raw).count '\n' := by
  induction stand with
  | nil => rfl
  | cons stands _ inductionHypothesis =>
    have here := stands.count_eq made
    simp only [List.flatten_cons, List.flatMap_cons, List.count_append]
    omega

/-! ## Whole scripts -/

theorem forall₂_of_mapM {α β ε : Type} {step : α → Except ε β} {inputs : List α} {outputs : List β}
    (mapped : inputs.mapM step = .ok outputs) :
    List.Forall₂ (fun input output => step input = .ok output) inputs outputs := by
  induction inputs generalizing outputs with
  | nil =>
    cases mapped
    exact .nil
  | cons input inputs inductionHypothesis =>
    rw [List.mapM_cons] at mapped
    cases stepped : step input with
    | error error =>
      rw [stepped] at mapped
      cases mapped
    | ok output =>
      cases others : inputs.mapM step with
      | error error =>
        rw [stepped, others] at mapped
        cases mapped
      | ok rest =>
        rw [stepped, others] at mapped
        cases mapped
        exact .cons stepped (inductionHypothesis others)

theorem forall₂_standsFor {path : Path} {before text : Text} {segments : List Segment}
    {pieces : List Text} (cut : CutsBehind before text segments)
    (made : List.Forall₂ (fun segment piece => segmentScript registry path segment = .ok piece)
      segments pieces) : List.Forall₂ registry.StandsFor segments pieces := by
  induction made generalizing before text with
  | nil => exact .nil
  | cons becomes _ inductionHypothesis =>
    obtain ⟨-, -, -, fits⟩ := cut.head
    exact .cons (standsFor_of_segmentScript fits becomes) (inductionHypothesis cut.tail)

/-- The script of a scanned file is one piece for each of its segments, each standing for a passage
of the text. In front of every segment it has the line feeds that the text has there, without those
inside of templates. -/
theorem sourceScript_keeps_lines {path : Path} {text : Text} {source : SourceFile}
    {registry : Registry} (scanned : SourceFile.scan path text = .ok source)
    (made : registry.IsCompiled) (registered : registry.Holds (importedNames source)) :
    ∃ pieces, sourceScript registry source = .ok pieces.flatten ∧
      List.Forall₂ registry.StandsFor source.segments pieces ∧
      ∀ earlier segment later, source.segments = earlier ++ segment :: later →
        (∃ before after, text = before ++ segment.raw ++ after ∧
          segment.start = before.byteSize) ∧
        (pieces.take earlier.length).flatten.count '\n' +
          (earlier.flatMap Segment.template).count '\n' + 1 = source.lineOf segment := by
  obtain ⟨segments, found, rfl⟩ := exists_of_map_eq_ok scanned
  have tracks : true = true ↔ AtLineStart [] := iff_of_true rfl (.inl rfl)
  have cut : Segmentation text segments := (cutsBehind_of_scanFrom found tracks rfl).1
  obtain ⟨script, assembled⟩ := sourceScript_isOk registered
  obtain ⟨pieces, mapped, rfl⟩ := exists_of_map_eq_ok assembled
  have stand := forall₂_standsFor cut (forall₂_of_mapM mapped)
  refine ⟨pieces, assembled, stand, fun earlier segment later (split : segments = _) => ?_⟩
  have whole : text =
      earlier.flatMap Segment.raw ++ (segment.raw ++ later.flatMap Segment.raw) := by
    rw [← cut.covers, split, List.flatMap_append, List.flatMap_cons]
  have start := cut.starts earlier segment later split
  rw [List.nil_append] at start
  refine ⟨⟨_, _, by rw [whole, List.append_assoc], start⟩, ?_⟩
  have front := List.forall₂_take earlier.length stand
  rw [split, List.take_left] at front
  dsimp only [SourceFile.lineOf]
  rw [count_flatten made front, start, whole, Position.locate_append]

/-- Resolving an entry file gives a registry of compiled modules that has its imports. -/
theorem resolve_isCompiled {σ : Type} [FileSystem (StateM σ)] [LawfulFileSystem σ]
    {config : BuildConfig} {entry : Path} {files : σ} {resolved : Resolved}
    (succeeds : ((resolve config entry : BuildM (StateM σ) Resolved).run.run files).1 =
      .ok resolved) :
    (∃ text, SourceFile.scan entry.normalize text = .ok resolved.source) ∧
      resolved.registry.IsCompiled ∧ resolved.registry.Holds (importedNames resolved.source) := by
  obtain ⟨⟨text, -, scanned⟩, resolver, faithful⟩ := resolve_run (Prod.ext succeeds rfl)
  exact ⟨⟨text, scanned⟩, faithful.isCompiled, (resolve_sound succeeds).2⟩

/-- The page imports a module with one export from a line with a carriage return and one with two
exports from a line without a line feed, and has a block and a template of several lines. -/
def pairFiles : Store :=
  .ofFiles [(.ofString "/src/main.js", ("  :import ui.Widget\r\n/*html*/\n<p>\n/*~html*/\n" ++
      "var t = /*js.string*/<b>\n\"x\"</b>/*~js.string*/;\n//:import ui.Pair;").toUTF8),
    (.ofString "/src/ui/Widget.js", ":export widget\nvar widget;\n".toUTF8),
    (.ofString "/src/ui/Pair.js", ":export left, right\nvar left, right;\n".toUTF8)] []

def pairScript : Text :=
  ("  var widget = ui.Widget;\n\n\n\nvar t = \"<b>\\n\\\"x\\\"</b>\";\n" ++
    "var left = ui.Pair.left; var right = ui.Pair.right;").toList

theorem sourceScript_keeps_lines_pairPage :
    ∃ resolved pieces, ((resolve {} (.ofString "/src/main.js") :
        BuildM (StateM Store) Resolved).run.run pairFiles).1 = .ok resolved ∧
      resolved.registry.IsCompiled ∧ resolved.registry.Holds (importedNames resolved.source) ∧
      sourceScript resolved.registry resolved.source = .ok pieces.flatten ∧
      pieces.flatten = pairScript ∧
      List.Forall₂ resolved.registry.StandsFor resolved.source.segments pieces ∧
      ∀ earlier segment later, resolved.source.segments = earlier ++ segment :: later →
        (pieces.take earlier.length).flatten.count '\n' +
          (earlier.flatMap Segment.template).count '\n' + 1 = resolved.source.lineOf segment := by
  have script : ((resolve {} (.ofString "/src/main.js") :
      BuildM (StateM Store) Resolved).run.run pairFiles).1.toOption.bind (fun resolved =>
        (sourceScript resolved.registry resolved.source).toOption) = some pairScript := by
    decide +kernel
  cases outcome : ((resolve {} (.ofString "/src/main.js") :
      BuildM (StateM Store) Resolved).run.run pairFiles).1 with
  | error failure =>
    rw [outcome] at script
    exact absurd script.symm (Option.some_ne_none pairScript)
  | ok resolved =>
    rw [outcome] at script
    obtain ⟨⟨text, scanned⟩, compiled, registered⟩ := resolve_isCompiled outcome
    obtain ⟨pieces, made, stand, lines⟩ := sourceScript_keeps_lines scanned compiled registered
    refine ⟨resolved, pieces, rfl, compiled, registered, made, ?_, stand,
      fun earlier segment later split => (lines earlier segment later split).2⟩
    change (sourceScript resolved.registry resolved.source).toOption = _ at script
    rw [made] at script
    exact Option.some.inj script

end PageCompiler
