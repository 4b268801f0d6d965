import PageCompiler.Proofs.Text.Cutting
import PageCompiler.Source.Scan

/-! # The grammar of source files

When a list of segments is a valid cut of a source text, said without the scanner. Markers and
directive lines are recognised by how the text goes on, whatever segment that part of it belongs to:
a marker may begin in one passage and end in the next, and a line may run through several of them.
-/

namespace PageCompiler

/-! ## Markers -/

/-- A marker of some kind starts where `text` does. -/
def MarkerAt (text : Text) : Prop :=
  ∃ kind : BlockKind, kind.openMarker <+: text ∨ kind.closeMarker <+: text

/-! ## Directive lines -/

namespace Directive

/-- The line is a directive line with the given keyword and what follows the keyword. -/
inductive Spells : Text → Keyword → Text → Prop where
  | leading {blanks slashes rest : Text} {keyword : Keyword}
      (indented : ∀ c ∈ blanks, c = ' ' ∨ c = '\t') (comment : slashes = [] ∨ slashes = ['/', '/'])
      (member : keyword ∈ Keyword.leading) (ends : ∀ c ∈ rest.head?, Text.isSpace c = true) :
      Spells (blanks ++ slashes ++ keyword.word ++ rest) keyword rest
  | require {blanks spaces rest : Text} (indented : ∀ c ∈ blanks, c = ' ' ∨ c = '\t')
      (spaced : ∀ c ∈ spaces, Text.isSpace c = true)
      (ends : ∀ c ∈ rest.head?, Text.isSpace c = true ∨ c = '<') :
      Spells (blanks ++ ['/', '/', '='] ++ spaces ++ Keyword.requireKeyword.word ++ rest)
        .requireKeyword rest

/-- `core` is `text` without one semicolon at its end. -/
def DropsSemicolon (text core : Text) : Prop :=
  text = core ++ [';'] ∨ text = core ∧ text.getLast? ≠ some ';'

/-- What a leading keyword applies to. -/
def Argument (rest argument : Text) : Prop :=
  ∃ trimmed uncut, Text.Trims rest trimmed ∧ DropsSemicolon trimmed uncut ∧
    Text.TrimsEnd uncut argument

/-- What the word `require` applies to, in angle brackets or as a bare word. -/
inductive Requires : Text → Text → Prop where
  | quoted {inside after path : Text} (unclosed : '>' ∉ inside)
      (closes : ∀ c ∈ after.head?, c = '>') (trimmed : Text.Trims inside path) :
      Requires ('<' :: (inside ++ after)) path
  | bare {text path : Text} {others : List Text} (plain : ∀ c ∈ text.head?, c ≠ '<')
      (words : Text.Pieces Text.isSpace text (path :: others)) : Requires text path

/-- What a directive line with the given keyword asks for; nothing if its argument is bad. -/
inductive Asks : Keyword → Text → Directive → Prop where
  | importModule {rest argument : Text} {name : ModuleName} (argued : Argument rest argument)
      (named : ModuleName.parse argument = .ok name) :
      Asks .importKeyword rest (.importModule name)
  | includeStylesheet {rest argument : Text} {name : ModuleName} (argued : Argument rest argument)
      (named : ModuleName.parse argument = .ok name) :
      Asks .cssKeyword rest (.includeStylesheet name)
  | includeFile {rest argument path : Text} {others : List Text} (argued : Argument rest argument)
      (words : Text.Pieces Text.isSpace argument (path :: others)) :
      Asks .includeKeyword rest (.includeFile path)
  | exportNames {rest argument : Text} {names : List Text} (argued : Argument rest argument)
      (listed : Text.Pieces (fun c => c == ',' || Text.isSpace c) argument names)
      (nonempty : names ≠ []) (identifiers : ∀ name ∈ names, isIdentifier name = true) :
      Asks .exportKeyword rest (.exportNames names)
  | requireFile {rest trimmed word path : Text} (trims : Text.Trims rest trimmed)
      (required : Requires trimmed word) (uncut : DropsSemicolon word path) (nonempty : path ≠ []) :
      Asks .requireKeyword rest (.includeFile (path ++ ".js".toList))

end Directive

/-- The first line of `text` is a directive line, be its argument good or bad. -/
def DirectiveAt (text : Text) : Prop :=
  ∃ line keyword rest, Text.IsFirstLine text line ∧ Directive.Spells line keyword rest

/-- A line starts behind `before`. -/
def AtLineStart (before : Text) : Prop :=
  before = [] ∨ before.getLast? = some '\n'

/-! ## Segments -/

/-- A segment other than script begins between `before` and `after`: a block, or at the start of a
line a directive. -/
def EndsScript (before after : Text) : Prop :=
  MarkerAt after ∨ AtLineStart before ∧ DirectiveAt after

/-- Nothing but script begins inside `passage`, which stands between `before` and `after`. -/
def IsScript (before passage after : Text) : Prop :=
  ∀ front rest, passage = front ++ rest → rest ≠ [] → ¬ EndsScript (before ++ front) (rest ++ after)

/-- The content is what the passage between `before` and `after` says. -/
inductive Fits (before after : Text) : Content → Text → Prop where
  | script {passage : Text} (script : IsScript before passage after) :
      Fits before after (.script passage) passage
  | block {kind : BlockKind} {payload : Text}
      (markerFree : ∀ front rest, payload = front ++ rest → rest ≠ [] →
        ¬ MarkerAt (rest ++ kind.closeMarker ++ after)) :
      Fits before after (.block kind payload) (kind.openMarker ++ payload ++ kind.closeMarker)
  | directive {directive : Directive} {line rest : Text} {keyword : Directive.Keyword}
      (lineStart : AtLineStart before) (whole : Text.IsFirstLine (line ++ after) line)
      (spells : Directive.Spells line keyword rest) (asks : Directive.Asks keyword rest directive) :
      Fits before after (.directive directive) line

def Segment.IsScript (segment : Segment) : Prop :=
  ∃ text, segment.content = .script text

/-- The segments are a valid cut of `text`, which stands behind `before`. -/
structure CutsBehind (before text : Text) (segments : List Segment) : Prop where
  covers : segments.flatMap Segment.raw = text
  nonempty : ∀ segment ∈ segments, segment.raw ≠ []
  starts : ∀ earlier segment later, segments = earlier ++ segment :: later →
    segment.start = (before ++ earlier.flatMap Segment.raw).byteSize
  apart : ∀ earlier first second later, segments = earlier ++ first :: second :: later →
    ¬ (first.IsScript ∧ second.IsScript)
  fits : ∀ earlier segment later, segments = earlier ++ segment :: later →
    Fits (before ++ earlier.flatMap Segment.raw) (later.flatMap Segment.raw) segment.content
      segment.raw

/-- The segments are a valid cut of a whole text. -/
def Segmentation (text : Text) (segments : List Segment) : Prop :=
  CutsBehind [] text segments

/-! ## Cuts from front to back -/

namespace CutsBehind

variable {before text after : Text} {segments : List Segment}

theorem nil_iff : CutsBehind before text [] ↔ text = [] := by
  constructor
  · intro cut
    exact cut.covers.symm
  · rintro rfl
    refine ⟨rfl, fun _ member => absurd member List.not_mem_nil, ?_, ?_, ?_⟩ <;> simp

theorem cons {content : Content} {raw : Text} {start : Nat} (nonempty : raw ≠ [])
    (reached : start = before.byteSize)
    (apart : ∀ next ∈ segments.head?, ¬ (Segment.IsScript ⟨content, raw, start⟩ ∧ next.IsScript))
    (fits : Fits before after content raw) (others : CutsBehind (before ++ raw) after segments) :
    CutsBehind before (raw ++ after) (⟨content, raw, start⟩ :: segments) := by
  have covers := others.covers
  refine ⟨by rw [List.flatMap_cons, covers], ?_, ?_, ?_, ?_⟩
  · intro other member
    rcases List.mem_cons.mp member with rfl | member
    · exact nonempty
    · exact others.nonempty other member
  · intro earlier other later split
    rcases List.cons_eq_append_iff.mp split with ⟨rfl, here⟩ | ⟨between, rfl, there⟩
    · cases here
      simpa using reached
    · rw [others.starts between other later there, List.flatMap_cons, List.append_assoc]
  · intro earlier first second later split
    rcases List.cons_eq_append_iff.mp split with ⟨rfl, here⟩ | ⟨between, rfl, there⟩
    · cases here
      exact apart second rfl
    · exact others.apart between first second later there
  · intro earlier other later split
    rcases List.cons_eq_append_iff.mp split with ⟨rfl, here⟩ | ⟨between, rfl, there⟩
    · cases here
      rw [covers]
      simpa using fits
    · rw [List.flatMap_cons, ← List.append_assoc]
      exact others.fits between other later there

section

variable {content : Content} {raw : Text} {start : Nat}
  (cut : CutsBehind before text (⟨content, raw, start⟩ :: segments))

include cut

theorem head :
    text = raw ++ segments.flatMap Segment.raw ∧ raw ≠ [] ∧ start = before.byteSize ∧
      Fits before (segments.flatMap Segment.raw) content raw := by
  refine ⟨cut.covers.symm, cut.nonempty _ List.mem_cons_self, ?_, ?_⟩
  · simpa using cut.starts [] _ segments rfl
  · simpa using cut.fits [] _ segments rfl

theorem head_apart : ∀ next ∈ segments.head?,
    ¬ (Segment.IsScript ⟨content, raw, start⟩ ∧ next.IsScript) := by
  intro next first
  obtain ⟨later, rfl⟩ := List.head?_eq_some_iff.mp first
  exact cut.apart [] _ next later rfl

theorem tail : CutsBehind (before ++ raw) (segments.flatMap Segment.raw) segments := by
  refine ⟨rfl, fun other member => cut.nonempty other (List.mem_cons_of_mem _ member), ?_, ?_, ?_⟩
  · rintro earlier other later rfl
    simpa using cut.starts (_ :: earlier) other later rfl
  · rintro earlier first second later rfl
    exact cut.apart (_ :: earlier) first second later rfl
  · rintro earlier other later rfl
    simpa using cut.fits (_ :: earlier) other later rfl

end

end CutsBehind

end PageCompiler
