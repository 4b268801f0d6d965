import PageCompiler.Assembly.Page
import PageCompiler.Proofs.Assembly.Pieces
import PageCompiler.Proofs.Assembly.Trimming
import PageCompiler.Proofs.Script.Strip

/-! # The form of fragments

A fragment starts with a line that shows something and ends with a visible character. Trimming gives
a text this form by taking blank lines off its start and white space off its end, and it takes
nothing off a text that has the form already. Stripping pushes what is left of every script fragment
back into the document, so it changes fragments one by one.
-/

namespace PageCompiler

namespace Text

/-! ## First and last line -/

/-- What stands on the first line of a text. -/
def onFirstLine (text : Text) : Text :=
  text.takeWhile (· != '\n')

/-- What stands on the last line of a text; nothing, if the text ends with a line feed. -/
def onLastLine (text : Text) : Text :=
  onFirstLine text.reverse

theorem onFirstLine_append_of_mem {front : Text} (inside : '\n' ∈ front) (rest : Text) :
    onFirstLine (front ++ rest) = onFirstLine front := by
  induction front with
  | nil => simp at inside
  | cons c front inductionHypothesis =>
    by_cases feed : c = '\n'
    · simp [onFirstLine, feed]
    · have later := inductionHypothesis (by simpa [Ne.symm feed] using inside)
      simpa [onFirstLine, feed] using later

theorem onFirstLine_append_of_not_mem {front : Text} (inside : '\n' ∉ front) (rest : Text) :
    onFirstLine (front ++ rest) = front ++ onFirstLine rest := by
  apply List.takeWhile_append_of_pos
  intro c member
  simp only [bne_iff_ne, ne_eq]
  rintro rfl
  exact inside member

theorem isBlank_onFirstLine {text : Text} (blank : isBlank text = true) :
    isBlank (onFirstLine text) = true := by
  simp only [isBlank, List.all_eq_true] at blank ⊢
  intro c member
  exact blank c ((List.takeWhile_sublist _).mem member)

/-- The first line of a text shows what the first of its lines shows. -/
theorem AreLines.isBlank_onFirstLine {line : Text} {others : List Text}
    (areLines : AreLines (line :: others)) :
    isBlank (onFirstLine (line :: others).flatten) = isBlank line := by
  cases areLines with
  | last inside _ =>
    have whole := onFirstLine_append_of_not_mem inside []
    simp only [onFirstLine, List.append_nil, List.takeWhile_nil] at whole
    simp [onFirstLine, whole]
  | ended inside _ =>
    rw [List.flatten_cons, List.append_assoc, onFirstLine_append_of_not_mem inside]
    simp [isBlank, onFirstLine, show isSpace '\n' = true from by decide]

theorem EndsVisibly.endsInLine {text : Text} (ends : text.EndsVisibly) : text.EndsInLine := by
  obtain ⟨c, last, visible⟩ := ends
  refine ⟨c, last, ?_⟩
  rintro rfl
  exact absurd visible (by decide)

/-! ## Trimmed texts -/

/-- The first line shows something, and the last character is visible. -/
structure IsTidy (text : Text) : Prop where
  starts : isBlank (onFirstLine text) = false
  ends : text.EndsVisibly

/-- `core` is `text` without some blank lines at its start and white space at its end. -/
structure Tidies (text core leading trailing : Text) : Prop where
  split : text = leading ++ core ++ trailing
  blankLines : isBlank leading = true
  wholeLines : ∀ c ∈ leading.getLast?, c = '\n'
  blankEnd : isBlank trailing = true
  tidy : core = [] ∧ leading = [] ∨ core.IsTidy

theorem IsTidy.ne_nil {text : Text} (tidy : text.IsTidy) : text ≠ [] := by
  rintro rfl
  exact absurd tidy.starts (by decide)

theorem IsTidy.isBlank_onFirstLine_append {text : Text} (tidy : text.IsTidy) (rest : Text) :
    isBlank (onFirstLine (text ++ rest)) = false := by
  have starts := tidy.starts
  by_cases inside : '\n' ∈ text
  · rwa [onFirstLine_append_of_mem inside]
  · -- All of the text stands on the first line.
    rw [← List.append_nil text, onFirstLine_append_of_not_mem inside] at starts
    rw [onFirstLine_append_of_not_mem inside]
    rw [← Bool.not_eq_true, isBlank_append] at starts ⊢
    exact fun blank => starts ⟨blank.1, rfl⟩

theorem isBlank_flatten {texts : List Text} (blank : ∀ text ∈ texts, isBlank text = true) :
    isBlank texts.flatten = true := by
  simp only [isBlank, List.all_eq_true, List.mem_flatten] at blank ⊢
  rintro c ⟨text, member, inside⟩
  exact blank text member c inside

/-- A blank text that does not end in white space is empty. -/
theorem eq_nil_of_isBlank {text : Text} (blank : isBlank text = true)
    (visible : ∀ c ∈ text.getLast?, isSpace c = false) : text = [] := by
  rw [← List.getLast?_eq_none_iff, Option.eq_none_iff_forall_ne_some]
  intro c last
  have space := List.all_eq_true.mp blank c (List.mem_of_getLast? last)
  simp [visible c last] at space

theorem AreLines.isTidy_flatten {line : Text} {others : List Text}
    (areLines : AreLines (line :: others)) (shows_ : isBlank line = false)
    (visible : ∀ c ∈ (line :: others).flatten.getLast?, isSpace c = false) :
    IsTidy (line :: others).flatten := by
  have starts : isBlank (onFirstLine (line :: others).flatten) = false :=
    areLines.isBlank_onFirstLine.trans shows_
  have nonempty : (line :: others).flatten ≠ [] := by
    intro none
    simp [none, isBlank, onFirstLine] at starts
  obtain ⟨c, last⟩ := Option.ne_none_iff_exists'.mp (mt List.getLast?_eq_none_iff.mp nonempty)
  exact ⟨starts, c, last, visible c last⟩

end Text

open Text (IsTidy Tidies isBlank onFirstLine onLastLine)

theorem exists_tidies (text : Text) :
    ∃ leading trailing, text.Tidies (tidy text) leading trailing := by
  obtain ⟨trailing, split, blankEnd, visible⟩ :=
    Text.trimEnd_eq_iff.mp (Eq.refl (Text.trimEnd text))
  have areLines := Text.areLines_lines (Text.trimEnd text)
  have whole := Text.flatten_lines (Text.trimEnd text)
  rw [tidy]
  generalize Text.trimEnd text = core at *
  generalize Text.lines core = ls at *
  -- The lines in front of the first one that shows something, and the lines from there on.
  have cut := List.takeWhile_append_dropWhile (p := isBlank) (l := ls)
  have first := List.head?_dropWhile_not isBlank ls
  have blankFront : isBlank (ls.takeWhile isBlank).flatten = true :=
    Text.isBlank_flatten (List.all_eq_true.mp List.all_takeWhile)
  generalize ls.takeWhile isBlank = front at *
  refine ⟨front.flatten, trailing, ?_⟩
  cases dropped : ls.dropWhile isBlank with
  | nil =>
    rw [dropped, List.append_nil] at cut
    -- All is blank, and the trimmed text does not end in white space.
    have none : front.flatten = [] := by
      apply Text.eq_nil_of_isBlank blankFront
      rwa [cut, whole]
    exact {
      split := by rw [split, ← whole, ← cut]; simp
      blankLines := blankFront
      wholeLines := by simp [none]
      blankEnd := List.all_eq_true.mpr blankEnd
      tidy := .inl ⟨rfl, none⟩ }
  | cons line others =>
    rw [dropped] at cut first
    have shows_ : isBlank line = false := by simpa using first
    have parts : core = front.flatten ++ (line :: others).flatten := by
      rw [← List.flatten_append, cut, whole]
    rw [← cut] at areLines
    have ends : ∀ c ∈ (line :: others).flatten.getLast?, Text.isSpace c = false := by
      intro c last
      exact visible c (by rw [parts, List.getLast?_append, last]; rfl)
    exact {
      split := by rw [split, parts]
      blankLines := blankFront
      wholeLines := areLines.getLast?_front
      blankEnd := List.all_eq_true.mpr blankEnd
      tidy := .inr (areLines.of_append.isTidy_flatten shows_ ends) }

namespace Text.Tidies

variable {text core leading trailing : Text}

theorem lineFeed_mem_leading (tidies : text.Tidies core leading trailing)
    (nonempty : leading ≠ []) : '\n' ∈ leading := by
  obtain ⟨c, last⟩ := Option.ne_none_iff_exists'.mp (mt List.getLast?_eq_none_iff.mp nonempty)
  exact tidies.wholeLines c last ▸ List.mem_of_getLast? last

/-- Blank lines at the start of a text make its first line blank. -/
theorem isBlank_first (tidies : text.Tidies core leading trailing) (nonempty : leading ≠ []) :
    isBlank (onFirstLine text) = true := by
  rw [tidies.split, List.append_assoc,
    onFirstLine_append_of_mem (tidies.lineFeed_mem_leading nonempty)]
  exact isBlank_onFirstLine tidies.blankLines

/-- A line feed behind the last visible character makes the last line blank. -/
theorem isBlank_last (tidies : text.Tidies core leading trailing) (feed : '\n' ∈ trailing) :
    isBlank (onLastLine text) = true := by
  rw [tidies.split, onLastLine, List.reverse_append,
    onFirstLine_append_of_mem (List.mem_reverse.mpr feed)]
  apply isBlank_onFirstLine
  simpa [isBlank] using tidies.blankEnd

theorem isBlank_of_core_nil (tidies : text.Tidies [] leading trailing) : isBlank text = true := by
  rw [tidies.split, isBlank_append, isBlank_append]
  exact ⟨⟨tidies.blankLines, rfl⟩, tidies.blankEnd⟩

end Text.Tidies

/-! ## Trimming once more -/

theorem isTidy_tidy {text : Text} (nonempty : tidy text ≠ []) : IsTidy (tidy text) := by
  obtain ⟨leading, trailing, tidies⟩ := exists_tidies text
  cases tidies.tidy with
  | inl none => exact absurd none.1 nonempty
  | inr tidy => exact tidy

/-- A trimmed text stays as it is. -/
theorem Text.IsTidy.tidy_eq {text : Text} (tidy_ : text.IsTidy) : tidy text = text := by
  obtain ⟨leading, trailing, tidies⟩ := exists_tidies text
  have noLeading : leading = [] := by
    by_contra nonempty
    have blank := tidies.isBlank_first nonempty
    simp [tidy_.starts] at blank
  have noTrailing : trailing = [] := by
    by_contra nonempty
    -- The last character would be one of the white space.
    obtain ⟨c, last, visible⟩ := tidy_.ends
    have inside : c ∈ trailing := by
      rw [tidies.split, List.getLast?_append_of_ne_nil _ nonempty] at last
      exact List.mem_of_getLast? last
    simp [List.all_eq_true.mp tidies.blankEnd c inside] at visible
  simpa [noLeading, noTrailing] using tidies.split.symm

/-! ## Fragments one by one -/

/-- A fragment with another text, none if that is blank. -/
def Fragment.withText? (fragment : Fragment) (text : Text) : Option Fragment :=
  if (tidy text).isEmpty then none else some ⟨fragment.origin, tidy text⟩

theorem Fragment.withText?_of_nil (fragment : Fragment) {text : Text} (none_ : tidy text = []) :
    fragment.withText? text = none := by
  simp [withText?, none_]

theorem Fragment.withText?_of_ne_nil (fragment : Fragment) {text : Text} (some_ : tidy text ≠ []) :
    fragment.withText? text = some ⟨fragment.origin, tidy text⟩ := by
  simp [withText?, some_]

theorem Fragment.withText?_self {fragment : Fragment} (tidy_ : fragment.text.IsTidy) :
    fragment.withText? fragment.text = some fragment := by
  rw [withText?_of_ne_nil fragment (by rw [tidy_.tidy_eq]; exact tidy_.ne_nil), tidy_.tidy_eq]

theorem Fragment.isTidy_of_withText? (fragment : Fragment) {made : Fragment} {text : Text}
    (found : fragment.withText? text = some made) : made.text.IsTidy := by
  by_cases gone : tidy text = []
  · simp [withText?_of_nil fragment gone] at found
  · rw [withText?_of_ne_nil fragment gone, Option.some.injEq] at found
    exact found ▸ isTidy_tidy gone

namespace Document

theorem mapScript_script (document : Document) (change : Text → Text) :
    (document.mapScript change).script =
      document.script.filterMap fun fragment => fragment.withText? (change fragment.text) := by
  suffices general : ∀ before : List Fragment,
      document.script.foldl (fun fragments fragment =>
        addFragment fragments fragment.origin (change fragment.text)) before =
        before ++ document.script.filterMap fun fragment =>
          fragment.withText? (change fragment.text) from general []
  induction document.script with
  | nil => simp
  | cons fragment others inductionHypothesis =>
    intro before
    rw [List.foldl_cons, inductionHypothesis, addFragment, List.filterMap_cons, Fragment.withText?]
    by_cases blank : (tidy (change fragment.text)).isEmpty <;> simp [blank]

/-- A change that may be left out, because it leaves every text alone then. -/
theorem unless_mapScript_script {document : Document} {change : Text → Text} {idle : Bool}
    (same : idle = true → ∀ text, change text = text)
    (tidy_ : ∀ fragment ∈ document.script, fragment.text.IsTidy) :
    (if idle then document else document.mapScript change).script =
      document.script.filterMap fun fragment => fragment.withText? (change fragment.text) := by
  cases idle with
  | false => exact mapScript_script document change
  | true =>
    rw [if_pos rfl]
    conv_lhs => rw [← List.filterMap_some (l := document.script)]
    apply List.filterMap_congr
    intro fragment member
    rw [same rfl, Fragment.withText?_self (tidy_ fragment member)]

end Document

namespace BuildOptions

/-- What is left of a script fragment, before its ends are trimmed once more. -/
def stripped (options : BuildOptions) (text : Text) : Text :=
  Script.stripLines options.stripLines options.keepLines
    (tidy (Script.stripBlocks options.stripBlocks options.keepLines text))

theorem strip_script (options : BuildOptions) {document : Document}
    (tidy_ : ∀ fragment ∈ document.script, fragment.text.IsTidy) :
    (options.strip document).script =
      document.script.filterMap fun fragment =>
        fragment.withText? (options.stripped fragment.text) := by
  have idle (none : options.stripBlocks.isEmpty = true) (text : Text) :
      Script.stripBlocks options.stripBlocks options.keepLines text = text := by
    rw [List.isEmpty_iff.mp none]
    rfl
  have blocks := Document.unless_mapScript_script idle tidy_
  rw [strip]
  generalize (if options.stripBlocks.isEmpty then document else document.mapScript
    (Script.stripBlocks options.stripBlocks options.keepLines)) = between at blocks
  have tidyBetween : ∀ fragment ∈ between.script, fragment.text.IsTidy := by
    rw [blocks]
    intro fragment member
    obtain ⟨old, -, made⟩ := List.mem_filterMap.mp member
    exact Fragment.isTidy_of_withText? _ made
  rw [Document.unless_mapScript_script (fun none text => by
    rw [List.isEmpty_iff.mp none, Script.stripLines_no_markers]) tidyBetween, blocks,
    List.filterMap_filterMap]
  apply List.filterMap_congr
  intro fragment _
  by_cases gone : tidy (Script.stripBlocks options.stripBlocks options.keepLines fragment.text) = []
  · rw [Fragment.withText?_of_nil fragment gone, Option.bind_none, Fragment.withText?_of_nil]
    simp [stripped, gone]
    rfl
  · rw [Fragment.withText?_of_ne_nil fragment gone, Option.bind_some, stripped]
    simp only [Fragment.withText?]

theorem isTidy_strip (options : BuildOptions) {document : Document}
    (tidy_ : ∀ fragment ∈ document.script, fragment.text.IsTidy) :
    ∀ fragment ∈ (options.strip document).script, fragment.text.IsTidy := by
  rw [options.strip_script tidy_]
  intro fragment member
  obtain ⟨old, -, made⟩ := List.mem_filterMap.mp member
  exact Fragment.isTidy_of_withText? _ made

end BuildOptions

theorem Document.Shows.isTidy {document : Document} {pieces : List Piece}
    (shows_ : document.Shows pieces) (kind : Section) :
    ∀ fragment ∈ document.fragments kind, fragment.text.IsTidy := by
  intro fragment member
  rw [shows_ kind] at member
  obtain ⟨piece, -, made⟩ := List.mem_filterMap.mp member
  exact Fragment.isTidy_of_withText? ⟨piece.origin, piece.text⟩ made

/-- Without further processing, the fragments of an assembled document have their form. -/
theorem isTidy_of_assemble {registry : Registry} {options : BuildOptions} {entry : SourceFile}
    {document : Document} (lines : options.stripLines = []) (blocks : options.stripBlocks = [])
    (stylesheets : options.cssToScript = false) (markup : options.markupToScript = false)
    (assembled : assemble registry options entry = .ok document) (kind : Section) :
    ∀ fragment ∈ document.fragments kind, fragment.text.IsTidy := by
  obtain ⟨modules, script, -, -, shows_⟩ :=
    shows_of_assemble lines blocks stylesheets markup assembled
  exact shows_.isTidy kind

end PageCompiler
