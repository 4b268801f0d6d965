import PageCompiler.Proofs.Build.MovedSections
import PageCompiler.Proofs.Source.Position

/-! # The trimmed form of texts

Trimming finds the one part of a text that stands between blank lines and white space and itself
starts with a line that shows something and ends with a visible character. Whatever the options ask
for, a document only has fragments of this form: each pass of the assembler takes fragments out and
pushes them back in, and pushing trims.
-/

namespace PageCompiler

namespace Text

/-! ## The core of a text -/

/-- Some lines at the start of `text` are blank, and behind them `core` stands in front of white
space. It is empty, or its first line is not blank and its last character is not white space. -/
structure HasCore (text core : Text) : Prop where
  parts : ∃ blankLines others trailing, lines text = blankLines ++ others ∧
    (∀ line ∈ blankLines, isBlank line = true) ∧ others.flatten = core ++ trailing ∧
    isBlank trailing = true
  form : core = [] ∨ core.IsTidy

variable {text core leading trailing : Text}

theorem isBlank_of_mem_lines {line : Text} (blank : isBlank text = true)
    (member : line ∈ lines text) : isBlank line = true := by
  simp only [isBlank, List.all_eq_true] at blank ⊢
  intro c inside
  apply blank
  rw [← flatten_lines text]
  exact List.mem_flatten.mpr ⟨line, member, inside⟩

theorem Tidies.atLineStart (tidies : text.Tidies core leading trailing) :
    AtLineStart leading := by
  cases last : leading.getLast? with
  | none => exact .inl (List.getLast?_eq_none_iff.mp last)
  | some c => exact .inr (by rw [last, tidies.wholeLines c last])

theorem Tidies.hasCore (tidies : text.Tidies core leading trailing) : text.HasCore core where
  parts := by
    refine ⟨lines leading, lines (core ++ trailing), trailing, ?_, fun line member => ?_, ?_, ?_⟩
    · rw [← (lines_append tidies.atLineStart _).1, ← List.append_assoc, ← tidies.split]
    · exact isBlank_of_mem_lines tidies.blankLines member
    · exact flatten_lines _
    · exact tidies.blankEnd
  form := tidies.tidy.imp_left And.left

theorem HasCore.exists_tidies (hasCore : text.HasCore core) :
    ∃ leading trailing, text.Tidies core leading trailing := by
  obtain ⟨blankLines, others, trailing, split, blank, rest, blankEnd⟩ := hasCore.parts
  have blankFront := isBlank_flatten blank
  have whole : text = blankLines.flatten ++ core ++ trailing := by
    rw [← flatten_lines text, split, List.flatten_append, rest, List.append_assoc]
  cases hasCore.form with
  | inl nothing =>
    -- All of the text is blank, so none of it has to be counted as lines in front.
    subst nothing
    have blankText : isBlank text = true := by
      rw [whole, isBlank_append, isBlank_append]
      exact ⟨⟨blankFront, rfl⟩, blankEnd⟩
    exact ⟨[], text, rfl, rfl, by simp, blankText, .inl ⟨rfl, rfl⟩⟩
  | inr tidy =>
    refine ⟨blankLines.flatten, trailing, whole, blankFront, ?_, blankEnd, .inr tidy⟩
    have areLines := areLines_lines text
    rw [split] at areLines
    cases others with
    | nil => simp [tidy.ne_nil] at rest
    | cons line others => exact areLines.getLast?_front

/-! ## There is one core -/

theorem Tidies.isBlank_iff (tidies : text.Tidies core leading trailing) :
    isBlank text = true ↔ core = [] := by
  constructor
  · intro blank
    rcases tidies.tidy with nothing | tidy
    · exact nothing.1
    · rw [tidies.split, isBlank_append, isBlank_append] at blank
      have starts := tidy.starts
      rw [isBlank_onFirstLine blank.1.2] at starts
      cases starts
  · rintro rfl
    exact tidies.isBlank_of_core_nil

/-- Behind the blank lines that one way to trim takes off, no other way takes off any more. -/
theorem Tidies.leading_eq {coreToo further trailingToo : Text} (tidy : core.IsTidy)
    (tidies : (core ++ trailing).Tidies coreToo further trailingToo) : further = [] := by
  by_contra nonempty
  have blank := tidies.isBlank_first nonempty
  rw [tidy.isBlank_onFirstLine_append trailing] at blank
  cases blank

theorem trimEnd_append (tidy : core.IsTidy) (blank : isBlank trailing = true) :
    trimEnd (core ++ trailing) = core := by
  refine trimEnd_eq_iff.mpr ⟨trailing, rfl, List.all_eq_true.mp blank, fun c last => ?_⟩
  obtain ⟨d, ends, visible⟩ := tidy.ends
  rw [Option.mem_def.mp last, Option.some.injEq] at ends
  rwa [ends]

/-- A way to trim that takes off as many blank lines as another one, or more, leaves the same. -/
theorem Tidies.eq_of_leading_eq_append {coreToo further trailingToo : Text}
    (tidies : text.Tidies core leading trailing) (tidy : core.IsTidy) (tidyToo : coreToo.IsTidy)
    (tidiesToo : text.Tidies coreToo (leading ++ further) trailingToo) : core = coreToo := by
  have whole : leading ++ (core ++ trailing) = leading ++ (further ++ coreToo ++ trailingToo) := by
    rw [← List.append_assoc, ← tidies.split, tidiesToo.split]
    simp
  have rest := List.append_cancel_left whole
  have behind : (core ++ trailing).Tidies coreToo further trailingToo := {
    split := rest
    blankLines := (isBlank_append.mp tidiesToo.blankLines).2
    wholeLines := fun c last => tidiesToo.wholeLines c (by
      rw [List.getLast?_append, Option.mem_def.mp last]
      rfl)
    blankEnd := tidiesToo.blankEnd
    tidy := .inr tidyToo }
  rw [behind.leading_eq tidy, List.nil_append] at rest
  rw [← trimEnd_append tidy tidies.blankEnd, rest, trimEnd_append tidyToo tidiesToo.blankEnd]

theorem Tidies.unique {coreToo leadingToo trailingToo : Text}
    (tidies : text.Tidies core leading trailing)
    (tidiesToo : text.Tidies coreToo leadingToo trailingToo) : core = coreToo := by
  by_cases blank : isBlank text = true
  · rw [tidies.isBlank_iff.mp blank, tidiesToo.isBlank_iff.mp blank]
  · have tidy := tidies.tidy.resolve_left fun nothing => blank (tidies.isBlank_iff.mpr nothing.1)
    have tidyToo := tidiesToo.tidy.resolve_left
      fun nothing => blank (tidiesToo.isBlank_iff.mpr nothing.1)
    have whole : leading ++ (core ++ trailing) = leadingToo ++ (coreToo ++ trailingToo) := by
      rw [← List.append_assoc, ← List.append_assoc, ← tidies.split, ← tidiesToo.split]
    rcases List.append_eq_append_iff.mp whole with ⟨further, rfl, -⟩ | ⟨further, rfl, -⟩
    · exact tidies.eq_of_leading_eq_append tidy tidyToo tidiesToo
    · exact (tidiesToo.eq_of_leading_eq_append tidyToo tidy tidies).symm

end Text

open Script (Injection)
open Text (IsTidy)

theorem hasCore_iff {text core : Text} : text.HasCore core ↔ tidy text = core := by
  obtain ⟨leading, trailing, tidies⟩ := exists_tidies text
  constructor
  · intro hasCore
    obtain ⟨leadingToo, trailingToo, tidiesToo⟩ := hasCore.exists_tidies
    exact tidies.unique tidiesToo
  · rintro rfl
    exact tidies.hasCore

theorem tidy_tidy (text : Text) : tidy (tidy text) = tidy text := by
  by_cases nothing : tidy text = []
  · rw [nothing]
    rfl
  · exact (isTidy_tidy nothing).tidy_eq

/-! ## Documents -/

namespace Document

/-- The document with the fragments of another one at the ends of its sections. -/
def pushFragments (document : Document) (kind : Section) (fragments : List Fragment) : Document :=
  fragments.foldl (fun document fragment => document.push kind fragment.origin fragment.text)
    document

/-- The fragments of a document, pushed into an empty one. -/
def pushedAgain (document : Document) : Document :=
  ((empty.pushFragments .markup document.markup).pushFragments .stylesheet
    document.stylesheet).pushFragments .script document.script

end Document

theorem addFragment_of_isTidy {text : Text} (tidy_ : text.IsTidy) (fragments : List Fragment)
    (origin : Text) : addFragment fragments origin text = fragments ++ [⟨origin, text⟩] := by
  rw [addFragment, tidy_.tidy_eq, if_neg (by simpa using tidy_.ne_nil)]

namespace Document

/-- Pushing adds fragments as they are, if they have their form. -/
theorem pushFragments_eq {fragments : List Fragment}
    (tidy_ : ∀ fragment ∈ fragments, fragment.text.IsTidy) (document : Document) (kind : Section) :
    document.pushFragments kind fragments =
      match kind with
      | .markup => { document with markup := document.markup ++ fragments }
      | .stylesheet => { document with stylesheet := document.stylesheet ++ fragments }
      | .script => { document with script := document.script ++ fragments } := by
  rw [pushFragments]
  induction fragments generalizing document with
  | nil => cases kind <;> simp
  | cons fragment fragments inductionHypothesis =>
    rw [List.forall_mem_cons] at tidy_
    rw [List.foldl_cons, inductionHypothesis tidy_.2]
    cases kind <;> simp [push, addFragment_of_isTidy tidy_.1]

theorem IsTidy.pushedAgain_eq {document : Document} (tidy_ : document.IsTidy) :
    document.pushedAgain = document := by
  have markup := @pushFragments_eq document.markup (tidy_ .markup)
  have stylesheet := @pushFragments_eq document.stylesheet (tidy_ .stylesheet)
  have script := @pushFragments_eq document.script (tidy_ .script)
  rw [pushedAgain, markup, stylesheet, script]
  rfl

theorem isTidy_moveStylesheet {document : Document} (tidy_ : document.IsTidy) :
    (moveStylesheet document).IsTidy := by
  rw [moveStylesheet_eq]
  intro kind
  cases kind with
  | markup => exact tidy_ .markup
  | stylesheet => exact fun _ member => absurd member List.not_mem_nil
  | script =>
    exact (carries_addFragment .stylesheet "css-to-script".toList (tidy_ .stylesheet)
      (tidy_ .script)).2

/-- No option takes the form of a fragment away. -/
theorem isTidy_apply {document : Document} (tidy_ : document.IsTidy) (options : BuildOptions) :
    (options.apply document).IsTidy := by
  have stripped := tidy_.strip options
  have marked : (if options.markupToScript then moveMarkup (options.strip document)
      else options.strip document).IsTidy := by
    split
    · exact stripped.moveMarkup.2.2.2
    · exact stripped
  rw [BuildOptions.apply]
  split
  · exact isTidy_moveStylesheet marked
  · exact marked

theorem isTidy_of_assembled {registry : Registry} {options : BuildOptions} {entry : SourceFile}
    {document : Document} (assembled : assemble registry options entry = .ok document) :
    document.IsTidy := by
  obtain ⟨modules, script, -, -, rfl⟩ := assemble_eq_ok_iff.mp assembled
  have tidy_ : (collected registry modules entry script).IsTidy :=
    Shows.isTidy (collected_shows _ _ _ _)
  exact isTidy_apply tidy_ options

end Document

/-- Trimming finds the one core of a text, and finds it again in itself. Whatever the options ask
for, the fragments of a document are such cores and not empty, so a section has no text only if it
has no fragment, and pushing the fragments once more changes nothing. -/
theorem tidy_normal_form :
    (∀ text core, Text.HasCore text core ↔ tidy text = core) ∧
      (∀ text, tidy (tidy text) = tidy text) ∧
      ∀ (registry : Registry) (options : BuildOptions) (entry : SourceFile) (document : Document),
        assemble registry options entry = .ok document →
        (∀ kind, ∀ fragment ∈ document.fragments kind,
          fragment.text.IsTidy ∧ fragment.text ≠ []) ∧
        (document.markupText = [] ↔ document.markup = []) ∧
        (document.stylesheetText = [] ↔ document.stylesheet = []) ∧
        (document.scriptText = [] ↔ document.script = []) ∧
        document.pushedAgain = document := by
  refine ⟨fun _ _ => hasCore_iff, tidy_tidy, fun registry options entry document assembled => ?_⟩
  have tidy_ := Document.isTidy_of_assembled assembled
  refine ⟨fun kind fragment member => ?_, ?_, ?_, ?_, tidy_.pushedAgain_eq⟩
  · exact ⟨tidy_ kind fragment member, (tidy_ kind fragment member).ne_nil⟩
  · exact joinFragments_eq_nil_iff (tidy_ .markup)
  · exact joinFragments_eq_nil_iff (tidy_ .stylesheet)
  · exact joinFragments_eq_nil_iff (tidy_ .script)

def looseSource : SourceFile :=
  scriptFile "/src/main.js" "/*D*/trace();\n \n  run();\n\t/*>*/stop();\n/*~>*/ \n".toList

/-- A registry with a file for every section and a blank one, with white space around what they
hold. -/
def withLooseFiles : Registry :=
  [("/src/boot.js", Section.script, "\n\tboot();\u2003\n"), ("/src/none.js", .script, " \n\t"),
    ("/src/base.css", .stylesheet, " \n  p \x7b \x7d\n\n"), ("/src/head.html", .markup, "\n<hr>\n")].foldl
    (fun registry (path, kind, text) =>
      registry.attach looseSource.path ⟨.ofString path, kind, text.toList⟩) (.empty .exact)

/-- Marked lines and a region go, the markup moves into script, and all that is left is trimmed. -/
theorem tidy_normal_form_looseFiles :
    ∃ document, assemble withLooseFiles (developmentOptions.moving false true) looseSource =
        .ok document ∧
      document.fragments .stylesheet = [⟨"/src/base.css".toList, "  p \x7b \x7d".toList⟩] ∧
      document.script.map Fragment.text =
        [Injection.markup.script "<hr>".toList "\tboot();\n  run();".toList] ∧
      (∀ kind, ∀ fragment ∈ document.fragments kind,
        fragment.text.IsTidy ∧ fragment.text ≠ []) ∧
      document.pushedAgain = document := by
  have assembled : assemble withLooseFiles (developmentOptions.moving false true) looseSource =
      .ok ⟨[], [⟨"/src/base.css".toList, "  p \x7b \x7d".toList⟩],
        [⟨"markup-to-script".toList,
          Injection.markup.script "<hr>".toList "\tboot();\n  run();".toList⟩]⟩ := by
    decide +kernel
  obtain ⟨form, -, -, -, again⟩ := tidy_normal_form.2.2 _ _ _ _ assembled
  exact ⟨_, assembled, rfl, rfl, form, again⟩

end PageCompiler
