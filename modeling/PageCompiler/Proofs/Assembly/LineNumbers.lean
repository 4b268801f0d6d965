import Mathlib.Algebra.Order.BigOperators.Group.List
import PageCompiler.Proofs.Assembly.Fragments

/-! # Line numbers of a page

When line feeds are kept, stripping itself moves nothing. But what is left of a fragment is trimmed
again, so blank lines at its start go, line feeds behind its last visible character go, and a
fragment that became blank goes with all its lines. The script of a page keeps its number of lines
exactly when this happens to no fragment, and then every line is the old one without some
characters.
-/

namespace PageCompiler

namespace Text

/-! ## Trimming and lines -/

/-- The first line of a text shows something, and so does the last one. -/
structure ShowsEnds (text : Text) : Prop where
  first : isBlank (onFirstLine text) = false
  last : isBlank (onLastLine text) = false

variable {text core leading trailing : Text}

/-- The ends of a text show something if trimming takes no line feed away. -/
theorem Tidies.showsEnds_iff (tidies : text.Tidies core leading trailing) :
    text.ShowsEnds ↔ core.IsTidy ∧ leading = [] ∧ '\n' ∉ trailing := by
  constructor
  · intro shows_
    have noLeading : leading = [] := by
      by_contra nonempty
      exact absurd shows_.first (by simp [tidies.isBlank_first nonempty])
    have feeds : '\n' ∉ trailing := by
      intro feed
      exact absurd shows_.last (by simp [tidies.isBlank_last feed])
    cases tidies.tidy with
    | inl none =>
      rw [none.1] at tidies
      exact absurd shows_.first (by simp [isBlank_onFirstLine tidies.isBlank_of_core_nil])
    | inr tidy => exact ⟨tidy, noLeading, feeds⟩
  · rintro ⟨tidy, rfl, feeds⟩
    have split : text = core ++ trailing := tidies.split
    have first : isBlank (onFirstLine text) = false := by
      rw [split]
      exact tidy.isBlank_onFirstLine_append trailing
    have last : isBlank (onLastLine text) = false := by
      obtain ⟨c, last, visible⟩ := tidy.ends
      have other : c ≠ '\n' := by
        rintro rfl
        exact absurd visible (by decide)
      obtain ⟨before, rfl⟩ := List.getLast?_eq_some_iff.mp last
      rw [split, onLastLine, List.reverse_append,
        onFirstLine_append_of_not_mem (by simpa using feeds)]
      simp [isBlank, onFirstLine, other, visible]
    exact ⟨first, last⟩

/-- Trimming takes lines away, unless the ends of the text show something. -/
theorem length_lines_tidy (text : Text) :
    (lines (tidy text)).length ≤ text.count '\n' + 1 ∧
      ((lines (tidy text)).length = text.count '\n' + 1 ↔ text.ShowsEnds) := by
  obtain ⟨leading, trailing, tidies⟩ := exists_tidies text
  rw [tidies.showsEnds_iff]
  have count := congrArg (List.count '\n') tidies.split
  simp only [List.count_append] at count
  have noTrailing : trailing.count '\n' = 0 ↔ '\n' ∉ trailing := List.count_eq_zero
  have noLeading : leading.count '\n' = 0 ↔ leading = [] := by
    rw [List.count_eq_zero]
    constructor
    · intro feeds
      by_contra nonempty
      exact feeds (tidies.lineFeed_mem_leading nonempty)
    · rintro rfl
      simp
  cases tidies.tidy with
  | inl none =>
    have untidy : ¬ IsTidy [] := fun tidy => tidy.ne_nil rfl
    simp [none.1, untidy, lines]
  | inr tidy =>
    have length := length_lines tidy.ends.endsInLine
    rw [← noLeading, ← noTrailing]
    simp only [tidy, true_and]
    omega

/-- Where the ends show something, trimming takes nothing but white space within the last line. -/
theorem ShowsEnds.thins_tidy (shows_ : text.ShowsEnds) : Thins text (tidy text) := by
  obtain ⟨leading, trailing, tidies⟩ := exists_tidies text
  obtain ⟨-, noLeading, feeds⟩ := tidies.showsEnds_iff.mp shows_
  have split : text = tidy text ++ trailing := by
    rw [← List.nil_append (tidy text), ← noLeading]
    exact tidies.split
  have cut := (Thins.refl (tidy text)).append (Thins.of_not_mem feeds)
  rwa [List.append_nil, ← split] at cut

end Text

open Text (IsTidy ShowsEnds Thins lines)

/-! ## Stripped fragments -/

namespace BuildOptions

/-- The options without markers for lines and regions. -/
def withoutStripping (options : BuildOptions) : BuildOptions :=
  { options with stripLines := [], stripBlocks := [] }

/-- The ends of a script fragment show something after its regions are cut, and still do so after
its marked lines are left out. -/
structure KeepsEnds (options : BuildOptions) (text : Text) : Prop where
  blocks : ShowsEnds (Script.stripBlocks options.stripBlocks options.keepLines text)
  lines : ShowsEnds (options.stripped text)

variable {options : BuildOptions} {text : Text}

theorem length_lines_stripped (keeps : options.keepLines = true) (tidy_ : text.IsTidy) :
    (lines (tidy (options.stripped text))).length ≤ (lines text).length ∧
      ((lines (tidy (options.stripped text))).length = (lines text).length ↔
        options.KeepsEnds text) := by
  -- Each of the two passes keeps the line feeds, and trimming loses lines behind each of them.
  have cut := (Script.thins_stripBlocks options.stripBlocks text).count_eq
  rw [← keeps] at cut
  have left := (Script.thins_stripLines options.stripLines
    (tidy (Script.stripBlocks options.stripBlocks options.keepLines text))).count_eq
  rw [← keeps, ← stripped] at left
  have length := Text.length_lines tidy_.ends.endsInLine
  have outer := Text.length_lines_tidy
    (Script.stripBlocks options.stripBlocks options.keepLines text)
  have inner := Text.length_lines_tidy (options.stripped text)
  have both : options.KeepsEnds text ↔
      ShowsEnds (Script.stripBlocks options.stripBlocks options.keepLines text) ∧
        ShowsEnds (options.stripped text) :=
    ⟨fun keeps => ⟨keeps.blocks, keeps.lines⟩, fun shows_ => ⟨shows_.1, shows_.2⟩⟩
  rw [both, ← outer.2, ← inner.2]
  by_cases gone : tidy (Script.stripBlocks options.stripBlocks options.keepLines text) = []
  · have nothing : options.stripped text = [] := by rw [stripped, gone]; rfl
    have blank : lines (tidy (options.stripped text)) = [] := by rw [nothing]; rfl
    rw [gone] at outer ⊢
    simp only [blank, lines, List.length_nil]
    omega
  · have between := Text.length_lines (isTidy_tidy gone).ends.endsInLine
    omega

theorem KeepsEnds.thins (keepsEnds : options.KeepsEnds text) (keeps : options.keepLines = true) :
    Thins text (tidy (options.stripped text)) := by
  have blocks := Script.thins_stripBlocks options.stripBlocks text
  have marked := Script.thins_stripLines options.stripLines
    (tidy (Script.stripBlocks options.stripBlocks options.keepLines text))
  rw [← keeps] at blocks marked
  exact ((blocks.trans keepsEnds.blocks.thins_tidy).trans marked).trans keepsEnds.lines.thins_tidy

theorem KeepsEnds.ne_nil (keepsEnds : options.KeepsEnds text) :
    tidy (options.stripped text) ≠ [] := by
  intro none
  have lost := (Text.length_lines_tidy (options.stripped text)).2.mpr keepsEnds.lines
  simp [none, Text.lines] at lost

end BuildOptions

/-! ## Script fragments together -/

theorem length_lines_joinFragments {fragments : List Fragment}
    (tidy_ : ∀ fragment ∈ fragments, fragment.text.IsTidy) :
    (lines (joinFragments fragments)).length =
      (fragments.map fun fragment => (lines fragment.text).length).sum := by
  rw [joinFragments, Text.length_lines_join, List.map_map]
  · rfl
  · intro text member
    obtain ⟨fragment, there, rfl⟩ := List.mem_map.mp member
    exact (tidy_ fragment there).ends.endsInLine

theorem endsInLine_joinFragments {fragments : List Fragment}
    (tidy_ : ∀ fragment ∈ fragments, fragment.text.IsTidy) (nonempty : fragments ≠ []) :
    (joinFragments fragments).EndsInLine := by
  apply Text.endsInLine_join
  · simpa using nonempty
  · intro text member
    obtain ⟨fragment, there, rfl⟩ := List.mem_map.mp member
    exact (tidy_ fragment there).ends.endsInLine

/-- A fragment that becomes blank has no lines any more. -/
theorem sum_lines_withText? (change : Text → Text) (fragments : List Fragment) :
    ((fragments.filterMap fun fragment => fragment.withText? (change fragment.text)).map
      fun fragment => (lines fragment.text).length).sum =
      (fragments.map fun fragment => (lines (tidy (change fragment.text))).length).sum := by
  induction fragments with
  | nil => rfl
  | cons fragment others inductionHypothesis =>
    by_cases gone : tidy (change fragment.text) = []
    · simp [fragment.withText?_of_nil gone, inductionHypothesis, gone, lines]
    · simp [fragment.withText?_of_ne_nil gone, inductionHypothesis]

theorem sum_lines_le {small large : Fragment → Nat} {fragments : List Fragment}
    (le : ∀ fragment ∈ fragments, small fragment ≤ large fragment) :
    (fragments.map small).sum ≤ (fragments.map large).sum ∧
      ((fragments.map small).sum = (fragments.map large).sum ↔
        ∀ fragment ∈ fragments, small fragment = large fragment) := by
  induction fragments with
  | nil => simp
  | cons fragment others inductionHypothesis =>
    have here := le fragment List.mem_cons_self
    obtain ⟨rest, same⟩ :=
      inductionHypothesis fun other member => le other (List.mem_cons_of_mem fragment member)
    simp only [List.map_cons, List.sum_cons, List.forall_mem_cons, ← same]
    omega

namespace Document

variable {document : Document} {options : BuildOptions}

theorem length_lines_strip (keeps : options.keepLines = true)
    (tidy_ : ∀ fragment ∈ document.script, fragment.text.IsTidy) :
    (lines (options.strip document).scriptText).length ≤ (lines document.scriptText).length ∧
      ((lines (options.strip document).scriptText).length = (lines document.scriptText).length ↔
        ∀ fragment ∈ document.script, options.KeepsEnds fragment.text) := by
  rw [scriptText, scriptText, length_lines_joinFragments tidy_,
    length_lines_joinFragments (options.isTidy_strip tidy_), options.strip_script tidy_,
    sum_lines_withText?]
  have each fragment (member : fragment ∈ document.script) :=
    BuildOptions.length_lines_stripped keeps (tidy_ fragment member)
  obtain ⟨le, same⟩ := sum_lines_le fun fragment member => (each fragment member).1
  refine ⟨le, same.trans (forall₂_congr fun fragment member => (each fragment member).2)⟩

/-- Where no fragment loses one of its ends, the script is thinned. -/
theorem thins_strip (keeps : options.keepLines = true)
    (tidy_ : ∀ fragment ∈ document.script, fragment.text.IsTidy)
    (keepsEnds : ∀ fragment ∈ document.script, options.KeepsEnds fragment.text) :
    Thins document.scriptText (options.strip document).scriptText := by
  have all : (options.strip document).script =
      document.script.map fun fragment =>
        ⟨fragment.origin, tidy (options.stripped fragment.text)⟩ := by
    rw [options.strip_script tidy_, ← List.filterMap_eq_map]
    apply List.filterMap_congr
    intro fragment member
    exact fragment.withText?_of_ne_nil (keepsEnds fragment member).ne_nil
  rw [scriptText, scriptText, joinFragments, joinFragments, all]
  apply Thins.join
  rw [List.map_map, List.forall₂_map_left_iff, List.forall₂_map_right_iff, List.forall₂_same]
  intro fragment member
  rw [Function.comp_apply]
  exact (keepsEnds fragment member).thins keeps

/-- Lines keep their places where no fragment loses one of its ends. -/
theorem forall₂_lines_strip (keeps : options.keepLines = true)
    (tidy_ : ∀ fragment ∈ document.script, fragment.text.IsTidy)
    (keepsEnds : ∀ fragment ∈ document.script, options.KeepsEnds fragment.text) :
    List.Forall₂ List.Sublist (lines (options.strip document).scriptText)
      (lines document.scriptText) := by
  have thins := thins_strip keeps tidy_ keepsEnds
  by_cases none : document.script = []
  · have nothing : (options.strip document).script = [] := by
      rw [options.strip_script tidy_, none]
      rfl
    simp [scriptText, none, nothing, joinFragments, Text.join, lines]
  · apply thins.forall₂_lines
    apply endsInLine_joinFragments (options.isTidy_strip tidy_)
    obtain ⟨fragment, member⟩ := List.exists_mem_of_ne_nil _ none
    rw [options.strip_script tidy_]
    exact List.ne_nil_of_mem (List.mem_filterMap.mpr
      ⟨fragment, member, fragment.withText?_of_ne_nil (keepsEnds fragment member).ne_nil⟩)

end Document

/-! ## Assembling with and without stripping -/

/-- Stripping is all that the options for stripping change. -/
theorem assemble_eq_strip {registry : Registry} {options : BuildOptions} {entry : SourceFile}
    {plain : Document} (stylesheets : options.cssToScript = false)
    (markup : options.markupToScript = false)
    (assembled : assemble registry options.withoutStripping entry = .ok plain) :
    assemble registry options entry = .ok (options.strip plain) := by
  obtain ⟨modules, script, ordered, made, rfl⟩ := assemble_eq_ok_iff.mp assembled
  refine assemble_eq_ok_iff.mpr ⟨modules, script, ordered, made, ?_⟩
  simp [BuildOptions.apply, BuildOptions.strip, BuildOptions.withoutStripping, stylesheets, markup]

/-- With line feeds kept, stripping makes the script of a page no longer; it has as many lines as
without stripping exactly if the ends of every fragment still show something, and then each line is
the line with the same number without some characters. -/
theorem assemble_keeps_lines_iff {registry : Registry} {options : BuildOptions}
    {entry : SourceFile} {plain : Document} (keeps : options.keepLines = true)
    (stylesheets : options.cssToScript = false) (markup : options.markupToScript = false)
    (assembled : assemble registry options.withoutStripping entry = .ok plain) :
    ∃ document, assemble registry options entry = .ok document ∧
      (lines document.scriptText).length ≤ (lines plain.scriptText).length ∧
      ((lines document.scriptText).length = (lines plain.scriptText).length ↔
        ∀ fragment ∈ plain.script, options.KeepsEnds fragment.text) ∧
      ((lines document.scriptText).length = (lines plain.scriptText).length →
        List.Forall₂ List.Sublist (lines document.scriptText) (lines plain.scriptText)) := by
  have tidy_ : ∀ fragment ∈ plain.fragments .script, fragment.text.IsTidy := by
    apply isTidy_of_assemble _ _ _ _ assembled .script
    · rfl
    · rfl
    · exact stylesheets
    · exact markup
  obtain ⟨le, same⟩ := Document.length_lines_strip keeps tidy_
  refine ⟨options.strip plain, assemble_eq_strip stylesheets markup assembled, le, same, ?_⟩
  intro equal
  exact Document.forall₂_lines_strip keeps tidy_ (same.mp equal)

/-- A source file without directives and blocks. -/
def scriptFile (path : String) (text : Text) : SourceFile :=
  ⟨.ofString path, text, [⟨.script text, text, 0⟩]⟩

def developmentOptions : BuildOptions where
  stripLines := ["/*D*/".toList]
  stripBlocks := ["/*~>*/".toList]
  keepLines := true

def tracedInside : SourceFile :=
  scriptFile "/src/main.js" "start();\n/*D*/trace();\nrun(/*>*/1,\n2/*~>*/);\n".toList

/-- A registry with a script that the file includes, which has a marked and a blank line inside. -/
def withStartScript : Registry :=
  (Registry.empty .exact).attach tracedInside.path
    ⟨.ofString "/src/boot.js", .script, "boot();\n/*D*/trace();\n\nready();\n".toList⟩

/-- Two fragments lose lines and a region inside, and keep their ends. -/
theorem assemble_keeps_lines_iff_tracedInside :
    ∃ document, assemble withStartScript developmentOptions tracedInside = .ok document ∧
      List.Forall₂ List.Sublist (lines document.scriptText)
        (lines ("boot();\n/*D*/trace();\n\nready();\n" ++
          "start();\n/*D*/trace();\nrun(/*>*/1,\n2/*~>*/);").toList) := by
  have plain : assemble withStartScript developmentOptions.withoutStripping tracedInside =
      .ok ⟨[], [],
        [⟨"/src/boot.js".toList, "boot();\n/*D*/trace();\n\nready();".toList⟩,
          ⟨"/src/main.js".toList, "start();\n/*D*/trace();\nrun(/*>*/1,\n2/*~>*/);".toList⟩]⟩ := by
    cbv
  have keeps : developmentOptions.keepLines = true := rfl
  obtain ⟨document, assembled, -, same, places⟩ := assemble_keeps_lines_iff keeps rfl rfl plain
  refine ⟨document, assembled, places (same.mpr ?_)⟩
  simp only [List.forall_mem_cons, List.not_mem_nil, false_implies, implies_true, and_true]
  exact ⟨⟨⟨by decide +kernel, by decide +kernel⟩, ⟨by decide +kernel, by decide +kernel⟩⟩,
    ⟨⟨by decide +kernel, by decide +kernel⟩, ⟨by decide +kernel, by decide +kernel⟩⟩⟩

def tracedFirst : SourceFile :=
  scriptFile "/src/main.js" "/*D*/trace();\nrun();\n".toList

/-- The marked first line goes with its line feed, and the second line moves up. -/
theorem lines_move_up_tracedFirst :
    ∃ document plain,
      assemble (.empty .exact) developmentOptions tracedFirst = .ok document ∧
      assemble (.empty .exact) developmentOptions.withoutStripping tracedFirst = .ok plain ∧
      document.scriptText = "run();".toList ∧
      plain.scriptText = "/*D*/trace();\nrun();".toList ∧
      (lines document.scriptText).length = 1 ∧ (lines plain.scriptText).length = 2 := by
  refine ⟨⟨[], [], [⟨"/src/main.js".toList, "run();".toList⟩]⟩,
    ⟨[], [], [⟨"/src/main.js".toList, "/*D*/trace();\nrun();".toList⟩]⟩, ?_⟩
  exact ⟨by cbv, by cbv, rfl, rfl, rfl, rfl⟩

end PageCompiler
