import PageCompiler.Proofs.Build.MovedSections
import PageCompiler.Proofs.Script.MarkedLines

/-! # Marked lines of a page

Marked lines are left out of each fragment after its regions have been cut. What is left is trimmed
and stands on lines of its own, so a line of the script is a line of some fragment up to the white
space at its end: none of them holds a marker, and all others that show something are still there.
-/

namespace PageCompiler

open Text (visibleLines visibleLinesOf)

/-! ## Fragments -/

theorem Text.Tidies.visibleLinesOf_eq {text core leading trailing : Text}
    (tidies : text.Tidies core leading trailing) : visibleLinesOf text = visibleLinesOf core := by
  rw [tidies.split, Text.visibleLinesOf_append_blank _ tidies.blankEnd]
  rcases List.eq_nil_or_concat' leading with rfl | ⟨front, c, rfl⟩
  · rfl
  · obtain rfl := tidies.wholeLines c (by simp)
    rw [List.append_assoc, List.singleton_append, Text.visibleLinesOf_append_lineFeed,
      Text.visibleLinesOf_blank (Text.isBlank_append.mp tidies.blankLines).1, List.nil_append]

theorem visibleLinesOf_tidy (text : Text) : visibleLinesOf (tidy text) = visibleLinesOf text := by
  obtain ⟨leading, trailing, tidies⟩ := exists_tidies text
  exact tidies.visibleLinesOf_eq.symm

theorem infix_of_tidy {needle text : Text} (found : needle <:+: tidy text) : needle <:+: text := by
  obtain ⟨leading, trailing, tidies⟩ := exists_tidies text
  rw [tidies.split]
  exact found.trans (List.infix_append _ _ _)

theorem joinFragments_cons_cons (first second : Fragment) (others : List Fragment) :
    joinFragments (first :: second :: others) =
      first.text ++ '\n' :: joinFragments (second :: others) := by
  simp [joinFragments, Text.join, List.intercalate_cons_cons]

theorem visibleLinesOf_joinFragments (fragments : List Fragment) :
    visibleLinesOf (joinFragments fragments) =
      fragments.flatMap fun fragment => visibleLinesOf fragment.text := by
  induction fragments with
  | nil => exact Text.visibleLinesOf_nil
  | cons first others inductionHypothesis =>
    cases others with
    | nil => simp [joinFragments, Text.join]
    | cons second others =>
      rw [joinFragments_cons_cons, Text.visibleLinesOf_append_lineFeed, inductionHypothesis]
      rfl

/-- What has no line feed stands in one of the joined fragments. -/
theorem exists_of_infix_joinFragments {needle : Text} (inside : '\n' ∉ needle)
    (nonempty : needle ≠ []) {fragments : List Fragment}
    (found : needle <:+: joinFragments fragments) :
    ∃ fragment ∈ fragments, needle <:+: fragment.text := by
  induction fragments with
  | nil => exact absurd (List.infix_nil.mp found) nonempty
  | cons first others inductionHypothesis =>
    cases others with
    | nil => exact ⟨first, List.mem_cons_self, by simpa [joinFragments, Text.join] using found⟩
    | cons second others =>
      rw [joinFragments_cons_cons, Text.infix_append_lineFeed_iff inside] at found
      rcases found with here | later
      · exact ⟨first, List.mem_cons_self, here⟩
      · obtain ⟨fragment, member, there⟩ := inductionHypothesis later
        exact ⟨fragment, List.mem_cons_of_mem _ member, there⟩

theorem Fragment.text_of_withText? (fragment : Fragment) {made : Fragment} {text : Text}
    (found : fragment.withText? text = some made) : made.text = tidy text := by
  by_cases gone : tidy text = []
  · simp [withText?_of_nil fragment gone] at found
  · rw [withText?_of_ne_nil fragment gone, Option.some.injEq] at found
    exact found ▸ rfl

/-- A fragment that becomes blank had nothing to show any more. -/
theorem visibleLinesOf_withText? (change : Text → Text) (fragments : List Fragment) :
    ((fragments.filterMap fun fragment => fragment.withText? (change fragment.text)).flatMap
      fun fragment => visibleLinesOf fragment.text) =
      fragments.flatMap fun fragment => visibleLinesOf (change fragment.text) := by
  induction fragments with
  | nil => rfl
  | cons fragment others inductionHypothesis =>
    rw [List.flatMap_cons, ← inductionHypothesis, ← visibleLinesOf_tidy (change fragment.text)]
    by_cases gone : tidy (change fragment.text) = []
    · simp [fragment.withText?_of_nil gone, gone]
    · simp [fragment.withText?_of_ne_nil gone]

/-! ## Scripts of pages -/

namespace BuildOptions

/-- The options without markers for lines. -/
def withoutLineMarkers (options : BuildOptions) : BuildOptions :=
  { options with stripLines := [] }

variable {options : BuildOptions} {document : Document}

/-- Marked lines are left out of the fragments that the regions leave. -/
theorem strip_script_eq (tidy_ : ∀ fragment ∈ document.script, fragment.text.IsTidy) :
    (options.strip document).script =
      (options.withoutLineMarkers.strip document).script.filterMap fun fragment =>
        fragment.withText? (Script.stripLines options.stripLines options.keepLines
          fragment.text) := by
  have idle (none : options.stripLines.isEmpty = true) (text : Text) :
      Script.stripLines options.stripLines options.keepLines text = text := by
    rw [List.isEmpty_iff.mp none, Script.stripLines_no_markers]
  exact Document.unless_mapScript_script idle (options.withoutLineMarkers.isTidy_strip tidy_)

theorem not_holdsMarker_of_strip (tidy_ : ∀ fragment ∈ document.script, fragment.text.IsTidy)
    (single : ∀ marker ∈ options.stripLines, '\n' ∉ marker) :
    ∀ line ∈ (options.strip document).scriptText.splitOn '\n',
      ¬ Script.HoldsMarker options.stripLines line := by
  rintro line member ⟨marker, among, nonempty, found⟩
  have inScript := (Text.infix_iff_exists_line (single marker among) _).mpr ⟨line, member, found⟩
  obtain ⟨fragment, there, inFragment⟩ :=
    exists_of_infix_joinFragments (single marker among) nonempty inScript
  rw [strip_script_eq tidy_] at there
  obtain ⟨old, -, made⟩ := List.mem_filterMap.mp there
  refine Script.not_infix_stripLines single options.keepLines among nonempty old.text ?_
  exact infix_of_tidy (old.text_of_withText? made ▸ inFragment)

theorem visibleLines_of_strip (tidy_ : ∀ fragment ∈ document.script, fragment.text.IsTidy)
    (single : ∀ marker ∈ options.stripLines, '\n' ∉ marker) :
    visibleLines ((options.strip document).scriptText.splitOn '\n') =
      visibleLines (((options.withoutLineMarkers.strip document).script.flatMap fun fragment =>
        fragment.text.splitOn '\n').filter fun line =>
          ¬ Script.HoldsMarker options.stripLines line) := by
  rw [List.filter_flatMap, Text.visibleLines_flatMap, Document.scriptText, ← visibleLinesOf,
    visibleLinesOf_joinFragments, strip_script_eq tidy_, visibleLinesOf_withText?]
  simp only [Script.visibleLinesOf_stripLines single]

end BuildOptions

/-- No line of the script of a page holds a marker, and what shows something in the script are all
the other lines that the cut regions leave, in their order and up to the white space at their
ends. -/
theorem assemble_strips_marked_lines {registry : Registry} {entry : SourceFile}
    (sound : registry.Sound) (held : registry.Holds (importedNames entry)) {options : BuildOptions}
    (stylesheets : options.cssToScript = false) (markup : options.markupToScript = false)
    (single : ∀ marker ∈ options.stripLines, '\n' ∉ marker) :
    ∃ cut document, assemble registry options.withoutLineMarkers entry = .ok cut ∧
      assemble registry options entry = .ok document ∧
      (∀ line ∈ document.scriptText.splitOn '\n',
        ¬ Script.HoldsMarker options.stripLines line) ∧
      visibleLines (document.scriptText.splitOn '\n') =
        visibleLines ((cut.script.flatMap fun fragment => fragment.text.splitOn '\n').filter
          fun line => ¬ Script.HoldsMarker options.stripLines line) := by
  obtain ⟨collected, tidy_, assembled⟩ := exists_collected sound held
  have cuts : options.withoutLineMarkers.apply collected =
      options.withoutLineMarkers.strip collected := by
    simp [BuildOptions.apply, BuildOptions.withoutLineMarkers, stylesheets, markup]
  have strips : options.apply collected = options.strip collected := by
    simp [BuildOptions.apply, stylesheets, markup]
  refine ⟨_, _, assembled options.withoutLineMarkers, assembled options, ?_, ?_⟩
  · rw [strips]
    exact BuildOptions.not_holdsMarker_of_strip (tidy_ .script) single
  · rw [strips, cuts]
    exact BuildOptions.visibleLines_of_strip (tidy_ .script) single

/-- Markers in an attachment, in an alias, in a string literal and around a region. -/
def tracedFiles : Store :=
  .ofFiles [(.ofString "/src/main.js",
      (":include boot.js\n:import dev.trace\nvar t = \"t\";  \n" ++
        "var s = /*js.string*/<i>/*D*/</i>/*~js.string*/;\n" ++
        "log(/*/*>*/1,\n2/*~>*/D*/);\nrun(/*>*/1,\n2/*~>*/);\n").toUTF8),
    (.ofString "/src/boot.js", "\nboot(); \n/*D*/log();\n\nready();\n".toUTF8),
    (.ofString "/src/dev/trace.js", "function trace() \x7b\x7d\n".toUTF8)] []

def tracingOptions : BuildOptions where
  stripLines := ["".toList, "/*D*/".toList, "var trace =".toList]
  stripBlocks := ["/*~>*/".toList]

/-- The script of the page when only its regions are cut; the first of them stood in a marker. -/
def cutScript : Text :=
  ("var dev = dev || \x7b\x7d;\ndev.trace = (function () \x7b\nfunction trace() \x7b\x7d\n" ++
    "return trace;\n\x7d());\nboot(); \n/*D*/log();\n\nready();\nvar trace = dev.trace;\n" ++
    "var t = \"t\";  \nvar s = \"<i>/*D*/</i>\";\nlog(/*D*/);\nrun();").toList

def unmarkedScript : Text :=
  ("var dev = dev || \x7b\x7d;\ndev.trace = (function () \x7b\nfunction trace() \x7b\x7d\n" ++
    "return trace;\n\x7d());\nboot(); \n\nready();\nvar t = \"t\";  \nrun();").toList

theorem assemble_strips_marked_lines_tracedFiles :
    ∃ (resolved : Resolved) (cut document : Document),
      ((resolve {} (.ofString "/src/main.js") : BuildM (StateM Store) Resolved).run.run
        tracedFiles).1 = .ok resolved ∧
      (∀ marker ∈ tracingOptions.stripLines, '\n' ∉ marker) ∧
      assemble resolved.registry tracingOptions.withoutLineMarkers resolved.source = .ok cut ∧
      assemble resolved.registry tracingOptions resolved.source = .ok document ∧
      (cut.scriptText, document.scriptText) = (cutScript, unmarkedScript) ∧
      (∀ line ∈ unmarkedScript.splitOn '\n',
        ¬ Script.HoldsMarker tracingOptions.stripLines line) ∧
      visibleLines (unmarkedScript.splitOn '\n') =
        visibleLines ((cut.script.flatMap fun fragment => fragment.text.splitOn '\n').filter
          fun line => ¬ Script.HoldsMarker tracingOptions.stripLines line) := by
  have texts : ((resolve {} (.ofString "/src/main.js") :
      BuildM (StateM Store) Resolved).run.run tracedFiles).1.toOption.bind (fun resolved =>
        (assemble resolved.registry tracingOptions.withoutLineMarkers
          resolved.source).toOption.bind fun cut =>
            (assemble resolved.registry tracingOptions resolved.source).toOption.map
              fun document => (cut.scriptText, document.scriptText)) =
      some (cutScript, unmarkedScript) := by
    decide +kernel
  have single : ∀ marker ∈ tracingOptions.stripLines, '\n' ∉ marker := by decide
  cases outcome : ((resolve {} (.ofString "/src/main.js") :
      BuildM (StateM Store) Resolved).run.run tracedFiles).1 with
  | error failure =>
    rw [outcome] at texts
    change none = some _ at texts
    cases texts
  | ok resolved =>
    obtain ⟨sound, held⟩ := resolve_sound outcome
    obtain ⟨cut, document, cuts, strips, unmarked, visible⟩ :=
      assemble_strips_marked_lines sound held rfl rfl single
    rw [outcome] at texts
    change (assemble resolved.registry _ resolved.source).toOption.bind _ = _ at texts
    rw [cuts] at texts
    change (assemble resolved.registry _ resolved.source).toOption.map _ = _ at texts
    rw [strips] at texts
    have shown : (cut.scriptText, document.scriptText) = (cutScript, unmarkedScript) :=
      Option.some.inj texts
    rw [(Prod.mk.inj shown).2] at unmarked visible
    exact ⟨resolved, cut, document, rfl, single, cuts, strips, shown, unmarked, visible⟩

end PageCompiler
