import PageCompiler.Proofs.Assembly.LineNumbers
import PageCompiler.Proofs.Build.Documents
import PageCompiler.Proofs.Script.Injection

/-! # Sections moved into script

Moving a section into script loses nothing. The script that takes its place can be read again: its
content is the text of the section, and its callback runs the script that was there before. If both
sections move, the stylesheet is the outer one, and its callback is the script that the moved markup
has left.
-/

namespace PageCompiler

open Script (Injection)
open Text (IsTidy)

/-! ## Joined fragments -/

section

variable {fragments : List Fragment} (tidy_ : ∀ fragment ∈ fragments, fragment.text.IsTidy)

include tidy_

theorem endsVisibly_joinFragments (nonempty : fragments ≠ []) :
    (joinFragments fragments).EndsVisibly := by
  apply Text.exists_getLast?_join
  · simpa using nonempty
  · intro text member
    obtain ⟨fragment, there, rfl⟩ := List.mem_map.mp member
    exact (tidy_ fragment there).ends

theorem joinFragments_eq_nil_iff : joinFragments fragments = [] ↔ fragments = [] := by
  constructor
  · intro nothing
    by_contra nonempty
    obtain ⟨c, last, -⟩ := endsVisibly_joinFragments tidy_ nonempty
    rw [nothing] at last
    cases last
  · rintro rfl
    rfl

/-- The text of a section is a callback as it is, unless there is none. -/
theorem callback_joinFragments :
    (if Text.isBlank (joinFragments fragments) then none
      else some (Text.trimEnd (joinFragments fragments))) =
      if joinFragments fragments = [] then none else some (joinFragments fragments) := by
  by_cases nothing : fragments = []
  · subst nothing
    rfl
  · obtain ⟨c, last, visible⟩ := endsVisibly_joinFragments tidy_ nothing
    have shown : ¬ Text.isBlank (joinFragments fragments) = true := by
      intro blank
      have space := List.all_eq_true.mp blank c (List.mem_of_getLast? last)
      rw [visible] at space
      cases space
    have whole : Text.trimEnd (joinFragments fragments) = joinFragments fragments := by
      refine Text.trimEnd_eq_iff.mpr ⟨[], by simp, by simp, fun other found => ?_⟩
      rw [Option.mem_def.mp found] at last
      rwa [Option.some.inj last]
    rw [if_neg shown, whole, if_neg (mt (joinFragments_eq_nil_iff tidy_).mp nothing)]

end

theorem joinFragments_singleton (fragment : Fragment) :
    joinFragments [fragment] = fragment.text := by
  rw [joinFragments, List.map_singleton, Text.join, List.intercalate_singleton]

/-! ## Injections as fragments -/

theorem endsVisibly_callbackArgument (callback : Text) :
    (Injection.callbackArgument callback).EndsVisibly := by
  rw [Injection.callbackArgument]
  split
  · exact ⟨';', rfl, by decide⟩
  · exact Text.EndsVisibly.append ⟨';', rfl, by decide⟩ _

/-- An injection starts with a bracket and ends with a semicolon, whatever it holds. -/
theorem isTidy_script (injection : Injection) (content callback : Text) :
    (injection.script content callback).IsTidy := by
  rw [Injection.script_eq]
  refine ⟨rfl, ?_⟩
  rw [← List.append_assoc, ← List.append_assoc]
  exact (endsVisibly_callbackArgument callback).append _

theorem addFragment_script (origin : Text) (injection : Injection) (content callback : Text) :
    addFragment [] origin (injection.script content callback) =
      [⟨origin, injection.script content callback⟩] := by
  have tidy_ := isTidy_script injection content callback
  rw [addFragment, tidy_.tidy_eq, if_neg (by simpa using tidy_.ne_nil), List.nil_append]

/-- The fragments of a script after a section with the given text has moved into it: if there is
such a text, they are one injection of it, with the script before as its callback. -/
structure Script.Injection.Carries (injection : Injection) (content : Text)
    (before after : List Fragment) : Prop where
  nothing : content = [] → after = before
  carried : content ≠ [] → ∃ fragment, after = [fragment] ∧
    injection.read? fragment.text =
      some (content, if joinFragments before = [] then none else some (joinFragments before))

/-- A fragment keeps an injection as it is, because nothing of it is trimmed. -/
theorem carries_addFragment (injection : Injection) (origin : Text)
    {content before : List Fragment} (tidyContent : ∀ fragment ∈ content, fragment.text.IsTidy)
    (tidyBefore : ∀ fragment ∈ before, fragment.text.IsTidy) :
    let after := if content.isEmpty then before
      else addFragment [] origin (injection.script (joinFragments content) (joinFragments before))
    injection.Carries (joinFragments content) before after ∧
      ∀ fragment ∈ after, fragment.text.IsTidy := by
  by_cases none_ : content = []
  · subst none_
    exact ⟨⟨fun _ => rfl, fun some_ => absurd rfl some_⟩, tidyBefore⟩
  · dsimp only
    rw [if_neg (by simpa using none_), addFragment_script]
    refine ⟨⟨fun nothing => ?_, fun _ => ⟨_, rfl, ?_⟩⟩, fun fragment member => ?_⟩
    · exact absurd ((joinFragments_eq_nil_iff tidyContent).mp nothing) none_
    · rw [Injection.read?_script, callback_joinFragments tidyBefore]
    · rw [List.mem_singleton.mp member]
      exact isTidy_script injection _ _

/-! ## Moved sections -/

namespace Document

def IsTidy (document : Document) : Prop :=
  ∀ kind, ∀ fragment ∈ document.fragments kind, fragment.text.IsTidy

variable {document : Document}

theorem IsTidy.strip (tidy_ : document.IsTidy) (options : BuildOptions) :
    (options.strip document).IsTidy := by
  have kept : (options.strip document).markup = document.markup ∧
      (options.strip document).stylesheet = document.stylesheet := by
    rw [BuildOptions.strip]
    split <;> split <;> exact ⟨rfl, rfl⟩
  intro kind
  cases kind with
  | markup =>
    rw [fragments, kept.1]
    exact tidy_ .markup
  | stylesheet =>
    rw [fragments, kept.2]
    exact tidy_ .stylesheet
  | script => exact options.isTidy_strip (tidy_ .script)

theorem moveMarkup_eq (document : Document) :
    moveMarkup document =
      ⟨[], document.stylesheet, if document.markup.isEmpty then document.script
        else addFragment [] "markup-to-script".toList
          (Injection.markup.script document.markupText document.scriptText)⟩ := by
  rw [moveMarkup]
  by_cases none_ : document.markup.isEmpty = true
  · rw [if_pos none_, if_pos none_, ← List.isEmpty_iff.mp none_]
  · rw [if_neg none_, if_neg none_]
    rfl

theorem moveStylesheet_eq (document : Document) :
    moveStylesheet document =
      ⟨document.markup, [], if document.stylesheet.isEmpty then document.script
        else addFragment [] "css-to-script".toList
          (Injection.stylesheet.script document.stylesheetText document.scriptText)⟩ := by
  rw [moveStylesheet]
  by_cases none_ : document.stylesheet.isEmpty = true
  · rw [if_pos none_, if_pos none_, ← List.isEmpty_iff.mp none_]
  · rw [if_neg none_, if_neg none_]
    rfl

/-- After the markup has moved, the script carries it and the stylesheets are as before. -/
theorem IsTidy.moveMarkup (tidy_ : document.IsTidy) :
    (moveMarkup document).markup = [] ∧ (moveMarkup document).stylesheet = document.stylesheet ∧
      Injection.markup.Carries document.markupText document.script (moveMarkup document).script ∧
      (moveMarkup document).IsTidy := by
  obtain ⟨carries, tidyScript⟩ := carries_addFragment .markup "markup-to-script".toList
    (tidy_ .markup) (tidy_ .script)
  rw [moveMarkup_eq]
  refine ⟨rfl, rfl, carries, fun kind => ?_⟩
  cases kind with
  | markup => exact fun _ member => absurd member List.not_mem_nil
  | stylesheet => exact tidy_ .stylesheet
  | script => exact tidyScript

theorem IsTidy.moveStylesheet (tidy_ : document.IsTidy) :
    (moveStylesheet document).stylesheet = [] ∧
      (moveStylesheet document).markup = document.markup ∧
      Injection.stylesheet.Carries document.stylesheetText document.script
        (moveStylesheet document).script := by
  rw [moveStylesheet_eq]
  exact ⟨rfl, rfl, (carries_addFragment _ _ (tidy_ .stylesheet) (tidy_ .script)).1⟩

end Document

/-! ## Assembled documents -/

/-- The options with other switches for moving sections. -/
def BuildOptions.moving (options : BuildOptions) (stylesheets markup : Bool) : BuildOptions :=
  { options with cssToScript := stylesheets, markupToScript := markup }

/-- All options start from the same document. -/
theorem exists_collected {registry : Registry} {entry : SourceFile} (sound : registry.Sound)
    (held : registry.Holds (importedNames entry)) :
    ∃ collected : Document, collected.IsTidy ∧
      ∀ options : BuildOptions,
        assemble registry options entry = .ok (options.apply collected) := by
  obtain ⟨modules, ordered⟩ :=
    Registry.order_isOk (fun name member => sound.clear (held name member)) entry.path
  obtain ⟨script, made⟩ := sourceScript_isOk held
  exact ⟨collected registry modules entry script, Document.Shows.isTidy (collected_shows _ _ _ _),
    fun options => assemble_eq_ok_iff.mpr ⟨modules, script, ordered, made, rfl⟩⟩

/-- Whatever else the options ask for, moving a section leaves the other one alone and puts one
script in place of the script before, which holds the section and runs that script. -/
theorem assemble_moves_sections {registry : Registry} {entry : SourceFile}
    (sound : registry.Sound) (held : registry.Holds (importedNames entry))
    (options : BuildOptions) :
    ∃ plain styled marked both : Document,
      assemble registry (options.moving false false) entry = .ok plain ∧
      (assemble registry (options.moving true false) entry = .ok styled ∧
        styled.stylesheet = [] ∧ styled.markup = plain.markup ∧
        Injection.stylesheet.Carries plain.stylesheetText plain.script styled.script) ∧
      (assemble registry (options.moving false true) entry = .ok marked ∧
        marked.markup = [] ∧ marked.stylesheet = plain.stylesheet ∧
        Injection.markup.Carries plain.markupText plain.script marked.script) ∧
      assemble registry (options.moving true true) entry = .ok both ∧
      both.stylesheet = [] ∧ both.markup = [] ∧
      Injection.stylesheet.Carries plain.stylesheetText marked.script both.script := by
  obtain ⟨collected, tidy_, assembled⟩ := exists_collected sound held
  have tidyPlain := tidy_.strip options
  obtain ⟨noMarkup, sameStylesheet, markupCarried, tidyMarked⟩ := tidyPlain.moveMarkup
  obtain ⟨noStylesheet, sameMarkup, stylesheetCarried⟩ := tidyPlain.moveStylesheet
  -- What the markup has left is tidy again, so the stylesheets move into it in the same way.
  obtain ⟨noneLeft, sameLeft, outerCarried⟩ := tidyMarked.moveStylesheet
  rw [noMarkup] at sameLeft
  rw [Document.stylesheetText, sameStylesheet] at outerCarried
  exact ⟨_, _, _, _, assembled _, ⟨assembled _, noStylesheet, sameMarkup, stylesheetCarried⟩,
    ⟨assembled _, noMarkup, sameStylesheet, markupCarried⟩, assembled _, noneLeft, sameLeft,
    outerCarried⟩

/-- The stylesheets and the markup hold what would end an array or a literal. -/
def bracketFiles : Store :=
  .ofFiles [(.ofString "/src/main.js",
      (":include base.css\n/*html*/<p title=\"];\">\n</p>/*~html*/\n" ++
        "/*css*/\na \x7b content: '\\5d' \x7d\n/*~css*/\nvar a = [1];\n" ++
        "/*D*/trace();\n").toUTF8),
    (.ofString "/src/base.css", "/* \"].join('') */\np \x7b margin: 0 \x7d\n".toUTF8)] []

def bracketStylesheet : Text :=
  "/* \"].join('') */\np \x7b margin: 0 \x7d\na \x7b content: '\\5d' \x7d".toList

def bracketMarkup : Text :=
  "<p title=\"];\">\n</p>".toList

theorem assemble_moves_sections_bracketFiles :
    ∃ (resolved : Resolved) (plain styled marked both : Document) (alone inner outer : Fragment),
      ((resolve {} (.ofString "/src/main.js") : BuildM (StateM Store) Resolved).run.run
        bracketFiles).1 = .ok resolved ∧
      assemble resolved.registry (developmentOptions.moving false false) resolved.source =
        .ok plain ∧
      (plain.stylesheetText, plain.markupText, plain.scriptText) =
        (bracketStylesheet, bracketMarkup, "var a = [1];".toList) ∧
      assemble resolved.registry (developmentOptions.moving true false) resolved.source =
        .ok styled ∧
      styled.script = [alone] ∧
      Injection.stylesheet.read? alone.text = some (bracketStylesheet, some plain.scriptText) ∧
      assemble resolved.registry (developmentOptions.moving false true) resolved.source =
        .ok marked ∧
      marked.script = [inner] ∧
      Injection.markup.read? inner.text = some (bracketMarkup, some plain.scriptText) ∧
      assemble resolved.registry (developmentOptions.moving true true) resolved.source =
        .ok both ∧
      both.script = [outer] ∧
      Injection.stylesheet.read? outer.text = some (bracketStylesheet, some inner.text) := by
  have texts : ((resolve {} (.ofString "/src/main.js") :
      BuildM (StateM Store) Resolved).run.run bracketFiles).1.toOption.bind (fun resolved =>
        (assemble resolved.registry (developmentOptions.moving false false)
          resolved.source).toOption.map fun plain =>
            (plain.stylesheetText, plain.markupText, plain.scriptText)) =
      some (bracketStylesheet, bracketMarkup, "var a = [1];".toList) := by
    decide +kernel
  cases outcome : ((resolve {} (.ofString "/src/main.js") :
      BuildM (StateM Store) Resolved).run.run bracketFiles).1 with
  | error failure =>
    rw [outcome] at texts
    change none = some _ at texts
    cases texts
  | ok resolved =>
    obtain ⟨sound, held⟩ := resolve_sound outcome
    obtain ⟨plain, styled, marked, both, assembled, ⟨movesStylesheet, -, -, stylesheet⟩,
      ⟨movesMarkup, -, -, markup⟩, movesBoth, -, -, nested⟩ :=
      assemble_moves_sections sound held developmentOptions
    rw [outcome] at texts
    change (assemble resolved.registry _ resolved.source).toOption.map _ = _ at texts
    rw [assembled] at texts
    have shown := Option.some.inj texts
    obtain ⟨sameStylesheet, sameMarkup, sameScript⟩ : plain.stylesheetText = bracketStylesheet ∧
        plain.markupText = bracketMarkup ∧ plain.scriptText = "var a = [1];".toList := by
      simpa only [Prod.mk.injEq] using shown
    have someScript : ¬ joinFragments plain.script = [] := by
      change ¬ plain.scriptText = []
      rw [sameScript]
      decide
    obtain ⟨alone, isAlone, readsAlone⟩ := stylesheet.carried (by rw [sameStylesheet]; decide)
    obtain ⟨inner, isInner, readsInner⟩ := markup.carried (by rw [sameMarkup]; decide)
    obtain ⟨outer, isOuter, readsOuter⟩ := nested.carried (by rw [sameStylesheet]; decide)
    rw [sameStylesheet, if_neg someScript] at readsAlone
    rw [sameMarkup, if_neg someScript] at readsInner
    have someInner : inner.text ≠ [] := by
      intro nothing
      rw [nothing] at readsInner
      cases readsInner
    rw [sameStylesheet, isInner, joinFragments_singleton, if_neg someInner] at readsOuter
    exact ⟨resolved, plain, styled, marked, both, alone, inner, outer, rfl, assembled, shown,
      movesStylesheet, isAlone, readsAlone, movesMarkup, isInner, readsInner, movesBoth, isOuter,
      readsOuter⟩

end PageCompiler
