import Mathlib.Data.List.Basic
import PageCompiler.Artifact.Plan
import PageCompiler.Proofs.Markup.ClosingTag

/-! # Elements of a page

A single page holds its stylesheets and its script in elements of their own. What stands in such an
element cannot close it: behind the opening line, the first closing tag is the one that the page
itself has behind the text.
-/

namespace PageCompiler

open Markup (ClosesAt Breaks escapeClosingTag escapeText breaks_escapeClosingTag)

/-! ## Titles -/

theorem angle_not_mem_escapeText (text : Text) : '<' ∉ escapeText text := by
  intro member
  obtain ⟨c, -, written⟩ := List.mem_flatMap.mp member
  rw [Markup.escapeChar] at written
  split_ifs at written with ampersand less greater quote
  · exact absurd written (by decide)
  · exact absurd written (by decide)
  · exact absurd written (by decide)
  · exact absurd written (by decide)
  · exact less (List.mem_singleton.mp written).symm

/-! ## Elements -/

/-- The first place behind `inside` that closes `tag` is the start of `rest`. -/
structure FirstClosing (tag inside rest : Text) : Prop where
  closes : ClosesAt tag rest
  first : ∀ front back, inside = front ++ back → back ≠ [] → ¬ ClosesAt tag (back ++ rest)

/-- A line break is no part of a place, so a place in front of it ends in front of it, too. -/
theorem firstClosing_of_not_closesAt {tag inside rest : Text} (oneLine : '\n' ∉ tag)
    (open_ : ∀ front back, inside = front ++ back → ¬ ClosesAt tag back)
    (closes : ClosesAt tag rest) : FirstClosing tag (inside ++ ['\n']) rest := by
  refine ⟨closes, fun front back split nonempty => ?_⟩
  obtain ⟨inner, last, rfl⟩ := (List.eq_nil_or_concat' back).resolve_left nonempty
  rw [← List.append_assoc] at split
  obtain ⟨rfl, ends⟩ := List.append_inj' split rfl
  obtain rfl := (List.cons.inj ends).1
  rintro ⟨word, after, same, spelled⟩
  rw [List.append_assoc, List.singleton_append, ← List.cons_append, ← List.cons_append] at same
  rcases List.append_eq_append_iff.mp same with ⟨excess, place, later⟩ | ⟨excess, place, -⟩
  · cases excess with
    | nil =>
      rw [List.append_nil] at place
      exact open_ front inner rfl ⟨word, [], by rw [← place, List.append_nil], spelled⟩
    | cons c excess =>
      obtain rfl := (List.cons.inj later).1
      have member : '\n' ∈ '<' :: '/' :: word := by simp [place]
      have inWord : '\n' ∈ word := by simpa using member
      exact oneLine (Markup.mem_of_asciiLowercase_eq (by decide) (by decide) spelled inWord)
  · exact open_ front inner rfl ⟨word, excess, place, spelled⟩

/-- What a page has for an element, in front of `after`: nothing if its text is empty. Otherwise its
text, escaped, and a line break stand between the opening line and the first closing tag. -/
inductive IsElement (tag text after : Text) : Text → Prop where
  | empty (none : text = []) : IsElement tag text after []
  | lines (nonempty : text ≠ [])
      (first : FirstClosing tag (escapeClosingTag tag text ++ ['\n'])
        ("</".toList ++ tag ++ ">\n".toList ++ after)) :
      IsElement tag text after ("<".toList ++ tag ++ ">\n".toList
        ++ (escapeClosingTag tag text ++ ['\n']) ++ ("</".toList ++ tag ++ ">\n".toList))

theorem isElement_element {tag : Text} (single : '<' ∉ tag) (oneLine : '\n' ∉ tag)
    (text after : Text) : IsElement tag text after (element tag text) := by
  by_cases none : text = []
  · have empty : IsElement tag text after [] := .empty none
    simpa [element, none] using empty
  · have closes : ClosesAt tag ("</".toList ++ tag ++ ">\n".toList ++ after) :=
      ⟨tag, ">\n".toList ++ after, by simp, rfl⟩
    have never := (breaks_escapeClosingTag single text).not_closesAt single
    have written := IsElement.lines none (firstClosing_of_not_closesAt oneLine never closes)
    simpa [element, none] using written

/-! ## Pages -/

/-- Escaping puts one backslash into each place that closes an element, nothing else, and leaves no
such place. So in a single page the title starts no tag, and the first closing tags behind the
opening lines of the stylesheet and of the script are those of the page. -/
theorem singlePage_elements :
    (∀ tag text, '<' ∉ tag →
      (∀ front rest, escapeClosingTag tag text = front ++ rest → ¬ ClosesAt tag rest) ∧
        Breaks tag text (escapeClosingTag tag text)) ∧
      ∀ (document : Document) (plan : EmitPlan), ∃ title style script page,
        serialize .singleFile plan document =
          [⟨plan.pathFor "html".toList, "text/html".toList, page⟩] ∧
        page = "<!DOCTYPE html>\n<html>\n<head>\n<meta charset=\"utf-8\">\n<title>".toList
          ++ title ++ "</title>\n".toList ++ style ++ "</head>\n<body>\n".toList
          ++ paragraph document.markupText ++ script ++ "</body>\n</html>\n".toList ∧
        '<' ∉ title ∧
        IsElement "style".toList document.stylesheetText ("</head>\n<body>\n".toList
          ++ paragraph document.markupText ++ script ++ "</body>\n</html>\n".toList) style ∧
        IsElement "script".toList document.scriptText "</body>\n</html>\n".toList script := by
  refine ⟨fun tag text single => ?_, fun document plan => ?_⟩
  · have breaks := breaks_escapeClosingTag single text
    exact ⟨breaks.not_closesAt single, breaks⟩
  · refine ⟨escapeText plan.title, element "style".toList document.stylesheetText,
      element "script".toList document.scriptText, wholePage plan.title document, ?_, ?_,
      angle_not_mem_escapeText plan.title, ?_, ?_⟩
    · rfl
    · unfold wholePage pageHead
      with_reducible rfl
    · exact isElement_element (by decide) (by decide) _ _
    · exact isElement_element (by decide) (by decide) _ _

/-- A document whose texts close the elements that they stand in, twice in a row and behind a sign
that starts no tag. -/
def closingDocument : Document :=
  ⟨[], [⟨"/src/main.css".toList, "a::after \x7b content: '</Style>' \x7d".toList⟩],
    [⟨"/src/main.js".toList, "var s = '<</script></SCRIPT';".toList⟩]⟩

def closingPlan : EmitPlan :=
  .forEntry (.ofString "/src/main.js") (.ofString "/dist") (some "a < b".toList)

theorem singlePage_elements_closingDocument :
    '<' ∉ "script".toList ∧
      escapeClosingTag "script".toList closingDocument.scriptText =
        "var s = '<<\\/script><\\/SCRIPT';".toList ∧
      (∀ front rest, "var s = '<<\\/script><\\/SCRIPT';".toList = front ++ rest →
        ¬ ClosesAt "script".toList rest) ∧
      Breaks "script".toList closingDocument.scriptText
        "var s = '<<\\/script><\\/SCRIPT';".toList ∧
      ∃ title style script page : Text, serialize .singleFile closingPlan closingDocument =
          [⟨closingPlan.pathFor "html".toList, "text/html".toList, page⟩] ∧
        '<' ∉ title ∧
        IsElement "style".toList closingDocument.stylesheetText ("</head>\n<body>\n".toList
          ++ paragraph closingDocument.markupText ++ script ++ "</body>\n</html>\n".toList) style ∧
        IsElement "script".toList closingDocument.scriptText "</body>\n</html>\n".toList
          script := by
  obtain ⟨escapes, pages⟩ := singlePage_elements
  have single : '<' ∉ "script".toList := by decide
  have written : escapeClosingTag "script".toList closingDocument.scriptText =
      "var s = '<<\\/script><\\/SCRIPT';".toList := by decide +kernel
  obtain ⟨never, breaks⟩ := escapes "script".toList closingDocument.scriptText single
  rw [written] at never breaks
  obtain ⟨title, style, script, page, serialized, -, plain, stylesheet, code⟩ :=
    pages closingDocument closingPlan
  exact ⟨single, written, never, breaks, title, style, script, page, serialized, plain, stylesheet,
    code⟩

end PageCompiler
