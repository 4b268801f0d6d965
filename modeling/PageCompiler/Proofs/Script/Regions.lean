import PageCompiler.Proofs.Script.Strip

/-! # What is left out of a script

A line is left out if it holds a marker that is not empty. Of regions the leftmost ones are left out
that do not overlap, each from an opening marker to the next closing marker behind it. Nothing else
is touched, and when lines are kept the line feeds of what is left out are not touched either.
-/

namespace PageCompiler.Script

/-- What is left of a passage that is left out. -/
def leftBehind (keepLines : Bool) (passage : Text) : Text :=
  if keepLines then Text.lineFeeds passage else []

/-! ## Lines -/

/-- One of the markers that are not empty stands in the line. -/
def HoldsMarker (markers : List Text) (line : Text) : Prop :=
  ∃ marker ∈ markers, marker ≠ [] ∧ marker <:+: line

theorem isMarked_iff {markers : List Text} {line : Text} :
    isMarked markers line = true ↔ HoldsMarker markers line := by
  simp [isMarked, HoldsMarker, Text.contains_iff]

instance (markers : List Text) (line : Text) : Decidable (HoldsMarker markers line) :=
  decidable_of_iff _ isMarked_iff

/-- The line feed of a line is at its end. -/
theorem lineFeeds_of_mem_lines {text line : Text} (member : line ∈ Text.lines text) :
    Text.lineFeeds line = if Text.endsLine line then ['\n'] else [] := by
  have plain {body : Text} (inside : '\n' ∉ body) : Text.lineFeeds body = [] := by
    rw [Text.lineFeeds, List.filter_eq_nil_iff]
    intro c there
    rw [beq_iff_eq]
    rintro rfl
    exact inside there
  obtain ⟨body, inside, rfl | rfl⟩ := (Text.areLines_lines text).shape_of_mem member
  · have feeds : Text.lineFeeds (body ++ ['\n']) = Text.lineFeeds body ++ ['\n'] :=
      List.filter_append body ['\n']
    rw [feeds, plain inside, endsLine_append_lineFeed]
    rfl
  · rw [plain inside, endsLine_of_not_mem inside]
    rfl

theorem stripLine_of_holds {markers : List Text} {text line : Text}
    (member : line ∈ Text.lines text) (keepLines : Bool) (holds : HoldsMarker markers line) :
    stripLine markers keepLines line = leftBehind keepLines line := by
  rw [stripLine, if_pos (isMarked_iff.mpr holds), leftBehind, lineFeeds_of_mem_lines member]
  cases keepLines <;> simp

theorem stripLine_of_not_holds {markers : List Text} {line : Text} (keepLines : Bool)
    (unmarked : ¬ HoldsMarker markers line) : stripLine markers keepLines line = line := by
  rw [stripLine, if_neg (isMarked_iff.not.mpr unmarked)]

/-! ## Regions -/

/-- The leftmost region of a text, with what stands in front of it, in it and behind it. -/
structure IsFirstRegion (opening closing text before inside after : Text) : Prop where
  split : text = before ++ opening ++ inside ++ closing ++ after
  leftmost : ∀ front inner rest,
    text = front ++ opening ++ inner ++ closing ++ rest → before.length ≤ front.length
  shortest : ∀ inner rest,
    text = before ++ opening ++ inner ++ closing ++ rest → inside.length ≤ inner.length

/-- The second text is the first one with the leftmost region cut, and so on behind it. -/
inductive CutsRegions (opening closing : Text) (keepLines : Bool) : Text → Text → Prop where
  | none {text : Text}
      (unclosed : ∀ front inner rest, text ≠ front ++ opening ++ inner ++ closing ++ rest) :
      CutsRegions opening closing keepLines text text
  | region {text before inside after rest : Text}
      (first : IsFirstRegion opening closing text before inside after)
      (others : CutsRegions opening closing keepLines after rest) :
      CutsRegions opening closing keepLines text
        (before ++ leftBehind keepLines (opening ++ inside ++ closing) ++ rest)

section

variable {opening closing text before inside after body : Text}

theorem IsFirstRegion.unique {beforeToo insideToo afterToo : Text}
    (first : IsFirstRegion opening closing text before inside after)
    (firstToo : IsFirstRegion opening closing text beforeToo insideToo afterToo) :
    before = beforeToo ∧ inside = insideToo ∧ after = afterToo := by
  have whole := first.split.symm.trans firstToo.split
  simp only [List.append_assoc] at whole
  -- Neither region starts further left than the other, and then neither is shorter.
  have start : before.length = beforeToo.length :=
    Nat.le_antisymm (first.leftmost _ _ _ firstToo.split) (firstToo.leftmost _ _ _ first.split)
  obtain ⟨rfl, whole⟩ := List.append_inj whole start
  have stop : inside.length = insideToo.length :=
    Nat.le_antisymm (first.shortest _ _ firstToo.split) (firstToo.shortest _ _ first.split)
  have behind : inside ++ (closing ++ after) = insideToo ++ (closing ++ afterToo) :=
    List.append_cancel_left (List.append_cancel_left whole)
  obtain ⟨rfl, closed⟩ := List.append_inj behind stop
  exact ⟨rfl, rfl, List.append_cancel_left closed⟩

theorem CutsRegions.unique {keepLines : Bool} {rest restToo : Text}
    (cuts : CutsRegions opening closing keepLines text rest)
    (cutsToo : CutsRegions opening closing keepLines text restToo) : rest = restToo := by
  induction cuts generalizing restToo with
  | none unclosed =>
    cases cutsToo with
    | none _ => rfl
    | region first _ => exact absurd first.split (unclosed _ _ _)
  | region first _ inductionHypothesis =>
    cases cutsToo with
    | none unclosed => exact absurd first.split (unclosed _ _ _)
    | region firstToo others =>
      obtain ⟨rfl, rfl, rfl⟩ := first.unique firstToo
      rw [inductionHypothesis others]

/-- What stands behind a later opening marker stands behind the first one. -/
theorem exists_body_eq (opens : Text.cut? opening text = some (before, body))
    {front rest : Text} (split : text = front ++ opening ++ rest) :
    ∃ between, body = between ++ rest := by
  have start := Text.eq_append_of_cut? opens
  have early := Text.length_le_of_cut? opens split
  -- Both cuts are through one text, so the earlier one leaves what the later one leaves and more.
  have shorter : (before ++ opening).length ≤ (front ++ opening).length := by
    simp only [List.length_append]
    omega
  obtain ⟨between, further⟩ : before ++ opening <+: front ++ opening :=
    List.prefix_of_prefix_length_le ⟨body, start.symm⟩ ⟨rest, split.symm⟩ shorter
  have same : before ++ opening ++ body = before ++ opening ++ (between ++ rest) := by
    rw [← start, split, ← further, List.append_assoc]
  exact ⟨between, List.append_cancel_left same⟩

theorem isFirstRegion_of_cut? (opens : Text.cut? opening text = some (before, body))
    (closes : Text.cut? closing body = some (inside, after)) :
    IsFirstRegion opening closing text before inside after := by
  have start := Text.eq_append_of_cut? opens
  refine ⟨?_, fun front inner rest split => ?_, fun inner rest split => ?_⟩
  · rw [start, Text.eq_append_of_cut? closes]
    simp
  · have opened : text = front ++ opening ++ (inner ++ closing ++ rest) := by simp [split]
    exact Text.length_le_of_cut? opens opened
  · have closed : before ++ opening ++ body = before ++ opening ++ (inner ++ closing ++ rest) := by
      rw [← start, split]
      simp
    exact Text.length_le_of_cut? closes (List.append_cancel_left closed)

/-- An opening marker that is never closed belongs to no region. -/
theorem unclosed_of_cut? (opens : Text.cut? opening text = some (before, body))
    (closes : Text.cut? closing body = none) (front inner rest : Text) :
    text ≠ front ++ opening ++ inner ++ closing ++ rest := by
  intro split
  have opened : text = front ++ opening ++ (inner ++ closing ++ rest) := by simp [split]
  obtain ⟨between, whole⟩ := exists_body_eq opens opened
  refine Text.cut?_eq_none_iff.mp closes (between ++ inner) rest ?_
  simp [whole]

theorem cutsRegions_cutRegions (opening closing : Text) (opening_ne_nil : opening ≠ [])
    (keepLines : Bool) (text : Text) : CutsRegions opening closing keepLines text
      (cutRegions opening closing opening_ne_nil keepLines text) := by
  fun_induction cutRegions opening closing opening_ne_nil keepLines text with
  | case1 text opens =>
    refine .none fun front inner rest split => ?_
    refine Text.cut?_eq_none_iff.mp opens front (inner ++ closing ++ rest) ?_
    simp [split]
  | case2 text before body opens closes => exact .none (unclosed_of_cut? opens closes)
  | case3 text before body opens inside after closes shorter inductionHypothesis =>
    exact .region (isFirstRegion_of_cut? opens closes) inductionHypothesis

end

/-! ## Closing markers -/

/-- The opening marker of a closing marker is what is written around its first tilde. -/
theorem openingOf_append {front : Text} (first : '~' ∉ front) (back : Text) :
    openingOf (front ++ '~' :: back) = front ++ back := by
  rw [openingOf, List.erase_append_right _ first, List.erase_cons_head]

theorem openingOf_usable {front back : Text} (first : '~' ∉ front) (visible : front ++ back ≠ []) :
    openingOf (front ++ '~' :: back) ≠ front ++ '~' :: back ∧
      openingOf (front ++ '~' :: back) ≠ [] := by
  rw [openingOf_append first]
  refine ⟨fun same => ?_, visible⟩
  have lengths := congrArg List.length same
  simp at lengths

theorem stripBlock_eq_iff {closing : Text}
    (usable : openingOf closing ≠ closing ∧ openingOf closing ≠ []) {keepLines : Bool}
    {text rest : Text} : stripBlock keepLines text closing = rest ↔
      CutsRegions (openingOf closing) closing keepLines text rest := by
  have cuts := cutsRegions_cutRegions (openingOf closing) closing usable.2 keepLines text
  rw [stripBlock, dif_pos usable]
  constructor
  · rintro rfl
    exact cuts
  · exact cuts.unique

/-- Stripping marked lines and regions with their line feeds kept deletes other characters only. A
line goes if it holds a marker that is not empty. With one closing marker, exactly the leftmost
disjoint regions go. -/
theorem strip_keeps_lines (text : Text) (markers : List Text) :
    (∀ rest ∈ [stripLines markers true text, stripBlocks markers true text],
      Text.Thins text rest ∧ (Text.numbered 1 rest).Sublist (Text.numbered 1 text)) ∧
      (∀ keepLines, stripLines markers keepLines text = (Text.lines text).flatMap fun line =>
        if HoldsMarker markers line then leftBehind keepLines line else line) ∧
      ∀ (front back : Text) (keepLines : Bool) (rest : Text), '~' ∉ front → front ++ back ≠ [] →
        (stripBlocks [front ++ '~' :: back] keepLines text = rest ↔
          CutsRegions (front ++ back) (front ++ '~' :: back) keepLines text rest) := by
  refine ⟨fun rest among => ?_, fun keepLines => ?_, ?_⟩
  · have thins : Text.Thins text rest := by
      simp only [List.mem_cons, List.not_mem_nil, or_false] at among
      rcases among with rfl | rfl
      · exact thins_stripLines markers text
      · exact thins_stripBlocks markers text
    exact ⟨thins, thins.sublist_numbered 1⟩
  · rw [stripLines]
    refine List.flatMap_congr fun line member => ?_
    split
    · next holds => exact stripLine_of_holds member keepLines holds
    · next unmarked => exact stripLine_of_not_holds keepLines unmarked
  · intro front back keepLines rest first visible
    have cuts := @stripBlock_eq_iff _ (openingOf_usable first visible) keepLines text rest
    rwa [openingOf_append first] at cuts

/-- An opening marker in a region and a closing marker outside mean nothing, and neither does an
opening marker that is never closed. -/
theorem strip_keeps_lines_twoTildes :
    '~' ∉ "<".toList ∧ "<".toList ++ "~>".toList ≠ [] ∧
      CutsRegions "<~>".toList "<~~>".toList true
        "a<~>b\n<~>c\n<~~>d<~~>e\nf<~>g".toList "a\n\nd<~~>e\nf<~>g".toList := by
  have first : '~' ∉ "<".toList := by decide
  have visible : "<".toList ++ "~>".toList ≠ [] := by decide
  refine ⟨first, visible, ?_⟩
  refine ((strip_keeps_lines "a<~>b\n<~>c\n<~~>d<~~>e\nf<~>g".toList []).2.2 _ _ true _ first
    visible).mp ?_
  decide +kernel

end PageCompiler.Script
