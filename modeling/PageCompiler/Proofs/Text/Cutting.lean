import PageCompiler.Text.Lines
import PageCompiler.Text.Space

/-! # What cutting a text gives

The functions that cut white space off a text, cut it into pieces or take its first line are each
described by a relation that only says how the text is put together.
-/

namespace PageCompiler.Text

/-! ## White space at the ends -/

/-- `core` is `text` without the white space at its end. -/
def TrimsEnd (text core : Text) : Prop :=
  ∃ trailing, text = core ++ trailing ∧ (∀ c ∈ trailing, isSpace c = true) ∧
    ∀ c ∈ core.getLast?, isSpace c = false

/-- `core` is `text` without the white space at either end. -/
def Trims (text core : Text) : Prop :=
  ∃ leading middle, text = leading ++ middle ∧ (∀ c ∈ leading, isSpace c = true) ∧
    (∀ c ∈ middle.head?, isSpace c = false) ∧ TrimsEnd middle core

theorem dropWhile_eq_iff {accepts : Char → Bool} {text rest : Text} :
    text.dropWhile accepts = rest ↔ ∃ leading, text = leading ++ rest ∧
      (∀ c ∈ leading, accepts c = true) ∧ ∀ c ∈ rest.head?, accepts c = false := by
  constructor
  · rintro rfl
    refine ⟨text.takeWhile accepts, List.takeWhile_append_dropWhile.symm, fun c member => ?_,
      fun c first => ?_⟩
    · exact List.all_eq_true.mp List.all_takeWhile c member
    · have dropped := List.head?_dropWhile_not accepts text
      rw [Option.mem_def.mp first] at dropped
      simpa using dropped
  · rintro ⟨leading, rfl, accepted, refused⟩
    rw [List.dropWhile_append_of_pos accepted]
    cases rest with
    | nil => rfl
    | cons c rest => exact List.dropWhile_cons_of_neg (by simp [refused c rfl])

theorem trimEnd_eq_iff {text core : Text} : trimEnd text = core ↔ TrimsEnd text core := by
  rw [trimEnd, List.reverse_eq_iff, dropWhile_eq_iff]
  constructor
  · rintro ⟨trailing, split, blank, ends⟩
    refine ⟨trailing.reverse, ?_, fun c member => blank c (List.mem_reverse.mp member), ?_⟩
    · rw [← List.reverse_inj, split]
      simp
    · rwa [List.head?_reverse] at ends
  · rintro ⟨trailing, rfl, blank, ends⟩
    refine ⟨trailing.reverse, List.reverse_append, fun c member => ?_, ?_⟩
    · exact blank c (List.mem_reverse.mp member)
    · rwa [List.head?_reverse]

theorem trim_eq_iff {text core : Text} : trim text = core ↔ Trims text core := by
  rw [trim, trimEnd_eq_iff]
  constructor
  · intro ends
    obtain ⟨leading, split, blank, starts⟩ := dropWhile_eq_iff.mp (Eq.refl (trimStart text))
    exact ⟨leading, trimStart text, split, blank, starts, ends⟩
  · rintro ⟨leading, middle, split, blank, starts, ends⟩
    rwa [trimStart, dropWhile_eq_iff.mpr ⟨leading, split, blank, starts⟩]

theorem isBlank_append {front back : Text} :
    isBlank (front ++ back) = true ↔ isBlank front = true ∧ isBlank back = true := by
  simp [isBlank]

/-! ## Prefixes and suffixes -/

theorem isPrefixOf?_eq_some_iff {start text rest : Text} :
    start.isPrefixOf? text = some rest ↔ text = start ++ rest := by
  refine ⟨eq_append_of_isPrefixOf?, ?_⟩
  rintro rfl
  induction start with
  | nil => rfl
  | cons c start inductionHypothesis =>
    change (if c == c then start.isPrefixOf? (start ++ rest) else none) = some rest
    rwa [beq_self_eq_true, if_pos rfl]

theorem withoutSuffix?_eq_some_iff {ending text core : Text} :
    withoutSuffix? ending text = some core ↔ text = core ++ ending := by
  rw [withoutSuffix?, Option.map_eq_some_iff]
  constructor
  · rintro ⟨reversed, found, rfl⟩
    rw [isPrefixOf?_eq_some_iff] at found
    rw [← List.reverse_inj, found, List.reverse_append, List.reverse_reverse]
  · rintro rfl
    refine ⟨core.reverse, ?_, List.reverse_reverse core⟩
    rw [isPrefixOf?_eq_some_iff, List.reverse_append]

/-! ## Occurrences -/

/-- A needle is looked for from the front: where it starts, or else behind the first character. -/
theorem cut?_cons (needle : Text) (c : Char) (text : Text) :
    (∃ after, c :: text = needle ++ after ∧ cut? needle (c :: text) = some ([], after)) ∨
      (∀ after, c :: text ≠ needle ++ after) ∧
        cut? needle (c :: text) =
          (cut? needle text).map fun (before, after) => (c :: before, after) := by
  rw [cut?]
  cases starts : needle.isPrefixOf? (c :: text) with
  | some after => exact .inl ⟨after, isPrefixOf?_eq_some_iff.mp starts, rfl⟩
  | none =>
    refine .inr ⟨fun after split => ?_, rfl⟩
    rw [isPrefixOf?_eq_some_iff.mpr split] at starts
    cases starts

theorem cut?_eq_none_iff {needle text : Text} :
    cut? needle text = none ↔ ∀ front rest, text ≠ front ++ needle ++ rest := by
  induction text with
  | nil =>
    rw [cut?]
    by_cases empty : needle = []
    · refine iff_of_false (by simp [empty]) fun absent => absent [] [] (by simp [empty])
    · refine iff_of_true (by simp [empty]) fun front rest split => ?_
      simp [empty] at split
  | cons c text inductionHypothesis =>
    rcases cut?_cons needle c text with ⟨after, split, found⟩ | ⟨other, found⟩
    · refine iff_of_false (by simp [found]) fun absent => absent [] after ?_
      rw [split, List.nil_append]
    · rw [found, Option.map_eq_none_iff, inductionHypothesis]
      constructor
      · intro absent front rest split
        cases front with
        | nil => exact other rest split
        | cons d front => exact absent front rest (List.cons.inj split).2
      · intro absent front rest split
        exact absent (c :: front) rest (by rw [split]; rfl)

/-- A text is cut at the first place where the needle stands. -/
theorem length_le_of_cut? {needle text before after : Text}
    (found : cut? needle text = some (before, after)) {front rest : Text}
    (split : text = front ++ needle ++ rest) : before.length ≤ front.length := by
  induction text generalizing before front with
  | nil =>
    rw [cut?] at found
    split at found
    · cases found
      exact Nat.zero_le _
    · cases found
  | cons c text inductionHypothesis =>
    rcases cut?_cons needle c text with ⟨_, -, cut⟩ | ⟨other, cut⟩
    · rw [found] at cut
      cases cut
      exact Nat.zero_le _
    · rw [found, eq_comm, Option.map_eq_some_iff] at cut
      obtain ⟨⟨inner, behind⟩, foundInner, same⟩ := cut
      cases same
      cases front with
      | nil => exact absurd split (other rest)
      | cons d front =>
        have shorter := inductionHypothesis foundInner (List.cons.inj split).2
        simpa using shorter

theorem contains_iff {text needle : Text} : contains text needle = true ↔ needle <:+: text := by
  rw [contains, Option.isSome_iff_ne_none, ne_eq, cut?_eq_none_iff]
  constructor
  · intro occurs
    simp only [ne_eq, Classical.not_forall, Classical.not_not] at occurs
    obtain ⟨front, rest, split⟩ := occurs
    exact ⟨front, rest, split.symm⟩
  · rintro ⟨front, rest, split⟩ absent
    exact absent front rest split.symm

/-! ## Pieces -/

/-- The longest runs of a text without a separator. -/
inductive Pieces (separates : Char → Bool) : Text → List Text → Prop where
  | none {text : Text} (blank : ∀ c ∈ text, separates c = true) : Pieces separates text []
  | some {leading piece rest : Text} {pieces : List Text}
      (blank : ∀ c ∈ leading, separates c = true) (nonempty : piece ≠ [])
      (inside : ∀ c ∈ piece, separates c = false) (ends : ∀ c ∈ rest.head?, separates c = true)
      (others : Pieces separates rest pieces) :
      Pieces separates (leading ++ piece ++ rest) (piece :: pieces)

section

variable {separates : Char → Bool}

theorem pieces_cons_separator {c : Char} (separator : separates c = true) (text : Text) :
    ((c :: text).splitOnP separates).filter (fun piece => !piece.isEmpty) =
      (text.splitOnP separates).filter fun piece => !piece.isEmpty := by
  have split := List.splitOnP_append_cons [] text separator
  rw [List.nil_append] at split
  rw [split, List.filter_append, List.splitOnP_nil]
  rfl

theorem pieces_append_separators {leading : Text} (blank : ∀ c ∈ leading, separates c = true)
    (text : Text) :
    ((leading ++ text).splitOnP separates).filter (fun piece => !piece.isEmpty) =
      (text.splitOnP separates).filter fun piece => !piece.isEmpty := by
  induction leading with
  | nil => rfl
  | cons c leading inductionHypothesis =>
    rw [List.cons_append, pieces_cons_separator (blank c List.mem_cons_self)]
    exact inductionHypothesis fun d member => blank d (List.mem_cons_of_mem c member)

theorem Pieces.eq {text : Text} {pieces : List Text} (cut : Pieces separates text pieces) :
    (text.splitOnP separates).filter (fun piece => !piece.isEmpty) = pieces := by
  induction cut with
  | none blank =>
    have cleared := pieces_append_separators blank []
    rwa [List.append_nil] at cleared
  | @some leading piece rest pieces blank nonempty inside ends others inductionHypothesis =>
    rw [List.append_assoc, pieces_append_separators blank]
    have kept : [piece].filter (fun piece => !piece.isEmpty) = [piece] := by simpa using nonempty
    cases rest with
    | nil =>
      rw [List.append_nil, List.splitOnP_eq_singleton inside, kept, ← inductionHypothesis]
      rfl
    | cons c rest =>
      have separator := ends c rfl
      rw [List.splitOnP_append_cons _ _ separator, List.splitOnP_eq_singleton inside,
        List.filter_append, kept, ← pieces_cons_separator separator, inductionHypothesis]
      rfl

theorem exists_pieces (separates : Char → Bool) (text : Text) :
    ∃ pieces, Pieces separates text pieces := by
  obtain ⟨leading, split, blank, starts⟩ := dropWhile_eq_iff.mp (Eq.refl (text.dropWhile separates))
  cases found : text.dropWhile separates with
  | nil =>
    rw [found, List.append_nil] at split
    exact ⟨[], .none (split ▸ blank)⟩
  | cons c rest =>
    rw [found] at split starts
    obtain ⟨piece, splitPiece, inside, ends⟩ :=
      dropWhile_eq_iff.mp (Eq.refl ((c :: rest).dropWhile fun c => !separates c))
    generalize (c :: rest).dropWhile (fun c => !separates c) = remaining at splitPiece ends
    -- The text goes on with no separator, so the piece takes at least one character.
    have nonempty : piece ≠ [] := by
      rintro rfl
      rw [List.nil_append] at splitPiece
      subst splitPiece
      have stops := ends c rfl
      rw [starts c rfl] at stops
      cases stops
    have shorter : remaining.length < text.length := by
      have lengths := congrArg List.length splitPiece
      have positive := List.length_pos_iff.mpr nonempty
      simp only [split, List.length_append, List.length_cons] at lengths ⊢
      omega
    obtain ⟨pieces, others⟩ := exists_pieces separates remaining
    refine ⟨piece :: pieces, ?_⟩
    rw [split, splitPiece, ← List.append_assoc]
    exact .some blank nonempty (fun c member => by simpa using inside c member)
      (fun c first => by simpa using ends c first) others
termination_by text.length

theorem pieces_iff {text : Text} {pieces : List Text} :
    (text.splitOnP separates).filter (fun piece => !piece.isEmpty) = pieces ↔
      Pieces separates text pieces := by
  refine ⟨?_, Pieces.eq⟩
  rintro rfl
  obtain ⟨pieces, cut⟩ := exists_pieces separates text
  rwa [cut.eq]

end

theorem mem_join {separator c : Char} {texts : List Text}
    (member : c ∈ join [separator] texts) : c = separator ∨ ∃ text ∈ texts, c ∈ text := by
  induction texts with
  | nil => simp [join] at member
  | cons text texts inductionHypothesis =>
    cases texts with
    | nil => exact .inr ⟨text, by simp, by simpa [join] using member⟩
    | cons next texts =>
      rw [join, List.intercalate_cons_cons, List.mem_append, List.mem_append,
        List.mem_singleton] at member
      rcases member with (here | here) | later
      · exact .inr ⟨text, List.mem_cons_self, here⟩
      · exact .inl here
      · refine (inductionHypothesis later).imp_right ?_
        rintro ⟨other, among, inside⟩
        exact ⟨other, List.mem_cons_of_mem text among, inside⟩

/-- Joined texts end as the last of them does. -/
theorem exists_getLast?_join {ends : Char → Prop} (separator : Text) {texts : List Text}
    (nonempty : texts ≠ []) (each : ∀ text ∈ texts, ∃ c, text.getLast? = some c ∧ ends c) :
    ∃ c, (join separator texts).getLast? = some c ∧ ends c := by
  induction texts with
  | nil => exact absurd rfl nonempty
  | cons text texts inductionHypothesis =>
    cases texts with
    | nil => simpa [join] using each text List.mem_cons_self
    | cons next texts =>
      obtain ⟨c, last, holds⟩ := inductionHypothesis (List.cons_ne_nil next texts)
        fun other member => each other (List.mem_cons_of_mem text member)
      refine ⟨c, ?_, holds⟩
      rw [join] at last ⊢
      simp [List.intercalate_cons_cons, List.getLast?_append, last]

/-! ## Lines -/

/-- The line goes up to the first line feed of the text, or to its end if there is none. -/
inductive IsFirstLine : Text → Text → Prop where
  | ended {body rest : Text} (inside : '\n' ∉ body) :
      IsFirstLine (body ++ '\n' :: rest) (body ++ ['\n'])
  | unended {body : Text} (inside : '\n' ∉ body) : IsFirstLine body body

theorem firstLine_cons_of_ne {c : Char} (different : c ≠ '\n') (rest : Text) :
    firstLine (c :: rest) = (c :: (firstLine rest).1, (firstLine rest).2) := by
  rw [firstLine]
  exact different

theorem firstLine_append_ended {body : Text} (inside : '\n' ∉ body) (rest : Text) :
    firstLine (body ++ '\n' :: rest) = (body ++ ['\n'], rest) := by
  induction body with
  | nil => rfl
  | cons c body inductionHypothesis =>
    rw [List.mem_cons, not_or] at inside
    rw [List.cons_append, firstLine_cons_of_ne (Ne.symm inside.1), inductionHypothesis inside.2]
    rfl

theorem firstLine_unended {body : Text} (inside : '\n' ∉ body) : firstLine body = (body, []) := by
  induction body with
  | nil => rfl
  | cons c body inductionHypothesis =>
    rw [List.mem_cons, not_or] at inside
    rw [firstLine_cons_of_ne (Ne.symm inside.1), inductionHypothesis inside.2]

theorem isFirstLine_iff {text line : Text} : IsFirstLine text line ↔ (firstLine text).1 = line := by
  constructor
  · intro first
    cases first with
    | ended inside => rw [firstLine_append_ended inside]
    | unended inside => rw [firstLine_unended inside]
  · rintro rfl
    by_cases ends : '\n' ∈ text
    · obtain ⟨body, rest, rfl, inside⟩ := List.eq_append_cons_of_mem ends
      rw [firstLine_append_ended inside]
      exact .ended inside
    · rw [firstLine_unended ends]
      exact .unended ends

end PageCompiler.Text
