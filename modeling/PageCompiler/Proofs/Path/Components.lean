import Mathlib.Data.List.Basic
import PageCompiler.Path.Basic

/-! # Components of paths

`ofComponents` writes down what `components` reads: the components of a path are again the
components of its key. So two paths name the same place exactly if they have one key.
-/

namespace PageCompiler.Path

/-! ## Pieces -/

theorem not_mem_of_mem_splitOn {separator : Char} {text piece : Text}
    (member : piece ∈ text.splitOn separator) : separator ∉ piece := by
  induction text generalizing piece with
  | nil =>
    rw [List.splitOn_nil, List.mem_singleton] at member
    rw [member]
    exact List.not_mem_nil
  | cons c text inductionHypothesis =>
    obtain ⟨first, others, pieces⟩ :=
      List.exists_cons_of_ne_nil (List.splitOn_ne_nil separator text)
    rw [pieces] at inductionHypothesis
    rw [List.splitOn, List.splitOnP_cons_eq_if_modifyHead, ← List.splitOn, pieces] at member
    by_cases splits : c = separator
    · rw [if_pos (beq_iff_eq.mpr splits)] at member
      rcases List.mem_cons.mp member with rfl | member
      · exact List.not_mem_nil
      · exact inductionHypothesis member
    · rw [if_neg (by simpa using splits), List.modifyHead_cons] at member
      rcases List.mem_cons.mp member with rfl | member
      · exact List.not_mem_cons_of_ne_of_not_mem (Ne.symm splits)
          (inductionHypothesis List.mem_cons_self)
      · exact inductionHypothesis (List.mem_cons_of_mem _ member)

namespace Component

/-- What a piece between two slashes can stand for. -/
def IsInner (component : Component) : Prop :=
  ofPiece? component.text = some component ∧ '/' ∉ component.text

theorem text_of_ofPiece? {piece : Text} {component : Component}
    (stands : ofPiece? piece = some component) : component.text = piece := by
  rw [ofPiece?] at stands
  split at stands
  · cases stands
  · split at stands
    · next dots =>
      cases stands
      exact dots.symm
    · cases stands
      rfl

theorem isInner_of_mem_splitOn {text piece : Text} {component : Component}
    (member : piece ∈ text.splitOn '/') (stands : ofPiece? piece = some component) :
    component.IsInner := by
  rw [← text_of_ofPiece? stands] at member stands
  exact ⟨stands, not_mem_of_mem_splitOn member⟩

theorem filterMap_ofPiece? {components : List Component}
    (inner : ∀ component ∈ components, component.IsInner) :
    (components.map text).filterMap ofPiece? = components := by
  rw [List.filterMap_map]
  calc
    components.filterMap (ofPiece? ∘ text) = components.filterMap some :=
      List.filterMap_congr fun component member => (inner component member).1
    _ = components := List.filterMap_some

theorem IsInner.text_ne_dot {component : Component} (inner : component.IsInner) :
    component.text ≠ ['.'] := by
  intro same
  have stands := inner.1
  rw [same] at stands
  cases stands

theorem IsInner.text_ne_nil {component : Component} (inner : component.IsInner) :
    component.text ≠ [] := by
  intro same
  have stands := inner.1
  rw [same] at stands
  cases stands

theorem IsInner.head?_text_ne {component : Component} (inner : component.IsInner) :
    component.text.head? ≠ some '/' :=
  fun starts => inner.2 (List.mem_of_mem_head? starts)

end Component

/-! ## Lists of components -/

/-- The lists that are the components of some path: a slash or a `.` can stand in front only. -/
inductive IsRead : List Component → Prop where
  | absolute {others : List Component} (inner : ∀ component ∈ others, component.IsInner) :
      IsRead (.root :: others)
  | current {others : List Component} (inner : ∀ component ∈ others, component.IsInner) :
      IsRead (.current :: others)
  | relative {others : List Component} (inner : ∀ component ∈ others, component.IsInner) :
      IsRead others

theorem isInner_of_mem_filterMap {text : Text} {pieces : List Text}
    (among : ∀ piece ∈ pieces, piece ∈ text.splitOn '/') :
    ∀ component ∈ pieces.filterMap Component.ofPiece?, component.IsInner := by
  intro component member
  obtain ⟨piece, there, stands⟩ := List.mem_filterMap.mp member
  exact Component.isInner_of_mem_splitOn (among piece there) stands

theorem isRead_components (path : Path) : IsRead path.components := by
  rw [components]
  split
  · exact .absolute (isInner_of_mem_filterMap fun _ => id)
  · split
    · next first others pieces =>
      have among : ∀ piece ∈ others, piece ∈ path.text.splitOn '/' :=
        fun piece member => pieces ▸ List.mem_cons_of_mem _ member
      have behind := isInner_of_mem_filterMap among
      split
      · exact .current behind
      · refine .relative fun component member => ?_
        rcases List.mem_append.mp member with front | later
        · exact Component.isInner_of_mem_splitOn (pieces ▸ List.mem_cons_self)
            (Option.mem_toList.mp front)
        · exact behind component later
    · exact .relative fun _ member => absurd member List.not_mem_nil

/-- Joined pieces are split at the slashes between them. -/
theorem splitOn_join {pieces : List Text} (whole : ∀ piece ∈ pieces, '/' ∉ piece)
    (nonempty : pieces ≠ []) : (Text.join ['/'] pieces).splitOn '/' = pieces :=
  List.splitOn_intercalate '/' whole nonempty

theorem slash_not_mem_texts {components : List Component}
    (inner : ∀ component ∈ components, component.IsInner) :
    ∀ piece ∈ components.map Component.text, '/' ∉ piece := by
  intro piece member
  obtain ⟨component, there, rfl⟩ := List.mem_map.mp member
  exact (inner component there).2

theorem not_isAbsolute_join {first : Text} {others : List Text} (starts : first.head? ≠ some '/')
    (nonempty : first ≠ []) : isAbsolute ⟨Text.join ['/'] (first :: others)⟩ = false := by
  obtain ⟨c, rest, rfl⟩ := List.exists_cons_of_ne_nil nonempty
  cases others <;> simpa [isAbsolute, Text.join, List.intercalate] using starts

theorem components_absolute {components : List Component}
    (inner : ∀ component ∈ components, component.IsInner) :
    (ofComponents (.root :: components)).components = .root :: components := by
  have split := List.splitOn_append_cons_self (a := '/') []
    (Text.join ['/'] (components.map Component.text))
  have absolute : isAbsolute ⟨'/' :: Text.join ['/'] (components.map Component.text)⟩ = true := rfl
  rw [ofComponents, Path.components, if_pos absolute]
  dsimp only
  rw [← List.nil_append ('/' :: _), split, List.filterMap_append]
  cases components with
  | nil => rfl
  | cons first others =>
    rw [splitOn_join (slash_not_mem_texts inner) (by simp), Component.filterMap_ofPiece? inner]
    rfl

theorem components_current {components : List Component}
    (inner : ∀ component ∈ components, component.IsInner) :
    (ofComponents (.current :: components)).components = .current :: components := by
  have whole : ∀ piece ∈ ['.'] :: components.map Component.text, '/' ∉ piece :=
    List.forall_mem_cons.mpr ⟨by decide, slash_not_mem_texts inner⟩
  change Path.components ⟨Text.join ['/'] (['.'] :: components.map Component.text)⟩ = _
  rw [Path.components, not_isAbsolute_join (by decide) (by decide), if_neg Bool.false_ne_true,
    splitOn_join whole (by simp)]
  dsimp only
  rw [if_pos rfl, Component.filterMap_ofPiece? inner]
  rfl

theorem components_relative {components : List Component}
    (inner : ∀ component ∈ components, component.IsInner) :
    (ofComponents components).components = components := by
  cases components with
  | nil => rfl
  | cons first others =>
    have front := inner first List.mem_cons_self
    have joined : ofComponents (first :: others) =
        ⟨Text.join ['/'] (first.text :: others.map Component.text)⟩ := by
      cases first with
      | root => exact absurd List.mem_cons_self front.2
      | _ => rfl
    rw [joined, Path.components, not_isAbsolute_join front.head?_text_ne front.text_ne_nil,
      if_neg Bool.false_ne_true, ← List.map_cons (f := Component.text),
      splitOn_join (slash_not_mem_texts inner) (by simp)]
    rw [List.map_cons]
    dsimp only
    rw [if_neg front.text_ne_dot, front.1,
      Component.filterMap_ofPiece? fun component member => inner component (.tail _ member)]
    rfl

/-- Components that were written down are read again. -/
theorem components_ofComponents {components : List Component} (read : IsRead components) :
    (ofComponents components).components = components := by
  cases read with
  | absolute inner => exact components_absolute inner
  | current inner => exact components_current inner
  | relative inner => exact components_relative inner

/-! ## Keys -/

theorem components_key (path : Path) : components ⟨path.key⟩ = path.components :=
  components_ofComponents (isRead_components path)

/-- Two paths name the same place exactly if they have one key. -/
theorem same_iff_key_eq {first second : Path} :
    first.same second = true ↔ first.key = second.key := by
  rw [same, beq_iff_eq]
  constructor
  · intro agree
    rw [key, key, agree]
  · intro agree
    rw [← components_key first, ← components_key second, agree]

end PageCompiler.Path
