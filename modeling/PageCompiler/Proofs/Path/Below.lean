import PageCompiler.Path.Normal
import PageCompiler.Proofs.Path.Components
import PageCompiler.Proofs.Text.Cutting

/-! # Paths below a normal directory

An absolute normal path is a slash and names. A path below it that is written with names alone is
normal again, and its components are those of the directory and the names.
-/

namespace PageCompiler.Path

/-! ## Names -/

/-- A piece between two slashes that stands for itself. -/
def IsFileName (name : Text) : Prop :=
  (Component.normal name).IsInner

theorem isFileName_iff {name : Text} :
    IsFileName name ↔ name ≠ [] ∧ name ≠ ['.'] ∧ name ≠ ['.', '.'] ∧ '/' ∉ name := by
  simp only [IsFileName, Component.IsInner, Component.text, Component.ofPiece?]
  by_cases idle : name = [] ∨ name = ['.']
  · cases idle <;> simp_all
  · by_cases dots : name = ['.', '.']
    · simp [dots]
    · rw [not_or] at idle
      simp [idle.1, idle.2, dots]

theorem isInner_map_normal {names : List Text} (proper : ∀ name ∈ names, IsFileName name) :
    ∀ component ∈ names.map Component.normal, component.IsInner := by
  intro component member
  obtain ⟨name, there, rfl⟩ := List.mem_map.mp member
  exact proper name there

theorem ofComponents_root_names (names : List Text) :
    ofComponents (.root :: names.map .normal) = ⟨'/' :: Text.join ['/'] names⟩ := by
  simp [ofComponents, Component.text, Function.comp_def]

theorem components_join_names {names : List Text} (proper : ∀ name ∈ names, IsFileName name) :
    components ⟨Text.join ['/'] names⟩ = names.map .normal := by
  have written : ofComponents (names.map Component.normal) = ⟨Text.join ['/'] names⟩ := by
    cases names <;> simp [ofComponents, Component.text, Function.comp_def]
  rw [← written]
  exact components_relative (isInner_map_normal proper)

/-! ## Absolute normal paths -/

theorem pushNormal_normal (stack : List Component) (name : Text) :
    pushNormal stack (.normal name) = .normal name :: stack := by
  cases stack with
  | nil => rfl
  | cons top stack => cases top <;> rfl

theorem foldl_pushNormal_names (names : List Text) (stack : List Component) :
    (names.map Component.normal).foldl pushNormal stack =
      (names.map Component.normal).reverse ++ stack := by
  induction names generalizing stack with
  | nil => rfl
  | cons name names inductionHypothesis =>
    simp [pushNormal_normal, inductionHypothesis]

/-- Names pile up on what a path starts with; a `..` takes the last of them back, and only what it
starts with is left for a `..` that finds no name. -/
theorem foldl_pushNormal_base {IsBase : List Component → Prop}
    (descends : ∀ base, IsBase base → IsBase (pushNormal base .parent)) {base : List Component}
    (starts : IsBase base) {components : List Component}
    (inner : ∀ component ∈ components, component.IsInner) {before : List Text}
    (proper : ∀ name ∈ before, IsFileName name) :
    ∃ (names : List Text) (reached : List Component), (∀ name ∈ names, IsFileName name) ∧
      IsBase reached ∧ components.foldl pushNormal (before.map Component.normal ++ base) =
        names.map Component.normal ++ reached := by
  induction components generalizing before base with
  | nil => exact ⟨before, base, proper, starts, rfl⟩
  | cons component components inductionHypothesis =>
    have here := inner component List.mem_cons_self
    have later := fun other member => inner other (List.mem_cons_of_mem component member)
    rw [List.foldl_cons]
    cases component with
    | root => exact absurd List.mem_cons_self here.2
    | current => exact absurd rfl here.text_ne_dot
    | normal name =>
      rw [pushNormal_normal]
      exact inductionHypothesis starts later (List.forall_mem_cons.mpr ⟨here, proper⟩)
    | parent =>
      cases before with
      | nil => exact inductionHypothesis (descends base starts) later proper
      | cons last before =>
        exact inductionHypothesis starts later (List.forall_mem_cons.mp proper).2

/-- Above the slash of an absolute path there are only names. -/
theorem foldl_pushNormal_root {components : List Component}
    (inner : ∀ component ∈ components, component.IsInner) {before : List Text}
    (proper : ∀ name ∈ before, IsFileName name) :
    ∃ names : List Text, (∀ name ∈ names, IsFileName name) ∧
      components.foldl pushNormal (before.map Component.normal ++ [.root]) =
        names.map Component.normal ++ [.root] := by
  have descends : ∀ base : List Component, base = [.root] → pushNormal base .parent = [.root] := by
    rintro base rfl
    rfl
  obtain ⟨names, reached, properNames, rfl, folded⟩ :=
    foldl_pushNormal_base descends rfl inner proper
  exact ⟨names, properNames, folded⟩

/-- The normal form of an absolute path is a slash and names. -/
theorem exists_normalComponents_absolute {path : Path} (absolute : path.isAbsolute = true) :
    ∃ names : List Text, (∀ name ∈ names, IsFileName name) ∧
      path.normalComponents = .root :: names.map .normal := by
  have front : path.components =
      .root :: (path.text.splitOn '/').filterMap Component.ofPiece? := by
    rw [components, if_pos absolute]
  have inner : ∀ component ∈ (path.text.splitOn '/').filterMap Component.ofPiece?,
      component.IsInner :=
    isInner_of_mem_filterMap fun _ => id
  obtain ⟨names, proper, reached⟩ := foldl_pushNormal_root inner (List.forall_mem_nil IsFileName)
  refine ⟨names.reverse, fun name member => proper name (List.mem_reverse.mp member), ?_⟩
  rw [normalComponents, front, List.foldl_cons]
  change (List.foldl pushNormal (List.map Component.normal [] ++ [.root]) _).reverse = _
  rw [reached]
  simp

/-- An absolute path without anything to resolve. -/
structure IsNormalRoot (path : Path) : Prop where
  absolute : path.isAbsolute = true
  normal : path.normalize = path

theorem IsNormalRoot.exists_names {path : Path} (root : path.IsNormalRoot) :
    ∃ names : List Text, (∀ name ∈ names, IsFileName name) ∧
      path = ofComponents (.root :: names.map .normal) := by
  obtain ⟨names, proper, normal⟩ := exists_normalComponents_absolute root.absolute
  refine ⟨names, proper, ?_⟩
  rw [← root.normal, normalize, normal]

/-! ## Joining -/

theorem join_append {separator : Char} {first second : List Text} (nonempty : first ≠ [])
    (nonemptyToo : second ≠ []) : Text.join [separator] (first ++ second) =
      Text.join [separator] first ++ separator :: Text.join [separator] second := by
  induction first with
  | nil => exact absurd rfl nonempty
  | cons name first inductionHypothesis =>
    cases first with
    | nil =>
      obtain ⟨next, second, rfl⟩ := List.exists_cons_of_ne_nil nonemptyToo
      simp [Text.join, List.intercalate_cons_cons]
    | cons next first =>
      have rest := inductionHypothesis (List.cons_ne_nil next first)
      simp only [Text.join, List.cons_append, List.intercalate_cons_cons] at rest ⊢
      simp [rest]

/-- Names do not end with a slash. -/
theorem IsFileName.exists_getLast? {name : Text} (proper : IsFileName name) :
    ∃ c, name.getLast? = some c ∧ c ≠ '/' := by
  obtain ⟨filled, -, -, whole⟩ := isFileName_iff.mp proper
  obtain ⟨front, c, rfl⟩ := (List.eq_nil_or_concat' name).resolve_left filled
  refine ⟨c, by simp, ?_⟩
  rintro rfl
  simp at whole

theorem not_isAbsolute_join_names {names : List Text} (proper : ∀ name ∈ names, IsFileName name)
    (nonempty : names ≠ []) : isAbsolute ⟨Text.join ['/'] names⟩ = false := by
  obtain ⟨first, others, rfl⟩ := List.exists_cons_of_ne_nil nonempty
  have inner : (Component.normal first).IsInner := proper first List.mem_cons_self
  exact not_isAbsolute_join inner.head?_text_ne inner.text_ne_nil

/-- A path below a root is written with the names of both. -/
theorem join_names {root : Path} (isRoot : root.IsNormalRoot) {names : List Text}
    (proper : ∀ name ∈ names, IsFileName name) (nonempty : names ≠ []) :
    ∃ front : List Text, (∀ name ∈ front, IsFileName name) ∧
      root = ofComponents (.root :: front.map .normal) ∧
      root.join ⟨Text.join ['/'] names⟩ =
        ofComponents (.root :: (front ++ names).map .normal) := by
  obtain ⟨front, properFront, written⟩ := isRoot.exists_names
  refine ⟨front, properFront, written, ?_⟩
  rw [join, not_isAbsolute_join_names proper nonempty, written]
  simp only [ofComponents_root_names, Bool.false_eq_true, if_false]
  by_cases top : front = []
  · simp [top, Text.join]
  · obtain ⟨c, last, other⟩ := Text.exists_getLast?_join ['/'] top
      fun name member => (properFront name member).exists_getLast?
    have ends : ('/' :: Text.join ['/'] front).getLast? = some c := by
      rw [List.getLast?_cons, last]
      rfl
    simp [join_append top nonempty, ends, other]

theorem components_join {root : Path} (isRoot : root.IsNormalRoot) {names : List Text}
    (proper : ∀ name ∈ names, IsFileName name) (nonempty : names ≠ []) :
    (root.join ⟨Text.join ['/'] names⟩).components = root.components ++ names.map .normal := by
  obtain ⟨front, properFront, written, joined⟩ := join_names isRoot proper nonempty
  rw [joined, written, components_absolute (isInner_map_normal properFront),
    components_absolute (isInner_map_normal (List.forall_mem_append.mpr ⟨properFront, proper⟩))]
  simp

/-- A path below a root is normal. -/
theorem normalize_join {root : Path} (isRoot : root.IsNormalRoot) {names : List Text}
    (proper : ∀ name ∈ names, IsFileName name) (nonempty : names ≠ []) :
    (root.join ⟨Text.join ['/'] names⟩).normalize = root.join ⟨Text.join ['/'] names⟩ := by
  obtain ⟨front, properFront, -, joined⟩ := join_names isRoot proper nonempty
  have inner := isInner_map_normal (List.forall_mem_append.mpr ⟨properFront, proper⟩)
  have normal : (root.join ⟨Text.join ['/'] names⟩).normalComponents =
      .root :: (front ++ names).map .normal := by
    rw [joined, normalComponents, components_absolute inner, List.foldl_cons]
    change ((List.map Component.normal (front ++ names)).foldl pushNormal [.root]).reverse = _
    rw [foldl_pushNormal_names]
    simp
  rw [normalize, normal, joined]

end PageCompiler.Path
