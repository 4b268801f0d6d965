import PageCompiler.Proofs.Path.Parent

/-! # Normal paths

What normalising leaves is a slash and names, or a run of `..` and names, or a single `.` if nothing
is left, and it is written down from these components alone, so that normal paths for one place are
equal. Normalising once more changes nothing, and a relative path may be joined to a path before or
after that one is made normal.
-/

namespace PageCompiler.Path

/-! ## Relative paths -/

/-- A `.` in front of a relative path leaves no trace. -/
theorem foldl_components_relative {path : Path} (relative : path.isAbsolute = false)
    (stack : List Component) : path.components.foldl pushNormal stack =
      ((path.text.splitOn '/').filterMap Component.ofPiece?).foldl pushNormal stack := by
  obtain ⟨first, others, pieces⟩ := List.exists_cons_of_ne_nil (List.splitOn_ne_nil '/' path.text)
  have read := components_relative_pieces relative pieces
  rw [read, pieces]
  by_cases dot : first = ['.']
  · simp [dot, Component.ofPiece?, pushNormal]
  · rw [if_neg dot]
    cases counts : Component.ofPiece? first <;> simp [counts]

/-- The normal form of a relative path is a run of `..` and names. -/
theorem exists_normalComponents_relative {path : Path} (relative : path.isAbsolute = false) :
    ∃ (count : Nat) (names : List Text), (∀ name ∈ names, IsFileName name) ∧
      path.normalComponents = List.replicate count .parent ++ names.map .normal := by
  have descends : ∀ base : List Component, (∃ count, base = List.replicate count .parent) →
      ∃ count, pushNormal base .parent = List.replicate count .parent := by
    rintro base ⟨count, rfl⟩
    refine ⟨count + 1, ?_⟩
    cases count <;> rfl
  have inner : ∀ component ∈ (path.text.splitOn '/').filterMap Component.ofPiece?,
      component.IsInner :=
    isInner_of_mem_filterMap fun _ => id
  have starts : ∃ count, ([] : List Component) = List.replicate count .parent := ⟨0, rfl⟩
  obtain ⟨names, reached, proper, ⟨count, rfl⟩, folded⟩ :=
    foldl_pushNormal_base descends starts inner (List.forall_mem_nil IsFileName)
  rw [List.map_nil, List.nil_append] at folded
  refine ⟨count, names.reverse, fun name member => proper name (List.mem_reverse.mp member), ?_⟩
  rw [normalComponents, foldl_components_relative relative, folded]
  simp

theorem isInner_normalComponents {path : Path} (relative : path.isAbsolute = false) :
    ∀ component ∈ path.normalComponents, component.IsInner := by
  obtain ⟨count, names, proper, normal⟩ := exists_normalComponents_relative relative
  rw [normal, List.forall_mem_append]
  refine ⟨fun component member => ?_, isInner_map_normal proper⟩
  rw [List.eq_of_mem_replicate member]
  exact ⟨rfl, by decide⟩

/-! ## What is written down -/

theorem isRead_normalComponents (path : Path) : IsRead path.normalComponents := by
  cases absolute : path.isAbsolute with
  | true =>
    obtain ⟨names, proper, normal⟩ := exists_normalComponents_absolute absolute
    rw [normal]
    exact .absolute (isInner_map_normal proper)
  | false => exact .relative (isInner_normalComponents absolute)

theorem current_not_mem_normalComponents (path : Path) : .current ∉ path.normalComponents := by
  cases absolute : path.isAbsolute with
  | true =>
    obtain ⟨names, -, normal⟩ := exists_normalComponents_absolute absolute
    simp [normal]
  | false => exact fun member => (isInner_normalComponents absolute _ member).text_ne_dot rfl

theorem components_normalize (path : Path) : path.normalize.components =
    if path.normalComponents = [] then [.current] else path.normalComponents := by
  rw [normalize]
  split
  · next empty =>
    rw [if_pos empty]
    rfl
  · next nonempty =>
    rw [if_neg nonempty]
    exact components_ofComponents (isRead_normalComponents path)

/-- Normal paths for one place are equal. -/
theorem normalize_eq_of_same {first second : Path}
    (agree : first.normalize.same second.normalize = true) :
    first.normalize = second.normalize := by
  have different (path : Path) : path.normalComponents ≠ [.current] := fun same =>
    current_not_mem_normalComponents path (same ▸ List.mem_cons_self)
  -- A single `.` is written for the empty list alone, so the texts tell the lists apart.
  rw [same, beq_iff_eq, components_normalize, components_normalize] at agree
  suffices parts : first.normalComponents = second.normalComponents by
    rw [normalize, normalize, parts]
  split at agree <;> split at agree
  · next one other => rw [one, other]
  · exact absurd agree.symm (different second)
  · exact absurd agree (different first)
  · exact agree

/-! ## Nothing is left to resolve -/

theorem foldl_pushNormal_parents (count : Nat) :
    (List.replicate count Component.parent).foldl pushNormal [] = List.replicate count .parent := by
  induction count with
  | zero => rfl
  | succ count inductionHypothesis =>
    rw [List.replicate_succ', List.foldl_append, inductionHypothesis, List.foldl_cons,
      List.foldl_nil, ← List.replicate_succ', List.replicate_succ]
    cases count <;> rfl

theorem foldl_pushNormal_normalComponents (path : Path) :
    path.normalComponents.foldl pushNormal [] = path.normalComponents.reverse := by
  cases absolute : path.isAbsolute with
  | true =>
    obtain ⟨names, -, normal⟩ := exists_normalComponents_absolute absolute
    rw [normal, List.foldl_cons]
    change (names.map Component.normal).foldl pushNormal [.root] = _
    rw [foldl_pushNormal_names, List.reverse_cons]
  | false =>
    obtain ⟨count, names, -, normal⟩ := exists_normalComponents_relative absolute
    rw [normal, List.foldl_append, foldl_pushNormal_parents, foldl_pushNormal_names]
    simp

/-- Normalising a path changes nothing about what its components resolve to. -/
theorem foldl_components_normalize (path : Path) :
    path.normalize.components.foldl pushNormal [] = path.components.foldl pushNormal [] := by
  have folded := foldl_pushNormal_normalComponents path
  rw [normalComponents, List.reverse_reverse] at folded
  rw [components_normalize]
  split
  · next nothing =>
    rw [normalComponents, List.reverse_eq_nil_iff] at nothing
    rw [nothing]
    rfl
  · exact folded

theorem normalize_congr {first second : Path}
    (agree : first.components.foldl pushNormal [] = second.components.foldl pushNormal []) :
    first.normalize = second.normalize := by
  rw [normalize, normalize, normalComponents, normalComponents, agree]

theorem normalize_normalize (path : Path) : path.normalize.normalize = path.normalize :=
  normalize_congr (foldl_components_normalize path)

/-- A joined path is resolved from what the first path resolves to. -/
theorem foldl_components_join {base path : Path} (relative : path.isAbsolute = false) :
    (base.join path).components.foldl pushNormal [] =
      path.components.foldl pushNormal (base.components.foldl pushNormal []) := by
  by_cases empty : base.text = []
  · obtain rfl : base = ⟨[]⟩ := congrArg Path.mk empty
    rw [join_of_nil relative]
    rfl
  · rw [components_join_relative empty relative, List.foldl_append,
      foldl_components_relative relative]

/-! ## Normal forms -/

/-- A path that is written as shortly as its components allow, with a `.` only if that is all of it,
and with `..` only in front of a relative path. -/
structure IsNormal (path : Path) : Prop where
  written : ofComponents path.components = path
  single : .current ∈ path.components → path = ⟨['.']⟩
  leading : ∀ before after, path.components = before ++ .parent :: after →
    path.isAbsolute = false ∧ ∀ component ∈ before, component = .parent

theorem not_isAbsolute_ofComponents {components : List Component}
    (inner : ∀ component ∈ components, component.IsInner) :
    (ofComponents components).isAbsolute = false := by
  cases components with
  | nil => rfl
  | cons first others =>
    have front := inner first List.mem_cons_self
    cases first with
    | root => exact absurd List.mem_cons_self front.2
    | _ => exact not_isAbsolute_join front.head?_text_ne front.text_ne_nil

theorem isAbsolute_normalize (path : Path) : path.normalize.isAbsolute = path.isAbsolute := by
  cases absolute : path.isAbsolute with
  | true =>
    obtain ⟨names, -, normal⟩ := exists_normalComponents_absolute absolute
    rw [normalize, normal]
    rfl
  | false =>
    rw [normalize]
    split
    · rfl
    · exact not_isAbsolute_ofComponents (isInner_normalComponents absolute)

/-- In front of a `..` that is left there are only others. -/
theorem eq_parent_of_normalComponents {path : Path} {before after : List Component}
    (cut : path.normalComponents = before ++ .parent :: after) :
    path.isAbsolute = false ∧ ∀ component ∈ before, component = .parent := by
  cases absolute : path.isAbsolute with
  | true =>
    obtain ⟨names, -, normal⟩ := exists_normalComponents_absolute absolute
    have member : .parent ∈ path.normalComponents := by simp [cut]
    simp [normal] at member
  | false =>
    obtain ⟨count, names, -, normal⟩ := exists_normalComponents_relative absolute
    refine ⟨rfl, fun component member => ?_⟩
    -- The cut is within the run of `..`, because none stands among the names.
    rw [normal, List.append_eq_append_iff] at cut
    rcases cut with ⟨between, -, named⟩ | ⟨between, front, -⟩
    · have among : Component.parent ∈ names.map .normal := by simp [named]
      simp at among
    · have inFront : component ∈ List.replicate count Component.parent := by simp [front, member]
      exact List.eq_of_mem_replicate inFront

theorem isNormal_normalize (path : Path) : path.normalize.IsNormal := by
  have parts := components_normalize path
  by_cases nothing : path.normalComponents = []
  · have dot : path.normalize = ⟨['.']⟩ := by rw [normalize, nothing]
    rw [if_pos nothing] at parts
    refine ⟨by rw [dot]; rfl, fun _ => dot, fun before after cut => ?_⟩
    have member : .parent ∈ path.normalize.components := by simp [cut]
    simp [parts] at member
  · rw [if_neg nothing] at parts
    refine ⟨?_, fun member => ?_, fun before after cut => ?_⟩
    · rw [parts, normalize]
      split
      · next empty => exact absurd empty nothing
      · rfl
    · rw [parts] at member
      exact absurd member (current_not_mem_normalComponents path)
    · rw [isAbsolute_normalize]
      exact eq_parent_of_normalComponents (parts.symm.trans cut)

/-- Normalising computes a normal form, and a relative path may be joined to a path before or after
that one is normalised. -/
theorem normalize_laws (path : Path) :
    path.normalize.normalize = path.normalize ∧
      path.normalize.isAbsolute = path.isAbsolute ∧
      path.normalize.IsNormal ∧
      ∀ relative : Path, relative.isAbsolute = false →
        (path.join relative).normalize = (path.normalize.join relative).normalize := by
  refine ⟨normalize_normalize path, isAbsolute_normalize path, isNormal_normalize path,
    fun relative isRelative => normalize_congr ?_⟩
  rw [foldl_components_join isRelative, foldl_components_join isRelative,
    foldl_components_normalize]

theorem normalize_laws_aboveStart :
    isAbsolute (.ofString ".././kit/") = false ∧
      (join (.ofString "./app/../..//lib/") (.ofString ".././kit/")).normalize =
        .ofString "../kit" := by
  have relative : isAbsolute (.ofString ".././kit/") = false := by decide
  refine ⟨relative, ?_⟩
  rw [(normalize_laws (.ofString "./app/../..//lib/")).2.2.2 _ relative]
  decide +kernel

end PageCompiler.Path
