import PageCompiler.Proofs.Path.Below
import PageCompiler.Proofs.Path.FileName

/-! # Taking paths apart

A path with a file name has a parent, and its components are those of the parent and the name. A
name that is joined to any path is its last component. A file name with an extension is a stem, a
dot and the extension, which is what stands behind the last dot.
-/

namespace PageCompiler.Path

/-! ## File names -/

theorem fileName?_eq_some_iff {path : Path} {name : Text} :
    path.fileName? = some name ↔ path.components.getLast? = some (.normal name) := by
  rw [fileName?]
  split
  · next last => rw [last, Option.some.injEq, Option.some.injEq, Component.normal.injEq]
  · next other => exact iff_of_false (fun named => by cases named) (other name)

theorem isFileName_of_fileName? {path : Path} {name : Text} (named : path.fileName? = some name) :
    IsFileName name := by
  have member := List.mem_of_getLast? (fileName?_eq_some_iff.mp named)
  have read := isRead_components path
  generalize path.components = components at member read
  cases read with
  | absolute inner =>
    rcases List.mem_cons.mp member with same | member
    · cases same
    · exact inner _ member
  | current inner =>
    rcases List.mem_cons.mp member with same | member
    · cases same
    · exact inner _ member
  | relative inner => exact inner _ member

/-! ## Pieces behind a path -/

theorem components_append_slash {front : Text} (nonempty : front ≠ []) (rest : Text) :
    components ⟨front ++ '/' :: rest⟩ =
      components ⟨front⟩ ++ (rest.splitOn '/').filterMap Component.ofPiece? := by
  have absolute : isAbsolute ⟨front ++ '/' :: rest⟩ = isAbsolute ⟨front⟩ := by
    obtain ⟨c, others, rfl⟩ := List.exists_cons_of_ne_nil nonempty
    rfl
  obtain ⟨first, others, pieces⟩ := List.exists_cons_of_ne_nil (List.splitOn_ne_nil '/' front)
  -- The first piece of `front` is the first one of the whole path, too.
  simp only [components, absolute, List.splitOn_append_cons_self, pieces]
  split
  · rw [List.filterMap_append]
    rfl
  · simp only [List.cons_append, List.filterMap_append, List.append_assoc]

theorem components_slash (rest : Text) :
    components ⟨'/' :: rest⟩ = .root :: (rest.splitOn '/').filterMap Component.ofPiece? := by
  have split := List.splitOn_append_cons_self (a := '/') [] rest
  have absolute : isAbsolute ⟨'/' :: rest⟩ = true := rfl
  rw [List.nil_append] at split
  rw [components, if_pos absolute]
  dsimp only
  rw [split]
  rfl

/-- A relative path that is joined to a path only adds the components of its own pieces. -/
theorem components_join_relative {base path : Path} (filled : base.text ≠ [])
    (relative : path.isAbsolute = false) : (base.join path).components =
      base.components ++ (path.text.splitOn '/').filterMap Component.ofPiece? := by
  obtain ⟨text⟩ := base
  rw [join, relative, if_neg Bool.false_ne_true]
  by_cases slash : text.getLast? = some '/'
  · obtain ⟨front, rfl⟩ := List.getLast?_eq_some_iff.mp slash
    -- The slash at the end stands for no component of its own.
    have written : (⟨front ++ ['/'] ++ path.text⟩ : Path) = ⟨front ++ '/' :: path.text⟩ := by simp
    rw [if_pos (by simp), written]
    by_cases top : front = []
    · rw [top, List.nil_append, List.nil_append, components_slash, components_slash]
      rfl
    · rw [components_append_slash top, components_append_slash top]
      simp [Component.ofPiece?]
  · rw [if_neg (by simp [filled, slash]), components_append_slash filled]

theorem join_of_nil {path : Path} (relative : path.isAbsolute = false) : join ⟨[]⟩ path = path := by
  rw [join, relative]
  rfl

/-- A name that is joined to a path is its last component. -/
theorem components_join_name (base : Path) {name : Text} (proper : IsFileName name) :
    (base.join ⟨name⟩).components = base.components ++ [.normal name] := by
  have relative : isAbsolute ⟨name⟩ = false := by
    have inner : (Component.normal name).IsInner := proper
    have head : name.head? ≠ some '/' := inner.head?_text_ne
    simpa [isAbsolute] using head
  have noComponent : components ⟨[]⟩ = [] := rfl
  obtain ⟨text⟩ := base
  by_cases empty : text = []
  · have alone := components_join_names (List.forall_mem_singleton.mpr proper)
    simpa [empty, Text.join, noComponent, join_of_nil relative] using alone
  · rw [components_join_relative empty relative,
      List.splitOn_eq_singleton (isFileName_iff.mp proper).2.2.2]
    exact congrArg (components ⟨text⟩ ++ ·) (List.filterMap_cons_some proper.1)

/-! ## Parents -/

theorem filterMap_eq_nil_of_isIdle {pieces : List Text} (idle : ∀ piece ∈ pieces, isIdle piece) :
    pieces.filterMap Component.ofPiece? = [] :=
  List.filterMap_eq_nil_iff.mpr fun piece member => Option.isNone_iff_eq_none.mp (idle piece member)

/-- The last piece that counts is dropped, if there is one. -/
theorem dropLastPiece?_cases (pieces : List Text) :
    dropLastPiece? pieces = none ∧ pieces.filterMap Component.ofPiece? = [] ∨
      ∃ kept dropped component, dropLastPiece? pieces = some kept ∧ pieces = kept ++ dropped ∧
        dropped.filterMap Component.ofPiece? = [component] := by
  have idle (list : List Text) : ∀ piece ∈ (list.takeWhile isIdle).reverse, isIdle piece :=
    fun piece member => List.all_eq_true.mp List.all_takeWhile piece (List.mem_reverse.mp member)
  have split := List.takeWhile_append_dropWhile (p := isIdle) (l := pieces.reverse)
  have counts := List.head?_dropWhile_not isIdle pieces.reverse
  rw [dropLastPiece?]
  cases rest : pieces.reverse.dropWhile isIdle with
  | nil =>
    rw [rest, List.append_nil] at split
    refine .inl ⟨rfl, filterMap_eq_nil_of_isIdle ?_⟩
    rw [← List.reverse_reverse pieces, ← split]
    exact idle pieces.reverse
  | cons piece others =>
    rw [rest] at split counts
    obtain ⟨component, stands⟩ : ∃ component, Component.ofPiece? piece = some component := by
      rw [← Option.isSome_iff_exists]
      simpa [isIdle] using counts
    have before := List.takeWhile_append_dropWhile (p := isIdle) (l := others)
    refine .inr ⟨_, (others.takeWhile isIdle).reverse ++
      piece :: (pieces.reverse.takeWhile isIdle).reverse, component, rfl, ?_, ?_⟩
    · calc pieces = (pieces.reverse).reverse := (List.reverse_reverse pieces).symm
        _ = (pieces.reverse.takeWhile isIdle ++
              piece :: (others.takeWhile isIdle ++ others.dropWhile isIdle)).reverse := by
            rw [before, split]
        _ = (others.dropWhile isIdle).reverse ++ ((others.takeWhile isIdle).reverse ++
              piece :: (pieces.reverse.takeWhile isIdle).reverse) := by
            simp only [List.reverse_append, List.reverse_cons, List.append_assoc,
              List.singleton_append]
    · rw [List.filterMap_append, filterMap_eq_nil_of_isIdle (idle others),
        List.filterMap_cons_some stands, filterMap_eq_nil_of_isIdle (idle pieces.reverse)]
      rfl

/-- Joining pieces and cutting them apart again loses no component. -/
theorem filterMap_splitOn_join {pieces : List Text} (whole : ∀ piece ∈ pieces, '/' ∉ piece) :
    ((Text.join ['/'] pieces).splitOn '/').filterMap Component.ofPiece? =
      pieces.filterMap Component.ofPiece? := by
  cases pieces with
  | nil => rfl
  | cons first others => rw [splitOn_join whole (List.cons_ne_nil first others)]

theorem parent?_slash (rest : Text) : parent? ⟨'/' :: rest⟩ =
    (dropLastPiece? (rest.splitOn '/')).map fun pieces => ⟨'/' :: Text.join ['/'] pieces⟩ :=
  rfl

theorem parent?_relative {text first : Text} {others : List Text}
    (relative : isAbsolute ⟨text⟩ = false) (pieces : text.splitOn '/' = first :: others) :
    parent? ⟨text⟩ = (dropLastPiece? others).elim (if first = [] then none else some ⟨[]⟩)
      fun kept => some ⟨Text.join ['/'] (first :: kept)⟩ := by
  rw [parent?]
  split
  · next rest absolute =>
    cases (absolute : text = '/' :: rest)
    cases relative
  · simp only [pieces]
    cases dropLastPiece? others <;> rfl

theorem components_relative_pieces {text first : Text} {others : List Text}
    (relative : isAbsolute ⟨text⟩ = false) (pieces : text.splitOn '/' = first :: others) :
    components ⟨text⟩ =
      (if first = ['.'] then [.current] else (Component.ofPiece? first).toList) ++
        others.filterMap Component.ofPiece? := by
  rw [components, relative, if_neg Bool.false_ne_true]
  dsimp only
  rw [pieces]

theorem exists_parent?_absolute {rest name : Text}
    (named : (components ⟨'/' :: rest⟩).getLast? = some (.normal name)) :
    ∃ parent, parent? ⟨'/' :: rest⟩ = some parent ∧
      components ⟨'/' :: rest⟩ = parent.components ++ [.normal name] := by
  rw [components_slash] at named ⊢
  rcases dropLastPiece?_cases (rest.splitOn '/') with
    ⟨-, none⟩ | ⟨kept, dropped, component, taken, pieces, single⟩
  · rw [none] at named
    cases named
  · have whole : ∀ piece ∈ kept, '/' ∉ piece := fun piece member =>
      not_mem_of_mem_splitOn (pieces ▸ List.mem_append_left dropped member)
    refine ⟨⟨'/' :: Text.join ['/'] kept⟩, by rw [parent?_slash, taken]; rfl, ?_⟩
    rw [pieces, List.filterMap_append, single, ← List.cons_append] at named ⊢
    rw [List.getLast?_concat, Option.some.injEq] at named
    rw [components_slash, filterMap_splitOn_join whole, named]

theorem exists_parent?_relative {text name : Text} (relative : isAbsolute ⟨text⟩ = false)
    (named : (components ⟨text⟩).getLast? = some (.normal name)) :
    ∃ parent, parent? ⟨text⟩ = some parent ∧
      components ⟨text⟩ = parent.components ++ [.normal name] := by
  obtain ⟨first, others, pieces⟩ := List.exists_cons_of_ne_nil (List.splitOn_ne_nil '/' text)
  have whole : ∀ piece ∈ first :: others, '/' ∉ piece :=
    fun piece member => not_mem_of_mem_splitOn (pieces ▸ member)
  rw [components_relative_pieces relative pieces] at named ⊢
  rw [parent?_relative relative pieces]
  rcases dropLastPiece?_cases others with
    ⟨none, noComponent⟩ | ⟨kept, dropped, component, taken, parts, single⟩
  · rw [none]
    rw [noComponent, List.append_nil] at named ⊢
    have nonempty : first ≠ [] := by
      rintro rfl
      cases named
    refine ⟨⟨[]⟩, by rw [Option.elim_none, if_neg nonempty], ?_⟩
    -- A first piece that is a name stands for that name alone.
    split at named
    · cases named
    · cases counts : Component.ofPiece? first with
      | none =>
        rw [counts] at named
        cases named
      | some component =>
        rw [counts] at named
        rw [if_neg ‹_›]
        exact congrArg (fun component => [component]) (Option.some.inj named)
  · have keptWhole : ∀ piece ∈ first :: kept, '/' ∉ piece := fun piece member =>
      whole piece (parts ▸ List.mem_append_left dropped member)
    have written : Text.join ['/'] (first :: others) = text := by
      rw [← pieces]
      exact List.intercalate_splitOn '/'
    -- With more pieces behind it, an empty first piece would make the path absolute.
    have nonempty : first ≠ [] := by
      rintro rfl
      cases others with
      | nil =>
        rw [List.nil_eq_append_iff] at parts
        rw [parts.2] at single
        cases single
      | cons second others =>
        rw [← written] at relative
        cases relative
    have stillRelative : isAbsolute ⟨Text.join ['/'] (first :: kept)⟩ = false :=
      not_isAbsolute_join
        (fun slash => whole first List.mem_cons_self (List.mem_of_mem_head? slash)) nonempty
    refine ⟨_, by rw [taken, Option.elim_some], ?_⟩
    rw [components_relative_pieces stillRelative (splitOn_join keptWhole (List.cons_ne_nil _ _))]
    rw [parts, List.filterMap_append, single, ← List.append_assoc] at named ⊢
    rw [List.getLast?_concat, Option.some.injEq] at named
    rw [named]

/-- A path with a file name consists of its parent and that name. -/
theorem exists_parent? {path : Path} {name : Text} (named : path.fileName? = some name) :
    ∃ parent, path.parent? = some parent ∧
      path.components = parent.components ++ [.normal name] := by
  have last := fileName?_eq_some_iff.mp named
  obtain ⟨text⟩ := path
  cases absolute : isAbsolute ⟨text⟩ with
  | false => exact exists_parent?_relative absolute last
  | true =>
    obtain ⟨rest, rfl⟩ := List.head?_eq_some_iff.mp (beq_iff_eq.mp absolute)
    exact exists_parent?_absolute last

/-! ## Extensions -/

theorem isFileName_append {stem extension : Text} (nonempty : stem ≠ []) (ends : extension ≠ [])
    (whole : '/' ∉ stem) (inside : '/' ∉ extension) : IsFileName (stem ++ '.' :: extension) := by
  have stemLength := List.length_pos_iff.mpr nonempty
  have extensionLength := List.length_pos_iff.mpr ends
  have long {short : Text} (few : short.length ≤ 2) : stem ++ '.' :: extension ≠ short := by
    rintro rfl
    simp only [List.length_append, List.length_cons] at few
    omega
  refine isFileName_iff.mpr ⟨long (by decide), long (by decide), long (by decide), ?_⟩
  simp [whole, inside]

theorem splitExtension_append {stem extension : Text} (nonempty : stem ≠ [])
    (undotted : '.' ∉ extension) :
    splitExtension (stem ++ '.' :: extension) = (stem, some extension) := by
  obtain ⟨first, others, pieces⟩ := List.exists_cons_of_ne_nil
    (List.reverse_ne_nil_iff.mpr (List.splitOn_ne_nil '.' stem))
  have joined : Text.join ['.'] (first :: others).reverse = stem := by
    rw [← pieces, List.reverse_reverse]
    exact List.intercalate_splitOn '.'
  rw [splitExtension, List.splitOn_append_cons_self, List.splitOn_eq_singleton undotted,
    List.reverse_append, pieces]
  simp only [List.reverse_singleton, List.singleton_append]
  rw [joined, if_neg nonempty]

/-- A name with an extension is cut at its last dot, which is not its first character. -/
theorem eq_append_of_splitExtension {name stem extension : Text}
    (cut : splitExtension name = (stem, some extension)) :
    name = stem ++ '.' :: extension ∧ stem ≠ [] ∧ '.' ∉ extension := by
  have joined : Text.join ['.'] (name.splitOn '.') = name := List.intercalate_splitOn '.'
  rw [splitExtension] at cut
  split at cut
  · next last first others pieces =>
    dsimp only at cut
    split at cut
    · cases cut
    · next nonempty =>
      obtain ⟨rfl, rfl⟩ : Text.join ['.'] (first :: others).reverse = stem ∧ last = extension := by
        simpa using cut
      have member : last ∈ name.splitOn '.' := by
        rw [← List.mem_reverse, pieces]
        exact List.mem_cons_self
      refine ⟨?_, nonempty, not_mem_of_mem_splitOn member⟩
      -- The extension is the last piece, and all pieces together are the name.
      rw [← List.reverse_reverse (name.splitOn '.'), pieces, List.reverse_cons,
        join_append (by simp) (by simp)] at joined
      rw [← joined]
      simp [Text.join]
  · cases cut

end PageCompiler.Path
