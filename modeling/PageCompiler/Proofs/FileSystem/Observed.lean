import PageCompiler.Proofs.FileSystem.View

/-! # Which paths are asked about

An `Observed` file system notes every path that is read or looked for as a file and carries each
operation out as before. The paths that a computation asks about are its footprint: two views that
agree on them cannot be told apart by it, as long as it neither lists directories nor makes anything
of the size bound.
-/

namespace PageCompiler

open FileSystem (view)

/-- Files, with the paths that have been asked about. -/
structure Observed (σ : Type) where
  files : σ
  /-- The paths that were read or looked for as files, oldest first. -/
  asked : List Path

namespace Observed

variable {σ α : Type}

/-- Carries an operation out and notes some paths. -/
def noting (paths : List Path) (operation : StateM σ α) : StateM (Observed σ) α := fun observed =>
  ((operation observed.files).1, ⟨(operation observed.files).2, observed.asked ++ paths⟩)

variable [FileSystem (StateM σ)]

instance : FileSystem (StateM (Observed σ)) where
  read path := noting [path] (FileSystem.read path)
  write path content := noting [] (FileSystem.write path content)
  rename source target := noting [] (FileSystem.rename source target)
  remove path := noting [] (FileSystem.remove path)
  makeDirectories path := noting [] (FileSystem.makeDirectories path)
  isFile path := noting [path] (FileSystem.isFile path)
  listDirectory path := noting [] (FileSystem.listDirectory path)
  sizeBound := noting [] FileSystem.sizeBound

instance [LawfulFileSystem σ] : LawfulFileSystem (Observed σ) where
  view_read path observed := LawfulFileSystem.view_read path observed.files
  view_isFile path observed := LawfulFileSystem.view_isFile path observed.files
  view_listDirectory path observed := LawfulFileSystem.view_listDirectory path observed.files
  view_sizeBound observed := LawfulFileSystem.view_sizeBound observed.files
  bounded observed := LawfulFileSystem.bounded observed.files

end Observed

/-- The views give the same answers about these paths. -/
def View.AgreeOn (first second : View) (paths : List Path) : Prop :=
  ∀ path ∈ paths, first.read path = second.read path ∧ first.isFile path = second.isFile path

theorem View.AgreeOn.mono {first second : View} {paths fewer : List Path}
    (agree : first.AgreeOn second paths) (subset : fewer ⊆ paths) :
    first.AgreeOn second fewer :=
  fun path member => agree path (subset member)

/-! ## Asking twice -/

section

variable {σ τ α β : Type} [FileSystem (StateM σ)] [FileSystem (StateM τ)]

/-- The same computation on observed files and on files with another view: neither run changes a
view, no noted path is forgotten, and the results belong together if the views agree on all paths
that the first run has noted at its end. -/
structure Repeats (first second : View) (action : StateM (Observed σ) α) (again : StateM τ β)
    (same : α → β → Prop) : Prop where
  keeps : ∀ observed, view observed.files = first →
    view (action observed).2.files = first ∧ observed.asked ⊆ (action observed).2.asked
  keepsAgain : ∀ files, view files = second → view (again files).2 = second
  agree : ∀ observed files, view observed.files = first → view files = second →
    first.AgreeOn second (action observed).2.asked → same (action observed).1 (again files).1

namespace Repeats

variable {first second : View}

theorem pure {value : α} {other : β} {same : α → β → Prop} (related : same value other) :
    Repeats first second (Pure.pure value : StateM (Observed σ) α) (Pure.pure other : StateM τ β)
      same :=
  ⟨fun _ kept => ⟨kept, List.Subset.refl _⟩, fun _ kept => kept, fun _ _ _ _ _ => related⟩

theorem bind {γ δ : Type} {action : StateM (Observed σ) α} {again : StateM τ α}
    {between : α → α → Prop} {next : α → StateM (Observed σ) γ} {nextAgain : α → StateM τ δ}
    {same : γ → δ → Prop} (before : Repeats first second action again between)
    (reflexive : ∀ value, between value value)
    (after : ∀ value other, between value other →
      Repeats first second (next value) (nextAgain other) same) :
    Repeats first second (action >>= next) (again >>= nextAgain) same where
  keeps observed kept := by
    obtain ⟨keptThen, noted⟩ := before.keeps observed kept
    obtain ⟨keptLast, notedLast⟩ :=
      (after _ _ (reflexive (action observed).1)).keeps (action observed).2 keptThen
    exact ⟨keptLast, List.Subset.trans noted notedLast⟩
  keepsAgain files kept :=
    (after _ _ (reflexive (again files).1)).keepsAgain _ (before.keepsAgain files kept)
  agree observed files kept keptToo agree := by
    obtain ⟨keptThen, -⟩ := before.keeps observed kept
    -- What the first part has noted is still noted at the end.
    have noted := ((after _ _ (reflexive (action observed).1)).keeps _ keptThen).2
    have related := before.agree observed files kept keptToo (agree.mono noted)
    exact (after _ _ related).agree _ _ keptThen (before.keepsAgain files keptToo) agree

theorem bind_eq {γ δ : Type} {action : StateM (Observed σ) α} {again : StateM τ α}
    {next : α → StateM (Observed σ) γ} {nextAgain : α → StateM τ δ} {same : γ → δ → Prop}
    (before : Repeats first second action again Eq)
    (after : ∀ value, Repeats first second (next value) (nextAgain value) same) :
    Repeats first second (action >>= next) (again >>= nextAgain) same := by
  refine before.bind (fun _ => rfl) ?_
  rintro value _ rfl
  exact after value

variable [LawfulFileSystem σ] [LawfulFileSystem τ]

theorem read (path : Path) :
    Repeats first second (FileSystem.read path : StateM (Observed σ) _)
      (FileSystem.read path : StateM τ _) Eq where
  keeps observed kept :=
    ⟨(LawfulFileSystem.view_read path observed.files).trans kept, List.subset_append_left _ _⟩
  keepsAgain files kept := (LawfulFileSystem.view_read path files).trans kept
  agree observed files kept keptToo agree := by
    subst kept keptToo
    exact (agree path (List.mem_append_right _ List.mem_cons_self)).1

theorem isFile (path : Path) :
    Repeats first second (FileSystem.isFile path : StateM (Observed σ) _)
      (FileSystem.isFile path : StateM τ _) Eq where
  keeps observed kept :=
    ⟨(LawfulFileSystem.view_isFile path observed.files).trans kept, List.subset_append_left _ _⟩
  keepsAgain files kept := (LawfulFileSystem.view_isFile path files).trans kept
  agree observed files kept keptToo agree := by
    subst kept keptToo
    exact (agree path (List.mem_append_right _ List.mem_cons_self)).2

/-- The size bounds may differ. -/
theorem sizeBound :
    Repeats first second (FileSystem.sizeBound : StateM (Observed σ) _)
      (FileSystem.sizeBound : StateM τ _) (fun _ _ => True) where
  keeps observed kept :=
    ⟨(LawfulFileSystem.view_sizeBound observed.files).trans kept, List.subset_append_left _ _⟩
  keepsAgain files kept := (LawfulFileSystem.view_sizeBound files).trans kept
  agree _ _ _ _ _ := trivial

theorem readText (path : Path) :
    Repeats first second (FileSystem.readText path : StateM (Observed σ) _)
      (FileSystem.readText path : StateM τ _) Eq :=
  (read path).bind_eq fun _ => pure rfl

theorem findIn (relative directory : Path) :
    Repeats first second (PageCompiler.findIn .exact relative directory : StateM (Observed σ) _)
      (PageCompiler.findIn .exact relative directory : StateM τ _) Eq := by
  refine (isFile _).bind_eq fun present => ?_
  split
  · exact pure rfl
  · exact pure rfl

theorem findFirst (relative : Path) (directories : List Path) :
    Repeats first second
      (PageCompiler.findFirst .exact relative directories : StateM (Observed σ) _)
      (PageCompiler.findFirst .exact relative directories : StateM τ _) Eq := by
  induction directories with
  | nil => exact pure rfl
  | cons directory others inductionHypothesis =>
    refine (findIn relative directory).bind_eq fun found => ?_
    cases found with
    | some path => exact pure rfl
    | none => exact inductionHypothesis

end Repeats

end

end PageCompiler
