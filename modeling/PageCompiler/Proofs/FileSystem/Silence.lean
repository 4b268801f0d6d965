import PageCompiler.Proofs.FileSystem.View

/-! # Questions that leave no trace

A store notes what is read and what is changed, but not which files are looked for and which
directories are listed. A search therefore leaves it exactly as it was.
-/

namespace PageCompiler

section

variable {σ α β : Type}

/-- The action leaves the files as they are, notes included. -/
def IsSilent (action : StateM σ α) : Prop :=
  ∀ files, (action.run files).2 = files

namespace IsSilent

theorem pure (value : α) : IsSilent (Pure.pure value : StateM σ α) :=
  fun _ => rfl

theorem bind {first : StateM σ β} {next : β → StateM σ α} (before : IsSilent first)
    (after : ∀ value, IsSilent (next value)) : IsSilent (first >>= next) :=
  fun files => (after (first.run files).1 (first.run files).2).trans (before files)

theorem run_eq {action : StateM σ α} (silent : IsSilent action) (files : σ) :
    action.run files = ((action.run files).1, files) :=
  Prod.ext rfl (silent files)

end IsSilent

end

namespace Store

theorem isFile_silent (path : Path) : IsSilent (FileSystem.isFile path : StateM Store _) :=
  fun _ => rfl

theorem listDirectory_silent (path : Path) :
    IsSilent (FileSystem.listDirectory path : StateM Store _) :=
  fun store => store.list_snd path

theorem findIgnoringCase_silent (current : Path) (names : List Text) :
    IsSilent (findIgnoringCase current names : StateM Store _) := by
  induction names generalizing current with
  | nil =>
    apply (isFile_silent current).bind
    intro present
    split <;> exact .pure _
  | cons name names inductionHypothesis =>
    apply (listDirectory_silent current).bind
    intro listed
    cases listed with
    | error error => exact .pure _
    | ok children =>
      dsimp only
      split
      · next child _ => exact inductionHypothesis child
      · exact .pure _

theorem findIn_silent (matching : NameMatching) (relative directory : Path) :
    IsSilent (findIn matching relative directory : StateM Store _) := by
  apply (isFile_silent _).bind
  intro present
  split
  · exact .pure _
  · cases matching with
    | exact => exact .pure _
    | ignoreCase => exact findIgnoringCase_silent _ _

theorem findFirst_silent (matching : NameMatching) (relative : Path) (directories : List Path) :
    IsSilent (findFirst matching relative directories : StateM Store _) := by
  induction directories with
  | nil => exact .pure _
  | cons directory others inductionHypothesis =>
    apply (findIn_silent matching relative directory).bind
    intro found
    cases found with
    | some path => exact .pure _
    | none => exact inductionHypothesis

/-- A search is answered by the view, and nothing else happens. -/
theorem findFirst_run (store : Store) (matching : NameMatching) (relative : Path)
    (directories : List Path) :
    (findFirst matching relative directories : StateM Store _).run store =
      ((findFirst matching relative directories : ReaderM View _) (FileSystem.view store),
        store) := by
  rw [(findFirst_silent matching relative directories).run_eq store]
  exact congrArg (·, store) (Asks.findFirst matching relative directories store).1

end Store

end PageCompiler
