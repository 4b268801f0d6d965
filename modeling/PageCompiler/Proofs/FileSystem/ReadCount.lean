import PageCompiler.Proofs.FileSystem.View

/-! # Counting reads

Some file systems can tell how many files have been read so far; a `Store` can, by its list of
reads. `CountsReads` says of a number that it does so: reading a file adds one, and every other
question leaves the number alone; `CountsReadsOf` says the same for the reads of one file. Searching
asks for files but reads none.
-/

namespace PageCompiler

section

variable {σ α β : Type}

def KeepsCount (count : σ → Nat) (action : StateM σ α) : Prop :=
  ∀ files, count (action.run files).2 = count files

namespace KeepsCount

variable {count : σ → Nat}

theorem pure (value : α) : KeepsCount count (Pure.pure value : StateM σ α) :=
  fun _ => rfl

theorem bind {first : StateM σ β} {next : β → StateM σ α} (before : KeepsCount count first)
    (after : ∀ value, KeepsCount count (next value)) : KeepsCount count (first >>= next) :=
  fun files => (after (first.run files).1 (first.run files).2).trans (before files)

variable [FileSystem (StateM σ)]
  (isFile : ∀ path : Path, KeepsCount count (FileSystem.isFile path : StateM σ _))
  (listDirectory : ∀ path : Path, KeepsCount count (FileSystem.listDirectory path : StateM σ _))

include isFile listDirectory

theorem findIgnoringCase (current : Path) (names : List Text) :
    KeepsCount count (PageCompiler.findIgnoringCase current names : StateM σ _) := by
  induction names generalizing current with
  | nil =>
    refine (isFile current).bind fun present => ?_
    split
    · exact .pure _
    · exact .pure _
  | cons name names inductionHypothesis =>
    refine (listDirectory current).bind fun listed => ?_
    cases listed with
    | error error => exact .pure _
    | ok children =>
      dsimp only
      split
      · next child _ => exact inductionHypothesis child
      · exact .pure _

theorem findIn (matching : NameMatching) (relative directory : Path) :
    KeepsCount count (PageCompiler.findIn matching relative directory : StateM σ _) := by
  refine (isFile _).bind fun present => ?_
  split
  · exact .pure _
  · cases matching with
    | exact => exact .pure _
    | ignoreCase => exact findIgnoringCase isFile listDirectory _ _

theorem findFirst (matching : NameMatching) (relative : Path) (directories : List Path) :
    KeepsCount count (PageCompiler.findFirst matching relative directories : StateM σ _) := by
  induction directories with
  | nil => exact .pure _
  | cons directory others inductionHypothesis =>
    refine (findIn isFile listDirectory matching relative directory).bind fun found => ?_
    cases found with
    | some path => exact .pure _
    | none => exact inductionHypothesis

end KeepsCount

variable [FileSystem (StateM σ)]

/-- The number goes up by one whenever a file is read, and no other question changes it. -/
structure CountsReads (count : σ → Nat) : Prop where
  read : ∀ (path : Path) (files : σ),
    count ((FileSystem.read path : StateM σ _).run files).2 = count files + 1
  isFile : ∀ path : Path, KeepsCount count (FileSystem.isFile path : StateM σ _)
  listDirectory : ∀ path : Path, KeepsCount count (FileSystem.listDirectory path : StateM σ _)
  sizeBound : KeepsCount count (FileSystem.sizeBound : StateM σ _)

theorem Store.countsReads : CountsReads fun store : Store => store.reads.length where
  read path store := by
    change (Store.read path store).2.reads.length = _
    rw [Store.read_snd, List.length_append, List.length_singleton]
  isFile _ _ := rfl
  listDirectory path store := congrArg (fun store : Store => store.reads.length)
    (store.list_snd path)
  sizeBound _ := rfl

/-- The number goes up by one whenever the file at a place is read, and no other question changes
it. -/
structure CountsReadsOf (path : Path) (count : σ → Nat) : Prop where
  read : ∀ (other : Path) (files : σ),
    count ((FileSystem.read other : StateM σ _).run files).2 =
      count files + if path.same other then 1 else 0
  isFile : ∀ other : Path, KeepsCount count (FileSystem.isFile other : StateM σ _)
  listDirectory : ∀ other : Path, KeepsCount count (FileSystem.listDirectory other : StateM σ _)
  sizeBound : KeepsCount count (FileSystem.sizeBound : StateM σ _)

theorem Store.countsReadsOf (path : Path) :
    CountsReadsOf path fun store : Store => store.readsOf path where
  read other store := by
    change (Store.read other store).2.reads.countP path.same = _
    rw [Store.read_snd, List.countP_append, List.countP_singleton, Store.readsOf]
  isFile _ _ := rfl
  listDirectory other store := congrArg (fun store : Store => store.readsOf path)
    (store.list_snd other)
  sizeBound _ := rfl

namespace CountsReads

variable {count : σ → Nat} (counts : CountsReads count)

include counts

theorem readText (path : Path) (files : σ) :
    count ((FileSystem.readText path : StateM σ _).run files).2 = count files + 1 :=
  counts.read path files

theorem findFirst (matching : NameMatching) (relative : Path) (directories : List Path) :
    KeepsCount count (PageCompiler.findFirst matching relative directories : StateM σ _) :=
  .findFirst counts.isFile counts.listDirectory matching relative directories

end CountsReads

theorem CountsReadsOf.readText {path : Path} {count : σ → Nat} (counts : CountsReadsOf path count)
    (other : Path) (files : σ) :
    count ((FileSystem.readText other : StateM σ _).run files).2 =
      count files + if path.same other then 1 else 0 :=
  counts.read other files

end

end PageCompiler
