import Mathlib.Algebra.GroupWithZero.Nat
import PageCompiler.FileSystem.Disk
import PageCompiler.FileSystem.Store
import PageCompiler.Resolution.Search

/-! # Views of a file system

Reading a file may leave a trace, such as the list of reads of a `Store`, but it must not change
what the next question is answered. A `View` is the answers alone, and `LawfulFileSystem` says that
asking does not change them. Then an operation that only asks is a function of the view: `Asks`
compares it with the same operation carried out on the view itself. Asking keeps more than the
answers, such as the created directories of a `Store`; `Stable` says of a property that it is kept.
-/

namespace PageCompiler

/-- The answers of a file system to all questions. -/
structure View where
  read : Path → Except FileError ByteArray
  isFile : Path → Bool
  listDirectory : Path → Except FileError (List Path)
  sizeBound : Nat

/-- A view can be asked but not changed. -/
instance : FileSystem (ReaderM View) where
  read path := fun view => view.read path
  write path _ := fun _ => .error (.permissionDenied path.text)
  rename source _ := fun _ => .error (.permissionDenied source.text)
  remove path := fun _ => .error (.permissionDenied path.text)
  makeDirectories path := fun _ => .error (.permissionDenied path.text)
  isFile path := fun view => view.isFile path
  listDirectory path := fun view => view.listDirectory path
  sizeBound := fun view => view.sizeBound

namespace View

def readText (view : View) (path : Path) : Except FileError Text :=
  FileSystem.decode path (view.read path)

theorem exists_of_readText {view : View} {path : Path} {text : Text}
    (found : view.readText path = .ok text) :
    ∃ content, view.read path = .ok content ∧ Text.ofBytes? content = some text := by
  rw [readText] at found
  cases read : view.read path with
  | error error =>
    rw [read] at found
    cases found
  | ok content =>
    rw [read, FileSystem.decode] at found
    split at found
    · next decoded =>
      cases found
      exact ⟨content, rfl, decoded⟩
    · cases found

/-- All contents that can be read are among some that the size bound covers together. -/
def Bounded (view : View) : Prop :=
  ∃ contents : List ByteArray, (contents.map ByteArray.size).sum ≤ view.sizeBound ∧
    ∀ (path : Path) (content : ByteArray), view.read path = .ok content → content ∈ contents

end View

section

variable {σ : Type} [FileSystem (StateM σ)]

/-- The answers that the files give now. -/
def FileSystem.view (files : σ) : View where
  read path := ((FileSystem.read path : StateM σ _) files).1
  isFile path := ((FileSystem.isFile path : StateM σ _) files).1
  listDirectory path := ((FileSystem.listDirectory path : StateM σ _) files).1
  sizeBound := ((FileSystem.sizeBound : StateM σ _) files).1

end

open FileSystem (view)

/-- Asking changes no answer, and the size bound covers all files. -/
class LawfulFileSystem (σ : Type) [FileSystem (StateM σ)] : Prop where
  view_read (path : Path) (files : σ) :
    view ((FileSystem.read path : StateM σ _) files).2 = view files
  view_isFile (path : Path) (files : σ) :
    view ((FileSystem.isFile path : StateM σ _) files).2 = view files
  view_listDirectory (path : Path) (files : σ) :
    view ((FileSystem.listDirectory path : StateM σ _) files).2 = view files
  view_sizeBound (files : σ) : view ((FileSystem.sizeBound : StateM σ _) files).2 = view files
  bounded (files : σ) : (view files).Bounded

/-! ## The file systems at hand -/

theorem values_eq_map_toList {β : Type} (map : Std.TreeMap Text β compare) :
    map.values = map.toList.map Prod.snd := by
  rw [Std.TreeMap.values, Std.DTreeMap.values, Std.DTreeMap.Internal.Impl.values_eq_map_snd,
    show map.toList = Std.DTreeMap.Internal.Impl.Const.toList map.inner.inner from rfl,
    Std.DTreeMap.Internal.Impl.Const.toList_eq_toListModel_map, List.map_map]
  rfl

theorem mem_values_of_getElem? {key : Text} {β : Type} {map : Std.TreeMap Text β compare}
    {value : β} (found : map[key]? = some value) : value ∈ map.values := by
  rw [values_eq_map_toList]
  exact List.mem_map.mpr ⟨(key, value), Std.TreeMap.mem_toList_iff_getElem?_eq_some.mpr found, rfl⟩

theorem exists_getElem?_of_mem_values {β : Type} {map : Std.TreeMap Text β compare} {value : β}
    (member : value ∈ map.values) : ∃ key : Text, map[key]? = some value := by
  rw [values_eq_map_toList] at member
  obtain ⟨⟨key, value⟩, listed, rfl⟩ := List.mem_map.mp member
  exact ⟨key, Std.TreeMap.mem_toList_iff_getElem?_eq_some.mp listed⟩

theorem Tree.bounded (tree : Tree) :
    (tree.files.values.map ByteArray.size).sum ≤ tree.totalSize ∧
      ∀ (path : Path) (content : ByteArray), tree.read path = .ok content →
        content ∈ tree.files.values := by
  refine ⟨Nat.le_of_eq List.sum_eq_foldl, fun path content found => ?_⟩
  rw [read] at found
  split at found
  · next stored =>
    cases found
    exact mem_values_of_getElem? stored
  · cases found

/-- A store answers by its rules and its files alone. -/
theorem Store.view_eq (store : Store) :
    view store = {
      read := fun path => ((store.failure? .read path).map Except.error).getD (store.tree.read path)
      isFile := store.tree.isFile
      listDirectory := fun path =>
        ((store.failure? .list path).map Except.error).getD (store.tree.list path)
      sizeBound := store.tree.totalSize } := by
  have reads (path : Path) : (Store.read path store).1 =
      ((store.failure? .read path).map Except.error).getD (store.tree.read path) := by
    rw [Store.read]
    split <;> simp_all
  have lists (path : Path) : (Store.list path store).1 =
      ((store.failure? .list path).map Except.error).getD (store.tree.list path) := by
    rw [Store.list]
    split <;> simp_all
  rw [view, View.mk.injEq]
  exact ⟨funext reads, rfl, funext lists, rfl⟩

/-- What a store lets be read is one of its files. -/
theorem Store.mem_values_of_read {store : Store} {path : Path} {content : ByteArray}
    (found : (view store).read path = .ok content) : content ∈ store.tree.files.values := by
  rw [Store.view_eq] at found
  cases failing : store.failure? .read path with
  | some error => simp [failing] at found
  | none => exact store.tree.bounded.2 path content (by simpa [failing] using found)

theorem Store.read_snd (store : Store) (path : Path) :
    (Store.read path store).2 = { store with reads := store.reads ++ [path] } := by
  rw [Store.read]
  split <;> rfl

theorem Store.list_snd (store : Store) (path : Path) : (Store.list path store).2 = store := by
  rw [Store.list]
  split <;> rfl

instance : LawfulFileSystem Store where
  view_read path store := by
    change view (Store.read path store).2 = view store
    rw [Store.read_snd, Store.view_eq, Store.view_eq]
    rfl
  view_isFile _ _ := rfl
  view_listDirectory path store := congrArg view (store.list_snd path)
  view_sizeBound _ := rfl
  bounded store := by
    refine ⟨store.tree.files.values, ?_, fun _ _ => Store.mem_values_of_read⟩
    rw [Store.view_eq]
    exact store.tree.bounded.1

/-- The content of a directory entry, empty for a directory. -/
def DiskEntry.content : DiskEntry → ByteArray
  | .file content => content
  | .directory => .empty

namespace Disk

theorem entry?_of_find {disk : Disk} {text : Text} {place : Place} {entry : DiskEntry}
    (found : disk.find text = .ok (place, entry)) : Disk.entry? disk place = some entry := by
  rw [find] at found
  cases walked : disk.walk text with
  | error error =>
    rw [walked] at found
    cases found
  | ok reached =>
    rw [walked] at found
    cases there : Disk.entry? disk reached with
    | none =>
      simp only [bind, Except.bind, there] at found
      cases found
    | some entry =>
      simp only [bind, Except.bind, there] at found
      cases found
      exact there

theorem find_of_read {disk : Disk} {text : Text} {content : ByteArray}
    (found : disk.read text = .ok content) :
    ∃ place, disk.find text = .ok (place, .file content) := by
  rw [read] at found
  cases reached : disk.find text with
  | error error =>
    rw [reached] at found
    cases found
  | ok result =>
    obtain ⟨place, entry⟩ := result
    rw [reached] at found
    cases entry with
    | file stored =>
      cases found
      exact ⟨place, rfl⟩
    | directory => cases found

theorem bounded (disk : Disk) :
    ((disk.entries.values.map DiskEntry.content).map ByteArray.size).sum ≤ disk.totalSize ∧
      ∀ (text : Text) (content : ByteArray), disk.read text = .ok content →
        content ∈ disk.entries.values.map DiskEntry.content := by
  refine ⟨?_, fun text content found => ?_⟩
  · rw [totalSize, ← List.sum_eq_foldl, List.map_map]
    refine Nat.le_of_eq (congrArg List.sum (List.map_congr_left fun entry _ => ?_))
    cases entry <;> rfl
  · obtain ⟨place, reached⟩ := find_of_read found
    have stored := entry?_of_find reached
    unfold entry? at stored
    split at stored
    · cases stored
    · exact List.mem_map.mpr ⟨_, mem_values_of_getElem? stored, rfl⟩

end Disk

instance : LawfulFileSystem Disk where
  view_read _ _ := rfl
  view_isFile _ _ := rfl
  view_listDirectory _ _ := rfl
  view_sizeBound _ := rfl
  bounded disk := by
    obtain ⟨covered, readable⟩ := disk.bounded
    refine ⟨_, covered, fun path content found => ?_⟩
    change (disk.read path.text).mapError _ = .ok content at found
    cases outcome : disk.read path.text with
    | error error => rw [outcome] at found; cases found
    | ok read =>
      rw [outcome] at found
      cases found
      exact readable path.text content outcome

/-! ## Asking -/

section

variable {σ α β : Type}

/-- While the property holds of the files, the action gives what the question gives on the view, and
the property still holds afterwards. -/
def AsksWithin (kept : σ → Prop) (seen : View) (action : StateM σ α)
    (question : ReaderM View α) : Prop :=
  ∀ files : σ, kept files → (action files).1 = question seen ∧ kept (action files).2

namespace AsksWithin

variable {kept : σ → Prop} {seen : View}

theorem pure (value : α) :
    AsksWithin kept seen (Pure.pure value : StateM σ α) (Pure.pure value) :=
  fun _ holds => ⟨rfl, holds⟩

theorem bind {first : StateM σ α} {question : ReaderM View α} {next : α → StateM σ β}
    {nextQuestion : α → ReaderM View β} (before : AsksWithin kept seen first question)
    (after : ∀ value, AsksWithin kept seen (next value) (nextQuestion value)) :
    AsksWithin kept seen (first >>= next) (question >>= nextQuestion) := by
  intro files holds
  obtain ⟨answer, holdsThen⟩ := before files holds
  -- The second action starts from other files, but they answer alike.
  obtain ⟨nextAnswer, holdsLast⟩ := after (first files).1 (first files).2 holdsThen
  exact ⟨nextAnswer.trans (by rw [answer]; rfl), holdsLast⟩

end AsksWithin

variable [FileSystem (StateM σ)]

/-- The action gives what the question gives on the view, and leaves the view as it is. -/
def Asks (action : StateM σ α) (question : ReaderM View α) : Prop :=
  ∀ files : σ, (action files).1 = question (view files) ∧ view (action files).2 = view files

/-- A property of the files that fixes every answer and that no question destroys. -/
structure Stable (kept : σ → Prop) (seen : View) : Prop where
  view : ∀ files, kept files → view files = seen
  read : ∀ (path : Path) (files : σ), kept files →
    kept ((FileSystem.read path : StateM σ _) files).2
  isFile : ∀ (path : Path) (files : σ), kept files →
    kept ((FileSystem.isFile path : StateM σ _) files).2
  listDirectory : ∀ (path : Path) (files : σ), kept files →
    kept ((FileSystem.listDirectory path : StateM σ _) files).2
  sizeBound : ∀ files : σ, kept files → kept ((FileSystem.sizeBound : StateM σ _) files).2

/-- The answers themselves are such a property. -/
theorem stable_view [LawfulFileSystem σ] (seen : View) :
    Stable (fun files : σ => view files = seen) seen where
  view _ same := same
  read path files same := (LawfulFileSystem.view_read path files).trans same
  isFile path files same := (LawfulFileSystem.view_isFile path files).trans same
  listDirectory path files same := (LawfulFileSystem.view_listDirectory path files).trans same
  sizeBound files same := (LawfulFileSystem.view_sizeBound files).trans same

/-- The files, the created directories and the rules of a store are another one. -/
theorem Store.stable (store : Store) :
    Stable (fun other : Store => other.tree = store.tree ∧ other.rules = store.rules)
      (FileSystem.view store) where
  view other same := by simp only [Store.view_eq, Store.failure?, same.1, same.2]
  read path other same := by
    rw [show ((FileSystem.read path : StateM Store _) other).2 = _ from other.read_snd path]
    exact same
  isFile _ _ same := same
  listDirectory path other same := by
    rw [show ((FileSystem.listDirectory path : StateM Store _) other).2 = _ from
      other.list_snd path]
    exact same
  sizeBound _ same := same

namespace AsksWithin

variable {kept : σ → Prop} {seen : View}

variable (stable : Stable kept seen)

include stable

theorem read (path : Path) :
    AsksWithin kept seen (FileSystem.read path : StateM σ _) (FileSystem.read path) :=
  fun files holds =>
    ⟨congrArg (View.read · path) (stable.view files holds), stable.read path files holds⟩

theorem isFile (path : Path) :
    AsksWithin kept seen (FileSystem.isFile path : StateM σ _) (FileSystem.isFile path) :=
  fun files holds =>
    ⟨congrArg (View.isFile · path) (stable.view files holds), stable.isFile path files holds⟩

theorem listDirectory (path : Path) :
    AsksWithin kept seen (FileSystem.listDirectory path : StateM σ _)
      (FileSystem.listDirectory path) :=
  fun files holds => ⟨congrArg (View.listDirectory · path) (stable.view files holds),
    stable.listDirectory path files holds⟩

theorem sizeBound :
    AsksWithin kept seen (FileSystem.sizeBound : StateM σ _) FileSystem.sizeBound :=
  fun files holds =>
    ⟨congrArg View.sizeBound (stable.view files holds), stable.sizeBound files holds⟩

theorem readText (path : Path) :
    AsksWithin kept seen (FileSystem.readText path : StateM σ _) (FileSystem.readText path) :=
  (read stable path).bind fun _ => pure _

theorem findIgnoringCase (current : Path) (names : List Text) :
    AsksWithin kept seen (PageCompiler.findIgnoringCase current names : StateM σ _)
      (PageCompiler.findIgnoringCase current names) := by
  induction names generalizing current with
  | nil =>
    refine (isFile stable current).bind fun present => ?_
    split
    · exact pure _
    · exact pure _
  | cons name names ih =>
    refine (listDirectory stable current).bind fun listed => ?_
    cases listed with
    | error error => exact pure _
    | ok children =>
      dsimp only
      split
      · next child _ => exact ih child
      · exact pure _

theorem findIn (matching : NameMatching) (relative directory : Path) :
    AsksWithin kept seen (PageCompiler.findIn matching relative directory : StateM σ _)
      (PageCompiler.findIn matching relative directory) := by
  refine (isFile stable _).bind fun present => ?_
  split
  · exact pure _
  · cases matching with
    | exact => exact pure _
    | ignoreCase => exact findIgnoringCase stable _ _

theorem findFirst (matching : NameMatching) (relative : Path) (directories : List Path) :
    AsksWithin kept seen (PageCompiler.findFirst matching relative directories : StateM σ _)
      (PageCompiler.findFirst matching relative directories) := by
  induction directories with
  | nil => exact pure _
  | cons directory others ih =>
    refine (findIn stable matching relative directory).bind fun found => ?_
    cases found with
    | some path => exact pure _
    | none => exact ih

end AsksWithin

namespace Asks

theorem of_within {action : StateM σ α} {question : ReaderM View α}
    (asks : ∀ seen, AsksWithin (fun files => view files = seen) seen action question) :
    Asks action question :=
  fun files => asks (view files) files rfl

variable [LawfulFileSystem σ]

theorem isFile (path : Path) :
    Asks (FileSystem.isFile path : StateM σ _) (FileSystem.isFile path) :=
  of_within fun seen => .isFile (stable_view seen) path

theorem sizeBound : Asks (FileSystem.sizeBound : StateM σ _) FileSystem.sizeBound :=
  of_within fun seen => .sizeBound (stable_view seen)

theorem readText (path : Path) :
    Asks (FileSystem.readText path : StateM σ _) (FileSystem.readText path) :=
  of_within fun seen => .readText (stable_view seen) path

theorem findFirst (matching : NameMatching) (relative : Path) (directories : List Path) :
    Asks (PageCompiler.findFirst matching relative directories : StateM σ _)
      (PageCompiler.findFirst matching relative directories) :=
  of_within fun seen => .findFirst (stable_view seen) matching relative directories

end Asks

end

end PageCompiler
