import PageCompiler.Proofs.FileSystem.Entries
import PageCompiler.Proofs.FileSystem.Silence
import PageCompiler.Proofs.Name.RelativePath
import PageCompiler.Proofs.Resolution.Step

/-! # Searching in any letter case

Where names are compared without their case, a file is looked for level by level, and at each level
the search goes into the first entry, in the order of texts, that agrees with the wanted name. It
never comes back from there: a file below another entry that agrees as well is not found. What is
found is always below the root under names that agree, and a file whose names have no rivals is
found.
-/

namespace PageCompiler

open PageCompiler.Path (IsFileName IsNormalRoot)

namespace Tree

/-! ## Keys below a directory -/

/-- The key of what the names lead to from the directory with the key. -/
def below (directory : Text) (names : List Text) : Text :=
  names.foldl (fun directory name => directoryPrefix directory ++ name) directory

theorem directoryPrefix_append {name : Text} (proper : IsFileName name) (start : Text) :
    directoryPrefix (start ++ name) = start ++ name ++ ['/'] := by
  obtain ⟨c, last, other⟩ := proper.exists_getLast?
  simp [directoryPrefix, List.getLast?_append, last, other]

theorem below_eq {names : List Text} (proper : ∀ name ∈ names, IsFileName name)
    (nonempty : names ≠ []) (directory : Text) :
    below directory names = directoryPrefix directory ++ Text.join ['/'] names := by
  induction names generalizing directory with
  | nil => exact absurd rfl nonempty
  | cons name names inductionHypothesis =>
    obtain ⟨here, others⟩ := List.forall_mem_cons.mp proper
    cases names with
    | nil => simp [below, Text.join]
    | cons next names =>
      have rest := inductionHypothesis others (List.cons_ne_nil next names)
        (directoryPrefix directory ++ name)
      rw [directoryPrefix_append here] at rest
      simp only [Text.join, List.intercalate_cons_cons] at rest ⊢
      rw [below, List.foldl_cons, ← below, rest]
      simp

/-- The path below a root has the key that the names lead to. -/
theorem text_join {root : Path} (isRoot : root.IsNormalRoot) {names : List Text}
    (proper : ∀ name ∈ names, IsFileName name) (nonempty : names ≠ []) :
    (root.join ⟨Text.join ['/'] names⟩).text = below root.text names := by
  have filled : root.text ≠ [] := by
    intro none
    have absolute := isRoot.absolute
    simp [Path.isAbsolute, none] at absolute
  rw [below_eq proper nonempty, Path.join, Path.not_isAbsolute_join_names proper nonempty,
    directoryPrefix]
  by_cases slash : root.text.getLast? = some '/' <;> simp [slash, filled]

theorem keyOf_eq_text {path : Path} {c : Char} (plain : '\\' ∉ path.text)
    (last : path.text.getLast? = some c) (other : c ≠ '/') : keyOf path = path.text := by
  have unchanged : path.text.map (fun c => if c = '\\' then '/' else c) = path.text := by
    refine (List.map_congr_left fun d member => if_neg ?_).trans (List.map_id path.text)
    rintro rfl
    exact plain member
  rw [keyOf, unchanged, Path.dropEndSlashes_eq_self last other]

theorem keyOf_root {root : Path} (isRoot : root.IsNormalRoot) (plain : '\\' ∉ root.text) :
    keyOf root = root.text := by
  obtain ⟨names, proper, written⟩ := isRoot.exists_names
  by_cases top : names = []
  · rw [written, top]
    rfl
  · obtain ⟨c, last, other⟩ := Text.exists_getLast?_join ['/'] top
      fun name member => (proper name member).exists_getLast?
    refine keyOf_eq_text (c := c) plain ?_ other
    rw [written, Path.ofComponents_root_names]
    simp [List.getLast?_cons, last]

theorem backslash_not_mem_directoryPrefix {directory : Text} (plain : '\\' ∉ directory) :
    '\\' ∉ directoryPrefix directory := by
  rw [directoryPrefix]
  split <;> simp [plain]

/-- A file below a root is stored under its own path. -/
theorem below_mem_keys {tree : Tree} {root : Path} (isRoot : root.IsNormalRoot)
    (plain : '\\' ∉ root.text) {names : List Text} (proper : ∀ name ∈ names, IsEntryName name)
    (nonempty : names ≠ []) (present : tree.isFile (root.join ⟨Text.join ['/'] names⟩) = true) :
    below root.text names ∈ tree.keys := by
  have fileNames : ∀ name ∈ names, IsFileName name := fun name member =>
    (proper name member).isFileName
  obtain ⟨c, last, other⟩ := Text.exists_getLast?_join ['/'] nonempty
    fun name member => (fileNames name member).exists_getLast?
  have text := text_join isRoot fileNames nonempty
  have split := below_eq fileNames nonempty root.text
  have backslash : '\\' ∉ Text.join ['/'] names := by
    intro inside
    rcases Text.mem_join inside with same | ⟨name, member, there⟩
    · exact absurd same (by decide)
    · exact (proper name member).plain there
  have keyed : keyOf (root.join ⟨Text.join ['/'] names⟩) = below root.text names := by
    rw [← text]
    apply keyOf_eq_text (c := c) _ _ other
    · rw [text, split]
      simp [backslash_not_mem_directoryPrefix plain, backslash]
    · rw [text, split]
      simp [List.getLast?_append, last]
  rw [isFile, keyed, Std.TreeMap.contains_iff_mem, ← Std.TreeMap.mem_keys] at present
  exact List.mem_append_left _ present

/-- An entry is stored under its own path. -/
theorem keyOf_entry {directory name : Text} (plain : '\\' ∉ directory) (proper : IsEntryName name) :
    keyOf ⟨directoryPrefix directory ++ name⟩ = directoryPrefix directory ++ name := by
  obtain ⟨c, last, other⟩ := proper.isFileName.exists_getLast?
  refine keyOf_eq_text (c := c) ?_ ?_ other
  · simp [backslash_not_mem_directoryPrefix plain, proper.plain]
  · simp [List.getLast?_append, last]

/-! ## The way through the first entries -/

/-- The first entries that agree with the wanted names, level by level from the directory with the
key. -/
inductive FirstWay (tree : Tree) : Text → List Text → List Text → Prop where
  | here (directory : Text) : FirstWay tree directory [] []
  | into {directory name entry : Text} {names entries : List Text}
      (first : tree.IsFirstNamed directory name entry)
      (rest : FirstWay tree (directoryPrefix directory ++ entry) names entries) :
      FirstWay tree directory (name :: names) (entry :: entries)

/-- In no directory on the way from the one with the key another entry agrees with the next one. -/
def Unrivalled (tree : Tree) : Text → List Text → Prop
  | _, [] => True
  | directory, entry :: entries =>
    (∀ other, tree.HasEntry directory other →
      Text.lowercase other = Text.lowercase entry → other = entry) ∧
    Unrivalled tree (directoryPrefix directory ++ entry) entries

def AgreesIgnoringCase (entry name : Text) : Prop :=
  Text.lowercase entry = Text.lowercase name

variable {tree : Tree} {directory : Text} {names entries : List Text}

theorem FirstWay.agrees (way : tree.FirstWay directory names entries) :
    List.Forall₂ AgreesIgnoringCase entries names := by
  induction way with
  | here => exact .nil
  | into first _ inductionHypothesis => exact .cons first.agrees inductionHypothesis

theorem isEntryName_of_agrees (agree : List.Forall₂ AgreesIgnoringCase entries names)
    (proper : ∀ name ∈ names, IsEntryName name) : ∀ entry ∈ entries, IsEntryName entry := by
  induction agree with
  | nil => exact nofun
  | cons agrees _ inductionHypothesis =>
    rw [List.forall_mem_cons] at proper ⊢
    exact ⟨proper.1.of_agrees agrees, inductionHypothesis proper.2⟩

theorem ne_nil_of_agrees (agree : List.Forall₂ AgreesIgnoringCase entries names)
    (nonempty : names ≠ []) : entries ≠ [] := by
  rintro rfl
  cases agree
  exact nonempty rfl

/-- Every name on the path of a stored file is an entry. -/
theorem hasEntry_of_stored {entry : Text} (proper : ∀ name ∈ entry :: entries, IsFileName name)
    (stored : below directory (entry :: entries) ∈ tree.keys) :
    tree.HasEntry directory entry := by
  obtain ⟨here, others⟩ := List.forall_mem_cons.mp proper
  obtain ⟨filled, -, -, whole⟩ := Path.isFileName_iff.mp here
  refine ⟨filled, whole, _, stored, ?_⟩
  change ∃ rest, below (directoryPrefix directory ++ entry) entries = _ ∧ _
  by_cases last : entries = []
  · exact ⟨[], by simp [last, below], by simp⟩
  · rw [below_eq others last, directoryPrefix_append here]
    exact ⟨'/' :: Text.join ['/'] entries, by simp, by simp⟩

/-- A stored file without rivals lies on the way through the first entries. -/
theorem firstWay_of_unrivalled (agree : List.Forall₂ AgreesIgnoringCase entries names)
    (proper : ∀ entry ∈ entries, IsFileName entry) (stored : below directory entries ∈ tree.keys)
    (unrivalled : tree.Unrivalled directory entries) : tree.FirstWay directory names entries := by
  induction agree generalizing directory with
  | nil => exact .here directory
  | @cons entry name entries names agrees _ inductionHypothesis =>
    have first : tree.IsFirstNamed directory name entry := {
      entry := hasEntry_of_stored proper stored
      agrees := agrees
      least := by
        intro other there agreesToo
        rw [unrivalled.1 other there (agreesToo.trans agrees.symm)]
        simp }
    exact .into first
      (inductionHypothesis (List.forall_mem_cons.mp proper).2 stored unrivalled.2)

/-! ## The search -/

/-- A child is called a name in some letter case exactly if its entry agrees with the name. -/
theorem isNamed_entry_iff (dots : tree.WithoutDots) {name entry : Text} (proper : IsEntryName name)
    (there : tree.HasEntry directory entry) :
    isNamed (Text.lowercase name) ⟨directoryPrefix directory ++ entry⟩ = true ↔
      Text.lowercase entry = Text.lowercase name := by
  have starts := exists_directoryPrefix_eq directory
  have notDot := there.ne_dot dots
  by_cases parent : entry = ['.', '.']
  · have counts : Path.Component.ofPiece? entry = some .parent := by rw [parent]; rfl
    have last : (⟨directoryPrefix directory ++ entry⟩ : Path).components.getLast? =
        some .parent :=
      Path.getLast?_components rfl there.whole (.inr starts) counts
    -- Two dots are no file name, and they agree with no wanted name.
    refine iff_of_false (by simp [isNamed, Path.fileName?, last]) ?_
    intro agrees
    have entryName := proper.of_agrees agrees
    exact (Path.isFileName_iff.mp entryName.isFileName).2.2.1 parent
  · have isFileName : IsFileName entry :=
      Path.isFileName_iff.mpr ⟨there.nonempty, notDot, parent, there.whole⟩
    rw [isNamed, Path.fileName?_eq_some rfl there.whole (.inr starts) isFileName.1]
    simp

theorem find?_isNamed_iff (dots : tree.WithoutDots) {current : Path} {children : List Path}
    (listed : tree.list current = .ok children) {name : Text} (proper : IsEntryName name)
    (child : Path) :
    children.find? (isNamed (Text.lowercase name)) = some child ↔
      ∃ entry, tree.IsFirstNamed (keyOf current) name entry ∧
        child = ⟨directoryPrefix (keyOf current) ++ entry⟩ := by
  rw [find?_eq_some_iff_least (pairwise_list listed), mem_list listed]
  constructor
  · rintro ⟨⟨entry, there, rfl⟩, named, least⟩
    refine ⟨entry, ⟨there, (isNamed_entry_iff dots proper there).mp named, ?_⟩, rfl⟩
    intro other thereToo agrees
    have before := least _ ((mem_list listed _).mpr ⟨other, thereToo, rfl⟩)
      ((isNamed_entry_iff dots proper thereToo).mpr agrees)
    rwa [compare_append] at before
  · rintro ⟨entry, first, rfl⟩
    refine ⟨⟨entry, first.entry, rfl⟩, (isNamed_entry_iff dots proper first.entry).mpr first.agrees,
      ?_⟩
    intro other member named
    obtain ⟨entryToo, there, rfl⟩ := (mem_list listed _).mp member
    rw [compare_append]
    exact first.least entryToo there ((isNamed_entry_iff dots proper there).mp named)

variable {view : View}

theorem findIgnoringCase_nil_view (current : Path) :
    (findIgnoringCase current [] : ReaderM View (Option Path)) view =
      if view.isFile current then some current else none := by
  rw [findIgnoringCase]
  change (if view.isFile current then _ else _ : ReaderM View (Option Path)) view = _
  split <;> rfl

theorem findIgnoringCase_cons_view (current : Path) (name : Text) (names : List Text) :
    (findIgnoringCase current (name :: names) : ReaderM View (Option Path)) view =
      match view.listDirectory current with
      | .error _ => none
      | .ok children =>
        match children.find? (isNamed (Text.lowercase name)) with
        | some child => (findIgnoringCase child names : ReaderM View (Option Path)) view
        | none => none := by
  rw [findIgnoringCase]
  change (match view.listDirectory current with
    | .error _ => _
    | .ok children => _ : ReaderM View (Option Path)) view = _
  cases view.listDirectory current with
  | error error => rfl
  | ok children =>
    dsimp only
    cases children.find? (isNamed (Text.lowercase name)) <;> rfl

/-- The search ends at the file that the first entries lead to, if they lead to one. -/
theorem findIgnoringCase_eq_some_iff (files : view.isFile = tree.isFile)
    (lists : view.listDirectory = tree.list) (dots : tree.WithoutDots)
    (proper : ∀ name ∈ names, IsEntryName name) {current : Path}
    (plain : '\\' ∉ current.text) (keyed : keyOf current = current.text) (found : Path) :
    (findIgnoringCase current names : ReaderM View (Option Path)) view = some found ↔
      ∃ entries, tree.FirstWay current.text names entries ∧
        found = ⟨below current.text entries⟩ ∧ tree.isFile found = true := by
  induction names generalizing current with
  | nil =>
    rw [findIgnoringCase_nil_view, files]
    constructor
    · intro ends
      split at ends
      · next present =>
        obtain rfl := Option.some.inj ends
        exact ⟨[], .here _, rfl, present⟩
      · cases ends
    · rintro ⟨_, way, rfl, present⟩
      cases way
      exact if_pos present
  | cons name names inductionHypothesis =>
    obtain ⟨here, others⟩ := List.forall_mem_cons.mp proper
    rw [findIgnoringCase_cons_view, lists]
    cases listed : tree.list current with
    | error error =>
      refine iff_of_false nofun ?_
      rintro ⟨entries, way, -⟩
      cases way with
      | into first _ => exact not_hasEntry_of_list listed _ (keyed ▸ first.entry)
    | ok children =>
      have chosen := find?_isNamed_iff dots listed here
      rw [keyed] at chosen
      dsimp only
      cases met : children.find? (isNamed (Text.lowercase name)) with
      | none =>
        refine iff_of_false nofun ?_
        rintro ⟨entries, way, -⟩
        cases way with
        | into first _ => cases met.symm.trans ((chosen _).mpr ⟨_, first, rfl⟩)
      | some child =>
        obtain ⟨entry, first, rfl⟩ := (chosen child).mp met
        have entryName := here.of_agrees first.agrees
        have plainToo : '\\' ∉ (⟨directoryPrefix current.text ++ entry⟩ : Path).text := by
          simp [backslash_not_mem_directoryPrefix plain, entryName.plain]
        rw [inductionHypothesis others plainToo (keyOf_entry plain entryName)]
        constructor
        · rintro ⟨entries, way, rest⟩
          exact ⟨entry :: entries, .into first way, rest⟩
        · rintro ⟨_, way, ends, present⟩
          cases way with
          | @into _ _ entryToo _ entries firstToo way =>
            -- There is only one first entry.
            have same := met.symm.trans ((chosen _).mpr ⟨entryToo, firstToo, rfl⟩)
            obtain rfl : entry = entryToo := by simpa using same
            exact ⟨entries, way, ends, present⟩

end Tree

/-! ## What is found -/

/-- The outcome of looking for the file that the wanted names, in any letter case, lead to from a
root. -/
structure FoundIgnoringCase (tree : Tree) (root : Path) (wanted : List Text) (missing : BuildError)
    (outcome : Except BuildError Path) : Prop where
  /-- What is found is stored below the root under names that agree with the wanted ones. -/
  sound : ∀ path, outcome = .ok path → tree.isFile path = true ∧
    ∃ entries, List.Forall₂ Tree.AgreesIgnoringCase entries wanted ∧
      path = root.join ⟨Text.join ['/'] entries⟩ ∧
      path.components = root.components ++ entries.map .normal
  /-- Something is found exactly if the wanted names themselves or the first entries that agree with
  them lead to a file. -/
  found_iff : (∃ path, outcome = .ok path) ↔
    tree.isFile (root.join ⟨Text.join ['/'] wanted⟩) = true ∨
      ∃ entries, tree.FirstWay root.text wanted entries ∧
        tree.isFile (root.join ⟨Text.join ['/'] entries⟩) = true
  /-- A stored file is enough if its names have no rivals. -/
  complete : ∀ entries, List.Forall₂ Tree.AgreesIgnoringCase entries wanted →
    tree.isFile (root.join ⟨Text.join ['/'] entries⟩) = true →
    tree.Unrivalled root.text entries → ∃ path, outcome = .ok path
  /-- Nothing else goes wrong. -/
  refused : ∀ error, outcome = .error error → error = missing

section

variable {resolver : Resolver} {root : Path} {store : Store} {names : List Text}

theorem view_listDirectory_eq (lists : ∀ rule ∈ store.rules, rule.operation ≠ .list) :
    (FileSystem.view store).listDirectory = store.tree.list := by
  rw [Store.view_eq]
  funext path
  have quiet : store.failure? .list path = none := by
    rw [Store.failure?, Option.map_eq_none_iff, List.find?_eq_none]
    intro rule member
    simp [lists rule member]
  simp [quiet]

/-- Looking for a file below one root: the wanted names themselves come first. -/
theorem findFirst_ignoreCase_view (view : View) (relative : Path) :
    (findFirst .ignoreCase relative [root] : ReaderM View (Option Path)) view =
      if view.isFile (candidate relative root) then some (candidate relative root)
      else (findIgnoringCase root (relative.components.map Path.Component.text) :
        ReaderM View (Option Path)) view := by
  rw [findFirst, findIn]
  change (match (if view.isFile (candidate relative root) then _ else _ :
    ReaderM View (Option Path)) view with
      | some path => _
      | none => _ : ReaderM View (Option Path)) view = _
  split
  · rfl
  · cases found : (findIgnoringCase root (relative.components.map Path.Component.text) :
      ReaderM View (Option Path)) view <;> rfl

theorem locateIn_run (resolver : Resolver) (store : Store) (origin : Origin) (wanted : Text)
    (directories : List Path) (relative : Path) (resolution : Resolution) :
    ((locateIn resolver origin wanted directories relative :
        ResolveM (StateM Store) Path).run.run resolution).run store =
      ((match (findFirst resolver.policy.matching relative directories :
          ReaderM View (Option Path)) (FileSystem.view store) with
        | some path => .ok path
        | none => .error (.moduleNotFound wanted origin.path origin.line
            (dropRepeatedPaths (directories.map (candidate relative)))), resolution), store) := by
  have asked : ((liftM (findFirst resolver.policy.matching relative directories :
      StateM Store _) : ResolveM (StateM Store) (Option Path)).run.run resolution).run store =
        ((.ok ((findFirst resolver.policy.matching relative directories :
          ReaderM View (Option Path)) (FileSystem.view store)), resolution), store) :=
    congrArg (fun result : Option Path × Store => ((Except.ok result.1, resolution), result.2))
      (store.findFirst_run resolver.policy.matching relative directories)
  rw [locateIn, resolve_bind_run, asked]
  dsimp only
  cases (findFirst resolver.policy.matching relative directories :
    ReaderM View (Option Path)) (FileSystem.view store) <;> rfl

/-- What names that agree with the wanted ones lead to is a path below the root. -/
theorem below_eq_join (isRoot : root.IsNormalRoot) (proper : ∀ name ∈ names, IsEntryName name)
    (nonempty : names ≠ []) {entries : List Text}
    (agree : List.Forall₂ Tree.AgreesIgnoringCase entries names) :
    (⟨Tree.below root.text entries⟩ : Path) = root.join ⟨Text.join ['/'] entries⟩ ∧
      (root.join ⟨Text.join ['/'] entries⟩).components =
        root.components ++ entries.map .normal := by
  have filled := Tree.ne_nil_of_agrees agree nonempty
  have properToo : ∀ entry ∈ entries, IsFileName entry := fun entry member =>
    (Tree.isEntryName_of_agrees agree proper entry member).isFileName
  exact ⟨congrArg Path.mk (Tree.text_join isRoot properToo filled).symm,
    Path.components_join isRoot properToo filled⟩

namespace FoundIgnoringCase

variable {tree : Tree} {missing : BuildError}

/-- The wanted names are the names of a file. -/
theorem of_wanted (isRoot : root.IsNormalRoot) (proper : ∀ name ∈ names, IsEntryName name)
    (nonempty : names ≠ [])
    (present : tree.isFile (root.join ⟨Text.join ['/'] names⟩) = true) :
    FoundIgnoringCase tree root names missing (.ok (root.join ⟨Text.join ['/'] names⟩)) := by
  have itself : List.Forall₂ Tree.AgreesIgnoringCase names names :=
    List.forall₂_same.mpr fun _ _ => rfl
  exact {
    sound := by
      rintro path ⟨⟩
      exact ⟨present, names, itself, rfl, (below_eq_join isRoot proper nonempty itself).2⟩
    found_iff := iff_of_true ⟨_, rfl⟩ (.inl present)
    complete := fun _ _ _ _ => ⟨_, rfl⟩
    refused := by rintro error ⟨⟩ }

/-- The first entries lead to a file. -/
theorem of_firstWay (isRoot : root.IsNormalRoot) (proper : ∀ name ∈ names, IsEntryName name)
    (nonempty : names ≠ []) {entries : List Text}
    (way : tree.FirstWay root.text names entries)
    (present : tree.isFile (root.join ⟨Text.join ['/'] entries⟩) = true) :
    FoundIgnoringCase tree root names missing (.ok (root.join ⟨Text.join ['/'] entries⟩)) where
  sound := by
    rintro path ⟨⟩
    exact ⟨present, entries, way.agrees, rfl,
      (below_eq_join isRoot proper nonempty way.agrees).2⟩
  found_iff := iff_of_true ⟨_, rfl⟩ (.inr ⟨entries, way, present⟩)
  complete := fun _ _ _ _ => ⟨_, rfl⟩
  refused := by rintro error ⟨⟩

/-- Neither the wanted names nor the first entries lead to a file. -/
theorem of_missed (isRoot : root.IsNormalRoot) (plain : '\\' ∉ root.text)
    (proper : ∀ name ∈ names, IsEntryName name) (nonempty : names ≠ [])
    (absent : ¬tree.isFile (root.join ⟨Text.join ['/'] names⟩) = true)
    (missed : ∀ entries, tree.FirstWay root.text names entries →
      ¬tree.isFile (root.join ⟨Text.join ['/'] entries⟩) = true) :
    FoundIgnoringCase tree root names missing (.error missing) where
  sound := by rintro path ⟨⟩
  found_iff := by
    refine iff_of_false ?_ ?_
    · rintro ⟨path, ⟨⟩⟩
    · rintro (here | ⟨entries, way, present⟩)
      · exact absent here
      · exact missed entries way present
  complete := by
    intro entries agree present unrivalled
    have properToo := Tree.isEntryName_of_agrees agree proper
    have stored := Tree.below_mem_keys isRoot plain properToo
      (Tree.ne_nil_of_agrees agree nonempty) present
    -- Without rivals the file would be the one at the end of the first entries.
    have way := Tree.firstWay_of_unrivalled agree
      (fun entry member => (properToo entry member).isFileName) stored unrivalled
    exact absurd present (missed entries way)
  refused := by
    rintro error ⟨⟩
    rfl

end FoundIgnoringCase

theorem locateIn_ignoringCase (ignores : resolver.policy.matching = .ignoreCase)
    (isRoot : root.IsNormalRoot) (plain : '\\' ∉ root.text)
    (proper : ∀ name ∈ names, IsEntryName name) (nonempty : names ≠ [])
    (lists : ∀ rule ∈ store.rules, rule.operation ≠ .list) (dots : store.tree.WithoutDots)
    (origin : Origin) (wanted : Text) (resolution : Resolution) :
    ∃ outcome, ((locateIn resolver origin wanted [root] ⟨Text.join ['/'] names⟩ :
        ResolveM (StateM Store) Path).run.run resolution).run store =
          ((outcome, resolution), store) ∧
      FoundIgnoringCase store.tree root names (.moduleNotFound wanted origin.path origin.line
        [root.join ⟨Text.join ['/'] names⟩]) outcome := by
  have fileNames : ∀ name ∈ names, IsFileName name := fun name member =>
    (proper name member).isFileName
  have expected : candidate ⟨Text.join ['/'] names⟩ root = root.join ⟨Text.join ['/'] names⟩ :=
    Path.normalize_join isRoot fileNames nonempty
  have isFile : (FileSystem.view store).isFile = store.tree.isFile := by rw [Store.view_eq]
  have searched := Tree.findIgnoringCase_eq_some_iff isFile (view_listDirectory_eq lists) dots
    proper plain (Tree.keyOf_root isRoot plain)
  have written : (names.map Path.Component.normal).map Path.Component.text = names := by
    simp [Path.Component.text, Function.comp_def]
  have run := locateIn_run resolver store origin wanted [root] ⟨Text.join ['/'] names⟩ resolution
  rw [ignores, findFirst_ignoreCase_view, expected, isFile, Path.components_join_names fileNames,
    written, List.map_singleton, expected] at run
  refine ⟨_, run, ?_⟩
  by_cases present : store.tree.isFile (root.join ⟨Text.join ['/'] names⟩) = true
  · rw [if_pos present]
    exact .of_wanted isRoot proper nonempty present
  · rw [if_neg present]
    cases ended : (findIgnoringCase root names : ReaderM View (Option Path))
      (FileSystem.view store) with
    | some found =>
      obtain ⟨entries, way, rfl, there⟩ := (searched found).mp ended
      rw [(below_eq_join isRoot proper nonempty way.agrees).1] at there ⊢
      exact .of_firstWay isRoot proper nonempty way there
    | none =>
      refine .of_missed isRoot plain proper nonempty present ?_
      intro entries way there
      rw [← (below_eq_join isRoot proper nonempty way.agrees).1] at there
      cases ended.symm.trans ((searched _).mpr ⟨entries, way, rfl, there⟩)

/-- The policy that the stylesheets of modules are looked for by. -/
def NamePolicy.forStylesheets (policy : NamePolicy) : NamePolicy :=
  { policy with extension := "css".toList }

/-- Below a single root, a module or a stylesheet is found ignoring case exactly if its names or the
first entries that agree with them lead to a file. A file whose names have no rivals is found, what
is found lies under names that agree, and where nothing is found the error says so. -/
theorem locate_ignoring_case {name : ModuleName} (ignores : resolver.policy.matching = .ignoreCase)
    (roots : resolver.roots = [root])
    (unbound : resolver.bindings[name.key resolver.policy.matching]? = none)
    (isRoot : root.IsNormalRoot) (plain : '\\' ∉ root.text)
    (slash : '/' ∉ resolver.policy.extension) (backslash : '\\' ∉ resolver.policy.extension)
    (lists : ∀ rule ∈ store.rules, rule.operation ≠ .list) (dots : store.tree.WithoutDots)
    (origin : Origin) (resolution : Resolution) :
    (∃ outcome, ((locateModule resolver origin name :
        ResolveM (StateM Store) Path).run.run resolution).run store =
          ((outcome, resolution), store) ∧
      FoundIgnoringCase store.tree root (resolver.policy.relativeNames name)
        (.moduleNotFound name.qualified origin.path origin.line
          [root.join (resolver.policy.relativePath name)]) outcome) ∧
    ∃ outcome, ((includeStylesheet resolver origin name :
        ResolveM (StateM Store) Unit).run.run resolution).run store =
          (match outcome with
          | .ok path => ((attachFile resolver origin path .stylesheet :
              ResolveM (StateM Store) Unit).run.run resolution).run store
          | .error error => ((.error error, resolution), store)) ∧
      FoundIgnoringCase store.tree root (resolver.policy.forStylesheets.relativeNames name)
        (.moduleNotFound name.qualified origin.path origin.line
          [root.join (resolver.policy.forStylesheets.relativePath name)]) outcome := by
  constructor
  · rw [NamePolicy.relativePath_eq]
    obtain ⟨outcome, run, found⟩ := locateIn_ignoringCase ignores isRoot plain
      (NamePolicy.isEntryName_of_mem_relativeNames slash backslash name)
      (resolver.policy.relativeNames_ne_nil name) lists dots origin name.qualified resolution
    refine ⟨outcome, ?_, found⟩
    rw [locateModule, unbound, roots, NamePolicy.relativePath_eq]
    exact run
  · rw [NamePolicy.relativePath_eq]
    have proper : ∀ entry ∈ resolver.policy.forStylesheets.relativeNames name,
        IsEntryName entry :=
      NamePolicy.isEntryName_of_mem_relativeNames (show '/' ∉ "css".toList by decide)
        (show '\\' ∉ "css".toList by decide) name
    obtain ⟨outcome, run, found⟩ := locateIn_ignoringCase ignores isRoot plain proper
      (resolver.policy.forStylesheets.relativeNames_ne_nil name) lists dots origin name.qualified
      resolution
    refine ⟨outcome, ?_, found⟩
    have steps : (includeStylesheet resolver origin name : ResolveM (StateM Store) Unit) =
        locateIn resolver origin name.qualified [root]
          (resolver.policy.forStylesheets.relativePath name) >>= fun path =>
            attachFile resolver origin path .stylesheet := by
      rw [includeStylesheet, roots]
      rfl
    rw [steps, resolve_bind_run, NamePolicy.relativePath_eq, run]
    cases outcome <;> rfl

end

def ignoringResolver : Resolver :=
  .make [.ofString "/lib"] (.make .ignoreCase .nested "js".toList) []

def uiWidget : ModuleName :=
  ⟨["Ui".toList], "Widget".toList, by decide, by decide⟩

/-- Two directories agree with the namespace, and the first one has the file. -/
def fileInFirst : Store :=
  .ofFiles [(.ofString "/lib/UI/widget.js", .empty), (.ofString "/lib/ui/Other.js", .empty)] []

theorem locate_ignoring_case_fileInFirst :
    ∃ path, ((locateModule ignoringResolver ⟨.ofString "/src/main.js", 1⟩ uiWidget :
        ResolveM (StateM Store) Path).run.run ⟨.empty .ignoreCase, 0⟩).run fileInFirst =
          ((.ok path, ⟨.empty .ignoreCase, 0⟩), fileInFirst) ∧
      fileInFirst.tree.isFile path = true ∧
      ∃ entries, List.Forall₂ Tree.AgreesIgnoringCase entries ["Ui".toList, "Widget.js".toList] ∧
        path.components = [.root, .normal "lib".toList] ++ entries.map .normal := by
  have isRoot : Path.IsNormalRoot (.ofString "/lib") := ⟨by decide, by decide +kernel⟩
  have ignores : ignoringResolver.policy.matching = .ignoreCase := rfl
  have unbound : ignoringResolver.bindings[uiWidget.key ignoringResolver.policy.matching]? =
      none := by decide +kernel
  have lists : ∀ rule ∈ fileInFirst.rules, rule.operation ≠ .list := nofun
  have dots : fileInFirst.tree.WithoutDots := by
    unfold Tree.WithoutDots
    decide +kernel
  obtain ⟨⟨outcome, run, found⟩, -⟩ := locate_ignoring_case ignores (by decide +kernel) unbound
    isRoot (by decide) (by decide) (by decide) lists dots
    ⟨.ofString "/src/main.js", 1⟩ ⟨.empty .ignoreCase, 0⟩
  have succeeds : (((locateModule ignoringResolver ⟨.ofString "/src/main.js", 1⟩ uiWidget :
      ResolveM (StateM Store) Path).run.run ⟨.empty .ignoreCase, 0⟩).run
        fileInFirst).1.1.toOption.isSome = true := by decide +kernel
  rw [run] at succeeds
  cases outcome with
  | error error => cases succeeds
  | ok path =>
    obtain ⟨present, entries, agree, -, components⟩ := found.sound path rfl
    exact ⟨path, run, present, entries, agree, components⟩

/-- The first directory that agrees with the namespace has another file only. -/
def fileInSecond : Store :=
  .ofFiles [(.ofString "/lib/UI/Other.js", .empty), (.ofString "/lib/ui/Widget.js", .empty)] []

/-- A file lies under names that agree with the wanted ones, and the module is not found. -/
theorem module_missed_fileInSecond :
    fileInSecond.tree.isFile ((Path.ofString "/lib").join (.ofString "ui/Widget.js")) = true ∧
      List.Forall₂ Tree.AgreesIgnoringCase ["ui".toList, "Widget.js".toList]
        (ignoringResolver.policy.relativeNames uiWidget) ∧
      (((locateModule ignoringResolver ⟨.ofString "/src/main.js", 1⟩ uiWidget :
        ResolveM (StateM Store) Path).run.run ⟨.empty .ignoreCase, 0⟩).run fileInSecond).1.1 =
          .error (.moduleNotFound "Ui.Widget".toList (.ofString "/src/main.js") 1
            [.ofString "/lib/Ui/Widget.js"]) := by
  refine ⟨by decide +kernel, ?_, by decide +kernel⟩
  exact .cons (by unfold Tree.AgreesIgnoringCase; decide +kernel)
    (.cons (by unfold Tree.AgreesIgnoringCase; decide +kernel) .nil)

end PageCompiler
