import Mathlib.Algebra.Order.BigOperators.Group.List
import Mathlib.Algebra.Order.Group.Nat
import Mathlib.Data.List.Chain
import Mathlib.Data.List.Nodup
import Mathlib.Data.List.Perm.Subperm
import Mathlib.Logic.Relation
import PageCompiler.Proofs.Assembly.Imports
import PageCompiler.Proofs.FileSystem.View
import PageCompiler.Proofs.Source.Scan
import PageCompiler.Resolution.Resolve

/-! # The graph of import directives

What the files say, without a registry: which source file a module name stands for, which names that
file imports, and which names can be reached from some first ones. No two names on a path without a
cycle have one key, and every name but the first takes up room in some file; that bounds the length
of such a path.
-/

namespace PageCompiler

namespace View

variable (view : View) (resolver : Resolver)

/-! ## Files -/

/-- The file that a module is bound to, else the first one under the roots. -/
def moduleFile? (name : ModuleName) : Option Path :=
  match resolver.bindings[name.key resolver.policy.matching]? with
  | some (_, path) => some path
  | none => (findFirst resolver.policy.matching (resolver.policy.relativePath name) resolver.roots :
      ReaderM View (Option Path)) view

/-- The file that an include directive of the file `source` names. -/
def includedFile? (source : Path) (text : Text) : Option Path :=
  if Path.isAbsolute ⟨text⟩ then
    if view.isFile (Path.normalize ⟨text⟩) then some (Path.normalize ⟨text⟩) else none
  else (findFirst resolver.policy.matching ⟨text⟩
    (source.directory.normalize :: resolver.roots) : ReaderM View (Option Path)) view

/-- The stylesheet that belongs to a module name. -/
def stylesheetFile? (name : ModuleName) : Option Path :=
  (findFirst resolver.policy.matching
    ({ resolver.policy with extension := "css".toList }.relativePath name) resolver.roots :
      ReaderM View (Option Path)) view

/-- Whether the file can be read as text. -/
def CanRead (path : Path) : Prop :=
  ∃ text, view.readText path = .ok text

/-- If the segment pulls in a file as it is, that file can be found and read. -/
def CanAttach (source : Path) (segment : Segment) : Prop :=
  match segment.content with
  | .directive (.includeFile text) =>
    ∃ path, view.includedFile? resolver source text = some path ∧ view.CanRead path
  | .directive (.includeStylesheet name) =>
    ∃ path, view.stylesheetFile? resolver name = some path ∧ view.CanRead path
  | _ => True

/-- The file of the module can be located, read and scanned, and `source` is what comes out. -/
def Loads (name : ModuleName) (source : SourceFile) : Prop :=
  ∃ path text, view.moduleFile? resolver name = some path ∧ view.readText path = .ok text ∧
    SourceFile.scan path text = .ok source

variable {view resolver}

theorem Loads.unique {name : ModuleName} {first second : SourceFile}
    (loadsFirst : view.Loads resolver name first) (loadsSecond : view.Loads resolver name second) :
    first = second := by
  obtain ⟨path, text, located, read, scanned⟩ := loadsFirst
  obtain ⟨_, _, locatedToo, readToo, scannedToo⟩ := loadsSecond
  cases located.symm.trans locatedToo
  cases read.symm.trans readToo
  cases scanned.symm.trans scannedToo
  rfl

/-! ## Imports -/

variable (view resolver)

/-- The source file of one module has an import directive for the other. -/
def Imports (importer imported : ModuleName) : Prop :=
  ∃ source, view.Loads resolver importer source ∧ imported ∈ importedNames source

/-- The module is one of the roots, or a module that is reached imports it. -/
def Reaches (roots : List ModuleName) (name : ModuleName) : Prop :=
  ∃ root ∈ roots, Relation.ReflTransGen (view.Imports resolver) root name

/-- Modules that import each other in a circle: each one of `start` imports the next one, the last
one imports `last`, and `last` has the key of the first one. -/
structure ImportCycle (matching : NameMatching) (start : List ModuleName) (last : ModuleName) :
    Prop where
  imports : (start ++ [last]).IsChain (view.Imports resolver)
  distinct : (start.map (ModuleName.key matching)).Nodup
  closes : start.head?.map (ModuleName.key matching) = some (last.key matching)

/-- Every module that the entry reaches has a source file, and every attachment of the entry and of
these files can be found and read. -/
structure Supports (entry : SourceFile) : Prop where
  loads : ∀ name, view.Reaches resolver (importedNames entry) name →
    ∃ source, view.Loads resolver name source
  attaches : ∀ segment ∈ entry.segments, view.CanAttach resolver entry.path segment
  attachesReached : ∀ name source, view.Reaches resolver (importedNames entry) name →
    view.Loads resolver name source →
    ∀ segment ∈ source.segments, view.CanAttach resolver source.path segment

variable {view resolver}

theorem Reaches.root {roots : List ModuleName} {name : ModuleName} (member : name ∈ roots) :
    view.Reaches resolver roots name :=
  ⟨name, member, .refl⟩

theorem Reaches.step {roots : List ModuleName} {importer imported : ModuleName}
    (reached : view.Reaches resolver roots importer)
    (imports : view.Imports resolver importer imported) :
    view.Reaches resolver roots imported := by
  obtain ⟨root, member, path⟩ := reached
  exact ⟨root, member, path.tail imports⟩

/-- From the head of a cycle the imports lead to its last name. -/
theorem ImportCycle.transGen {matching : NameMatching} {start : List ModuleName}
    {last : ModuleName} (cycle : view.ImportCycle resolver matching start last) :
    ∃ first ∈ start, first.key matching = last.key matching ∧
      Relation.TransGen (view.Imports resolver) first last := by
  obtain ⟨imports, -, closes⟩ := cycle
  cases start with
  | nil => cases closes
  | cons first others =>
    refine ⟨first, List.mem_cons_self, Option.some.inj closes, ?_⟩
    -- The first step is split off, since a path of one step or more is wanted.
    cases others with
    | nil => exact .single (List.isChain_pair.mp imports)
    | cons second others =>
      rw [List.cons_append, List.cons_append, List.isChain_cons_cons] at imports
      refine .head' imports.1 (List.relationReflTransGen_of_exists_isChain_cons _ imports.2 ?_)
      simp

/-! ## Routes -/

/-- A way from a root to `name` through the modules of `chain`, without a cycle so far. -/
structure Route (view : View) (resolver : Resolver) (matching : NameMatching)
    (roots chain : List ModuleName) (name : ModuleName) : Prop where
  imports : (chain ++ [name]).IsChain (view.Imports resolver)
  starts : ∀ first ∈ (chain ++ [name]).head?, first ∈ roots
  distinct : (chain.map (ModuleName.key matching)).Nodup

namespace Route

variable {matching : NameMatching} {roots chain : List ModuleName} {name : ModuleName}

theorem root (member : name ∈ roots) : view.Route resolver matching roots [] name :=
  ⟨.singleton name, fun _ first => Option.some.inj first ▸ member, List.nodup_nil⟩

variable (route : view.Route resolver matching roots chain name)

include route

theorem reaches : ∀ passed ∈ chain ++ [name], view.Reaches resolver roots passed := by
  refine route.imports.induction _ _ (fun importer imported imports reached => reached.step imports)
    fun nonempty => .root (route.starts _ ?_)
  exact List.head?_eq_some_head nonempty

theorem reached : view.Reaches resolver roots name :=
  route.reaches name (by simp)

theorem distinct_append (fresh : ∀ passed ∈ chain, passed.key matching ≠ name.key matching) :
    ((chain ++ [name]).map (ModuleName.key matching)).Nodup := by
  rw [List.map_append, List.nodup_append]
  refine ⟨route.distinct, by simp, fun key passedKey other last => ?_⟩
  obtain ⟨passed, member, rfl⟩ := List.mem_map.mp passedKey
  rw [List.mem_singleton.mp last]
  exact fresh passed member

theorem extend (fresh : ∀ passed ∈ chain, passed.key matching ≠ name.key matching)
    {next : ModuleName} (imports : view.Imports resolver name next) :
    view.Route resolver matching roots (chain ++ [name]) next := by
  refine ⟨route.imports.append (.singleton next) ?_, ?_, route.distinct_append fresh⟩
  · simpa using imports
  · intro first isFirst
    rw [List.append_assoc, List.head?_append] at isFirst
    refine route.starts first ?_
    rw [List.head?_append]
    cases chain <;> simpa using isFirst

/-- Where the way comes back to a key on it, it closes a cycle. -/
theorem cycle {front start : List ModuleName} (split : chain = front ++ start)
    (closes : start.head?.map (ModuleName.key matching) = some (name.key matching)) :
    view.ImportCycle resolver matching start name := by
  refine ⟨route.imports.suffix ?_, route.distinct.sublist ?_, closes⟩
  · rw [split, List.append_assoc]
    exact List.suffix_append _ _
  · rw [split]
    exact (List.sublist_append_right _ _).map _

end Route

end View

/-! ## The length of a route -/

theorem Text.length_le_byteSize (text : Text) : text.length ≤ text.byteSize := by
  induction text with
  | nil => simp
  | cons c rest ih =>
    have := c.utf8Size_pos
    rw [List.length_cons, byteSize_cons]
    omega

theorem Text.utf8ByteSize_ofList (text : Text) :
    (String.ofList text).utf8ByteSize = text.byteSize := by
  induction text with
  | nil => rfl
  | cons c rest ih =>
    rw [String.ofList_cons, String.utf8ByteSize_append, String.utf8ByteSize_singleton, ih,
      byteSize_cons]

theorem Text.byteSize_of_ofBytes? {bytes : ByteArray} {text : Text}
    (decoded : Text.ofBytes? bytes = some text) : text.byteSize = bytes.size := by
  obtain ⟨string, found, rfl⟩ := Option.map_eq_some_iff.mp decoded
  rw [String.fromUTF8?] at found
  split at found
  · cases found
    rw [← utf8ByteSize_ofList, String.ofList_toList]
    rfl
  · cases found

/-- Every segment covers a character, so a file cannot import more names than it has characters. -/
theorem length_importedNames_le {path : Path} {text : Text} {source : SourceFile}
    (scanned : SourceFile.scan path text = .ok source) :
    (importedNames source).length ≤ text.byteSize := by
  obtain ⟨segments, found, rfl⟩ := exists_of_map_eq_ok scanned
  have cut := (cutsBehind_of_scanFrom found (iff_of_true rfl (.inl rfl)) rfl).1
  have imports : (importedNames ⟨path, text, segments⟩).length ≤ segments.length := by
    rw [importedNames, List.length_map]
    exact List.length_filterMap_le _ _
  -- The segments cover the text, and none of them is empty.
  have covered : segments.length ≤ (segments.flatMap Segment.raw).length := by
    have nonempty := cut.nonempty
    clear * - nonempty
    induction segments with
    | nil => simp
    | cons segment segments ih =>
      have := List.length_pos_iff.mpr (nonempty segment List.mem_cons_self)
      have := ih fun other member => nonempty other (List.mem_cons_of_mem _ member)
      rw [List.flatMap_cons, List.length_append, List.length_cons]
      omega
  rw [cut.covers] at covered
  exact (imports.trans covered).trans text.length_le_byteSize

theorem length_importedNames_le_text {path : Path} {text : Text} {source : SourceFile}
    (scanned : SourceFile.scan path text = .ok source) :
    (importedNames source).length ≤ source.text.byteSize := by
  obtain ⟨segments, -, rfl⟩ := exists_of_map_eq_ok scanned
  exact length_importedNames_le scanned

/-- The names that are bound to files. -/
def Resolver.boundNames (resolver : Resolver) : List ModuleName :=
  resolver.bindings.values.map Prod.fst

theorem Resolver.length_boundNames (resolver : Resolver) :
    resolver.boundNames.length = resolver.bindings.size := by
  rw [boundNames, List.length_map, values_eq_map_toList, List.length_map,
    Std.TreeMap.length_toList]

/-- The names that a content imports, if it can be read and scanned. -/
def namesIn (content : ByteArray) : List ModuleName :=
  match (Text.ofBytes? content).map (SourceFile.scan ⟨[]⟩) with
  | some (.ok source) => importedNames source
  | _ => []

theorem length_namesIn_le (content : ByteArray) : (namesIn content).length ≤ content.size := by
  rw [namesIn]
  split
  · next source found =>
    obtain ⟨text, decoded, scanned⟩ := Option.map_eq_some_iff.mp found
    rw [← Text.byteSize_of_ofBytes? decoded]
    exact length_importedNames_le scanned
  · exact Nat.zero_le _

namespace View

variable {view : View} {resolver : Resolver}

theorem Imports.mem_namesIn {importer imported : ModuleName}
    (imports : view.Imports resolver importer imported) :
    ∃ path content, view.read path = .ok content ∧ imported ∈ namesIn content := by
  obtain ⟨source, ⟨path, text, -, read, scanned⟩, member⟩ := imports
  obtain ⟨content, found, decoded⟩ := exists_of_readText read
  obtain ⟨segments, cut, rfl⟩ := exists_of_map_eq_ok scanned
  -- The path of a source file has no part in what its segments are.
  refine ⟨path, content, found, ?_⟩
  rw [namesIn, decoded, Option.map_some, SourceFile.scan, cut]
  exact member

/-- The first name of a route is a root, and every other one stands in the file of the name before
it. -/
theorem Route.subset {matching : NameMatching} {roots chain : List ModuleName} {name : ModuleName}
    (route : view.Route resolver matching roots chain name) {contents : List ByteArray}
    (readable : ∀ path content, view.read path = .ok content → content ∈ contents) :
    chain ++ [name] ⊆ roots ++ contents.flatMap namesIn := by
  refine route.imports.induction _ _ (fun importer imported imports _ => ?_) fun nonempty => ?_
  · obtain ⟨path, content, read, member⟩ := imports.mem_namesIn
    exact List.mem_append_right _
      (List.mem_flatMap.mpr ⟨content, readable path content read, member⟩)
  · exact List.mem_append_left _ (route.starts _ (List.head?_eq_some_head nonempty))

/-- All names on a route are different, and all but the first take up room in the files. -/
theorem Route.length_le {matching : NameMatching} {roots chain : List ModuleName}
    {name : ModuleName} (route : view.Route resolver matching roots chain name)
    (bounded : view.Bounded)
    (fresh : ∀ passed ∈ chain, passed.key matching ≠ name.key matching) :
    chain.length + 1 ≤ view.sizeBound + roots.length := by
  obtain ⟨contents, covered, readable⟩ := bounded
  have different : (chain ++ [name]).Nodup := (route.distinct_append fresh).of_map _
  have fits : (contents.flatMap namesIn).length ≤ (contents.map ByteArray.size).sum := by
    rw [List.length_flatMap]
    exact List.sum_le_sum fun content _ => length_namesIn_le content
  have := (different.subperm (route.subset readable)).length_le
  rw [List.length_append, List.length_append] at this
  simp only [List.length_singleton] at this
  omega

end View

/-! ## Checking files -/

namespace View

variable (view : View) (resolver : Resolver)

/-- The source file of a module, if its file can be located, read and scanned. -/
def loaded? (name : ModuleName) : Option SourceFile :=
  (view.moduleFile? resolver name).bind fun path =>
    (view.readText path).toOption.bind fun text => (SourceFile.scan path text).toOption

def canRead (path? : Option Path) : Bool :=
  path?.any fun path => (view.readText path).isOk

def canAttach (source : Path) (segment : Segment) : Bool :=
  match segment.content with
  | .directive (.includeFile text) => view.canRead (view.includedFile? resolver source text)
  | .directive (.includeStylesheet name) => view.canRead (view.stylesheetFile? resolver name)
  | _ => true

/-- Whether the modules have source files, import only each other, and can attach what they
include. -/
def closes (names : List ModuleName) : Bool :=
  names.all fun name => (view.loaded? resolver name).any fun source =>
    (importedNames source).all (fun imported => decide (imported ∈ names)) &&
      source.segments.all (view.canAttach resolver source.path)

variable {view resolver}

theorem loads_iff {name : ModuleName} {source : SourceFile} :
    view.Loads resolver name source ↔ view.loaded? resolver name = some source := by
  have toOption_eq {ε α : Type} {outcome : Except ε α} {value : α} :
      outcome.toOption = some value ↔ outcome = .ok value := by
    cases outcome <;> simp [Except.toOption]
  simp only [Loads, loaded?, Option.bind_eq_some_iff, toOption_eq]
  constructor
  · rintro ⟨path, text, located, read, scanned⟩
    exact ⟨path, located, text, read, scanned⟩
  · rintro ⟨path, located, text, read, scanned⟩
    exact ⟨path, text, located, read, scanned⟩

theorem imports_of_loaded? {importer imported : ModuleName}
    (imports : (view.loaded? resolver importer).any
      (fun source => decide (imported ∈ importedNames source)) = true) :
    view.Imports resolver importer imported := by
  obtain ⟨source, loaded, member⟩ := (Option.any_eq_true _ _).mp imports
  exact ⟨source, loads_iff.mpr loaded, of_decide_eq_true member⟩

theorem exists_of_canRead {path? : Option Path} (readable : view.canRead path? = true) :
    ∃ path, path? = some path ∧ view.CanRead path := by
  obtain ⟨path, rfl, reads⟩ := (Option.any_eq_true _ _).mp readable
  refine ⟨path, rfl, ?_⟩
  cases read : view.readText path with
  | ok text => exact ⟨text, read⟩
  | error error =>
    rw [read] at reads
    cases reads

theorem canAttach_of_eq_true {source : Path} {segment : Segment}
    (attaches : view.canAttach resolver source segment = true) :
    view.CanAttach resolver source segment := by
  rw [canAttach] at attaches
  rw [CanAttach]
  cases content : segment.content with
  | script _ => trivial
  | block _ _ => trivial
  | directive directive =>
    rw [content] at attaches
    cases directive with
    | importModule _ => trivial
    | exportNames _ => trivial
    | includeFile _ => exact exists_of_canRead attaches
    | includeStylesheet _ => exact exists_of_canRead attaches

theorem supports_of_closes {names : List ModuleName} {entry : SourceFile}
    (closes : view.closes resolver names = true) (known : importedNames entry ⊆ names)
    (attaches : entry.segments.all (view.canAttach resolver entry.path) = true) :
    view.Supports resolver entry := by
  have inOrder (name : ModuleName) (member : name ∈ names) : ∃ source,
      view.Loads resolver name source ∧ importedNames source ⊆ names ∧
        ∀ segment ∈ source.segments, view.CanAttach resolver source.path segment := by
    obtain ⟨source, loaded, holds⟩ := (Option.any_eq_true _ _).mp
      (List.all_eq_true.mp closes name member)
    rw [Bool.and_eq_true, List.all_eq_true, List.all_eq_true] at holds
    exact ⟨source, loads_iff.mpr loaded, fun imported there => of_decide_eq_true
      (holds.1 imported there), fun segment there => canAttach_of_eq_true (holds.2 segment there)⟩
  -- No step of a path leads out of the list.
  have listed (name : ModuleName) (reached : view.Reaches resolver (importedNames entry) name) :
      name ∈ names := by
    obtain ⟨root, member, path⟩ := reached
    induction path with
    | refl => exact known member
    | tail _ imports importerListed =>
      obtain ⟨source, loads, there⟩ := imports
      obtain ⟨other, loadsToo, inside, -⟩ := inOrder _ importerListed
      exact inside (loads.unique loadsToo ▸ there)
  refine ⟨fun name reached => ?_, fun segment member => ?_, fun name source reached loads => ?_⟩
  · obtain ⟨source, loads, -⟩ := inOrder name (listed name reached)
    exact ⟨source, loads⟩
  · exact canAttach_of_eq_true (List.all_eq_true.mp attaches segment member)
  · obtain ⟨other, loadsToo, -, attachesToo⟩ := inOrder name (listed name reached)
    rwa [loads.unique loadsToo]

end View

end PageCompiler
