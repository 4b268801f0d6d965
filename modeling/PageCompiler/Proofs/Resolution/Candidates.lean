import Mathlib.Data.List.Induction
import PageCompiler.Proofs.FileSystem.View
import PageCompiler.Proofs.Path.Normal
import PageCompiler.Resolution.Resolve

/-! # Where a file was looked for

The paths that a report lists are those at which the wanted file was looked for: one for each
directory that was searched, in the order of the search, and each path only once. All of them are
normal, so two of them that name the same place are equal. If the search found nothing, there is no
file at any of them.
-/

namespace PageCompiler

/-- `kept` has the paths of `all` once each, in the order in which they first occur. -/
structure ListsOnce (kept all : List Path) : Prop where
  mem_iff : ∀ path, path ∈ kept ↔ path ∈ all
  ordered : kept.Pairwise fun earlier later => all.idxOf earlier < all.idxOf later
  distinct : kept.Pairwise fun earlier later => earlier.same later = false

namespace ListsOnce

theorem nil : ListsOnce [] [] :=
  ⟨fun _ => .rfl, .nil, .nil⟩

variable {kept all : List Path} (lists : ListsOnce kept all) {path : Path}

include lists

theorem idxOf_append {other : Path} (member : other ∈ kept) :
    (all ++ [path]).idxOf other = all.idxOf other :=
  List.idxOf_append_of_mem ((lists.mem_iff other).mp member)

/-- A path that is there already is left out. -/
theorem skip (known : path ∈ all) : ListsOnce kept (all ++ [path]) := by
  refine ⟨fun other => ?_, ?_, lists.distinct⟩
  · rw [lists.mem_iff, List.mem_append, List.mem_singleton]
    constructor
    · exact .inl
    · rintro (old | rfl)
      · exact old
      · exact known
  · refine lists.ordered.imp_of_mem fun earlier later before => ?_
    rwa [lists.idxOf_append earlier, lists.idxOf_append later]

/-- A path for a new place comes last. -/
theorem concat (fresh : ∀ other ∈ kept, other.same path = false) (new : path ∉ all) :
    ListsOnce (kept ++ [path]) (all ++ [path]) := by
  refine ⟨fun other => ?_, ?_, ?_⟩
  · rw [List.mem_append, List.mem_append, lists.mem_iff]
  · rw [List.pairwise_append]
    refine ⟨?_, List.pairwise_singleton _ _, fun earlier member later last => ?_⟩
    · refine lists.ordered.imp_of_mem fun earlier later before => ?_
      rwa [lists.idxOf_append earlier, lists.idxOf_append later]
    · obtain rfl := List.mem_singleton.mp last
      rw [lists.idxOf_append member, List.idxOf_append_of_notMem new]
      exact Nat.lt_add_right _ (List.idxOf_lt_length_of_mem ((lists.mem_iff earlier).mp member))
  · rw [List.pairwise_append]
    refine ⟨lists.distinct, List.pairwise_singleton _ _, fun earlier member later last => ?_⟩
    obtain rfl := List.mem_singleton.mp last
    exact fresh earlier member

end ListsOnce

/-! ## Candidates -/

/-- The paths at which the file is looked for that a directive of `importer` asks for, one for each
directory: an include is looked for beside the including file before the roots. -/
def Resolver.candidates (resolver : Resolver) (importer : Path) : Directive → List Path
  | .importModule name => resolver.roots.map (candidate (resolver.policy.relativePath name))
  | .includeStylesheet name =>
    let policy := { resolver.policy with extension := "css".toList }
    resolver.roots.map (candidate (policy.relativePath name))
  | .includeFile text =>
    if Path.isAbsolute ⟨text⟩ then [Path.normalize ⟨text⟩]
    else (importer.directory.normalize :: resolver.roots).map (candidate ⟨text⟩)
  | .exportNames _ => []

theorem dropRepeatedPaths_concat (paths : List Path) (path : Path) :
    dropRepeatedPaths (paths ++ [path]) =
      if (dropRepeatedPaths paths).any path.same then dropRepeatedPaths paths
      else dropRepeatedPaths paths ++ [path] := by
  rw [dropRepeatedPaths, List.foldl_append]
  rfl

theorem Path.same_comm (first second : Path) : first.same second = second.same first :=
  BEq.comm

/-- Normal paths are listed once each. -/
theorem listsOnce_dropRepeatedPaths {paths : List Path}
    (normal : ∀ path ∈ paths, ∃ written : Path, written.normalize = path) :
    ListsOnce (dropRepeatedPaths paths) paths := by
  induction paths using List.reverseRecOn with
  | nil => exact .nil
  | append_singleton paths path inductionHypothesis =>
    have lists := inductionHypothesis fun other member =>
      normal other (List.mem_append_left _ member)
    rw [dropRepeatedPaths_concat]
    split
    · next repeated =>
      -- The earlier path for the same place is this path, since both are normal.
      obtain ⟨other, member, same⟩ := List.any_eq_true.mp repeated
      have known := (lists.mem_iff other).mp member
      obtain ⟨written, rfl⟩ := normal path (by simp)
      obtain ⟨writtenToo, rfl⟩ := normal other (List.mem_append_left _ known)
      rw [← Path.normalize_eq_of_same same] at known
      exact lists.skip known
    · next fresh =>
      rw [Bool.not_eq_true, List.any_eq_false] at fresh
      have apart : ∀ other ∈ dropRepeatedPaths paths, other.same path = false := by
        intro other member
        rw [Path.same_comm]
        exact Bool.eq_false_iff.mpr (fresh other member)
      refine lists.concat apart fun known => ?_
      have same : path.same path = true := BEq.rfl
      exact fresh path ((lists.mem_iff path).mpr known) same

theorem exists_normalize_of_mem_candidates {resolver : Resolver} {importer : Path}
    {directive : Directive} :
    ∀ path ∈ resolver.candidates importer directive,
      ∃ written : Path, written.normalize = path := by
  have each (relative : Path) (directories : List Path) :
      ∀ path ∈ directories.map (candidate relative),
        ∃ written : Path, written.normalize = path := by
    intro path member
    obtain ⟨directory, -, rfl⟩ := List.mem_map.mp member
    exact ⟨_, rfl⟩
  cases directive with
  | importModule name => exact each _ _
  | includeStylesheet name => exact each _ _
  | exportNames _ => exact fun path member => absurd member List.not_mem_nil
  | includeFile text =>
    rw [Resolver.candidates]
    split
    · exact fun path member => ⟨_, (List.mem_singleton.mp member).symm⟩
    · exact each _ _

/-! ## Searches without a result -/

variable {view : View} {matching : NameMatching} {relative : Path}

theorem isFile_eq_false_of_findIn {directory : Path}
    (missed : (findIn matching relative directory : ReaderM View (Option Path)) view = none) :
    view.isFile (candidate relative directory) = false := by
  rw [Bool.eq_false_iff]
  intro isFile
  have found : (findIn matching relative directory : ReaderM View (Option Path)) view =
      some (candidate relative directory) := by
    rw [findIn.eq_def]
    change (if view.isFile (candidate relative directory) then _ else _ :
      ReaderM View (Option Path)) view = _
    rw [if_pos isFile]
    rfl
  cases missed.symm.trans found

/-- What is not found is at none of the candidates. -/
theorem isFile_eq_false_of_findFirst {directories : List Path}
    (missed : (findFirst matching relative directories : ReaderM View (Option Path)) view = none) :
    ∀ path ∈ directories.map (candidate relative), view.isFile path = false := by
  induction directories with
  | nil => exact fun path member => absurd member List.not_mem_nil
  | cons directory others inductionHypothesis =>
    rw [findFirst] at missed
    change (match (findIn matching relative directory : ReaderM View (Option Path)) view with
      | some path => _
      | none => findFirst matching relative others : ReaderM View (Option Path)) view = none
      at missed
    cases first : (findIn matching relative directory : ReaderM View (Option Path)) view with
    | some path =>
      rw [first] at missed
      cases missed
    | none =>
      rw [first] at missed
      rw [List.map_cons, List.forall_mem_cons]
      exact ⟨isFile_eq_false_of_findIn first, inductionHypothesis missed⟩

end PageCompiler
