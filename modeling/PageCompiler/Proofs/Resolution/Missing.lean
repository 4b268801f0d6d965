import PageCompiler.Proofs.Build.RegisteredImports
import PageCompiler.Proofs.Resolution.Candidates
import PageCompiler.Proofs.Resolution.Following
import PageCompiler.Proofs.Resolution.Session
import PageCompiler.Proofs.Source.Position
import PageCompiler.Proofs.Source.Scan

/-! # Files that are not found

The report of a file that is not found says which directive asks for it, where that directive
stands, and where the file was looked for. It is made deep inside a resolution, but only while a
directive of a source file is resolved: of the file that the resolution starts from, or of a
module's file that was read and scanned on the way. A bound module may have no directive that asks
for it, but it is never looked for, because its binding is stored under the key of its own name.
-/

namespace PageCompiler

open FileSystem (view)

/-! ## Directives on their lines -/

/-- What a directive looks for: the full name of a module or the path of a file. -/
def Directive.wanted? : Directive → Option Text
  | .importModule name => some name.qualified
  | .includeStylesheet name => some name.qualified
  | .includeFile text => some text
  | .exportNames _ => none

/-- A segment that starts on the line is the directive. -/
def SourceFile.HasDirective (source : SourceFile) (line : Nat) (directive : Directive) : Prop :=
  ∃ segment ∈ source.segments, segment.content = .directive directive ∧
    source.lineOf segment = line

/-- The line is written as the directive, lines being counted from one. -/
def Directive.StandsOn (directive : Directive) (text : Text) (line : Nat) : Prop :=
  0 < line ∧ ∃ raw keyword rest, (Text.lines text)[line - 1]? = some raw ∧
    Directive.Spells raw keyword rest ∧ Directive.Asks keyword rest directive

theorem SourceFile.HasDirective.standsOn {source : SourceFile} {text : Text}
    (scanned : SourceFile.scan source.path text = .ok source) {line : Nat} {directive : Directive}
    (has : source.HasDirective line directive) : directive.StandsOn text line := by
  obtain ⟨-, rfl, cut⟩ := segmentation_of_scan source.path text scanned
  obtain ⟨segment, member, content, rfl⟩ := has
  obtain ⟨earlier, later, split⟩ := List.append_of_mem member
  have nonempty := cut.nonempty segment member
  have starts := cut.starts earlier segment later split
  have fits := cut.fits earlier segment later split
  have whole : source.text =
      earlier.flatMap Segment.raw ++ (segment.raw ++ later.flatMap Segment.raw) := by
    rw [← cut.covers, split, List.flatMap_append, List.flatMap_cons]
  rw [List.nil_append] at starts fits
  rw [content] at fits
  generalize earlier.flatMap Segment.raw = front at starts fits whole
  cases fits with
  | directive lineStart first spells asks =>
    -- The passage is a line of its own, so the lines in front of it can be counted apart.
    obtain ⟨apart, length⟩ := Text.lines_append lineStart
      (segment.raw ++ later.flatMap Segment.raw)
    have line_eq : source.lineOf segment = front.count '\n' + 1 := by
      rw [SourceFile.lineOf, whole, starts, Position.locate_append]
    refine ⟨by omega, _, _, _, ?_, spells, asks⟩
    rw [line_eq, Nat.add_sub_cancel, whole, apart, ← length, List.getElem?_append_right le_rfl,
      Nat.sub_self, ← List.head?_eq_getElem?]
    exact Text.head?_lines (by simp [nonempty]) first

/-! ## Reports -/

/-- A report of a file that a directive of `importer` asks for holds: the file is called `wanted`,
and it was looked for at the listed paths without success. -/
structure View.Misses (view : View) (resolver : Resolver) (importer : Path) (directive : Directive)
    (wanted : Text) (searched : List Path) : Prop where
  wants : directive.wanted? = some wanted
  absent : ∀ path ∈ searched, view.isFile path = false
  lists : ListsOnce searched (resolver.candidates importer directive)

/-- A source file that a resolution can come to: one that it starts from, or one in the files. -/
def ResolutionStart.Offers (run : ResolutionStart) (source : SourceFile) : Prop :=
  source ∈ run.entries ∨ ∃ text, run.view.readText source.path = .ok text ∧
    SourceFile.scan source.path text = .ok source

/-- An error is no report of a file that is not found, or the report holds. -/
inductive ResolutionStart.Reports (run : ResolutionStart) : BuildError → Prop where
  | missing {source : SourceFile} {directive : Directive} {line : Nat} {wanted : Text}
      {searched : List Path} (offers : run.Offers source) (has : source.HasDirective line directive)
      (misses : run.view.Misses run.resolver source.path directive wanted searched) :
      Reports run (.moduleNotFound wanted source.path line searched)
  | other {error : BuildError}
      (differs : ∀ wanted importer line searched,
        error ≠ .moduleNotFound wanted importer line searched) : Reports run error

/-- A name that is resolved is bound to a file, or a directive asks for it. -/
inductive ResolutionStart.Asks (run : ResolutionStart) (name : ModuleName) : Origin → Prop where
  | bound {origin : Origin} {binding : ModuleName × Path}
      (found : run.resolver.bindings[name.key run.resolver.policy.matching]? = some binding) :
      Asks run name origin
  | directive {source : SourceFile} {line : Nat} (offers : run.Offers source)
      (has : source.HasDirective line (.importModule name)) : Asks run name ⟨source.path, line⟩

section

variable {run : ResolutionStart}

/-- A file that is at none of the places where a directive looks for it is reported as such. -/
theorem ResolutionStart.Offers.reports {source : SourceFile} (offers : run.Offers source)
    {line : Nat} {directive : Directive} (has : source.HasDirective line directive) {wanted : Text}
    (wants : directive.wanted? = some wanted)
    (absent : ∀ path ∈ run.resolver.candidates source.path directive,
      run.view.isFile path = false) :
    run.Reports (.moduleNotFound wanted source.path line
      (dropRepeatedPaths (run.resolver.candidates source.path directive))) := by
  have lists : ListsOnce _ (run.resolver.candidates source.path directive) :=
    listsOnce_dropRepeatedPaths exists_normalize_of_mem_candidates
  exact .missing offers has
    ⟨wants, fun path member => absent path ((lists.mem_iff path).mp member), lists⟩

theorem ResolutionStart.Asks.reports {name : ModuleName} {origin : Origin}
    (asks : run.Asks name origin) (missed : run.view.moduleFile? run.resolver name = none) :
    run.Reports (.moduleNotFound name.qualified origin.path origin.line
      (dropRepeatedPaths (run.resolver.candidates origin.path (.importModule name)))) := by
  rw [View.moduleFile?] at missed
  cases asks with
  | bound found =>
    rw [found] at missed
    cases missed
  | directive offers has =>
    split at missed
    · cases missed
    · exact offers.reports has rfl (isFile_eq_false_of_findFirst missed)

theorem isFile_eq_false_of_includedFile? {view : View} {resolver : Resolver} {importer : Path}
    {text : Text} (missed : view.includedFile? resolver importer text = none) :
    ∀ path ∈ resolver.candidates importer (.includeFile text), view.isFile path = false := by
  rw [View.includedFile?] at missed
  rw [Resolver.candidates]
  split
  · next absolute =>
    rw [if_pos absolute] at missed
    intro path member
    rw [List.mem_singleton.mp member, Bool.eq_false_iff]
    intro isFile
    rw [if_pos isFile] at missed
    cases missed
  · next relative =>
    rw [if_neg relative] at missed
    exact isFile_eq_false_of_findFirst missed

theorem ResolutionStart.Reports.ofFileError (path : Path) (error : FileError) :
    run.Reports (.ofFileError path error) := by
  refine .other fun _ _ _ _ => ?_
  cases error <;> exact BuildError.noConfusion

theorem ResolutionStart.Reports.of_register {registry : Registry} {compiled : CompiledModule}
    {error : BuildError} (refused : registry.register compiled = .error error) :
    run.Reports error := by
  obtain ⟨_, _, _, rfl⟩ := Registry.register_error refused
  exact .other fun _ _ _ _ => BuildError.noConfusion

end

/-! ## Operations -/

section

variable {σ : Type} [FileSystem (StateM σ)] [LawfulFileSystem σ] {run : ResolutionStart}

/-- A segment is resolved with the place that it has in its source file. -/
theorem resolveSegment_reports {importing : Origin → ModuleName → ResolveM (StateM σ) Unit}
    (imports : ∀ origin name, run.Asks name origin →
      Follows run (importing origin name) (fun _ => True) run.Reports)
    {source : SourceFile} (offers : run.Offers source) {segment : Segment}
    (member : segment ∈ source.segments) :
    Follows run (resolveSegment run.resolver importing source segment) (fun _ => True)
      run.Reports := by
  have has {directive : Directive} (content : segment.content = .directive directive) :
      source.HasDirective (source.lineOf segment) directive := ⟨segment, member, content, rfl⟩
  have attaches (path : Path) (kind : Section) :
      Follows run (attachFile run.resolver ⟨source.path, source.lineOf segment⟩ path kind :
        ResolveM (StateM σ) Unit) (fun _ => True) run.Reports :=
    attachFile_follows_of _ kind fun error _ => .ofFileError path error
  rw [resolveSegment]
  cases content : segment.content with
  | script _ => exact .pure trivial
  | block _ _ => exact .pure trivial
  | directive directive =>
    cases directive with
    | importModule name => exact imports _ name (.directive offers (has content))
    | exportNames _ => exact .pure trivial
    | includeFile text =>
      refine (locateInclude_follows_of fun missed => ?_).bind fun path _ => attaches path _
      exact offers.reports (has content) rfl (isFile_eq_false_of_includedFile? missed)
    | includeStylesheet name =>
      refine (locateIn_follows_of fun missed => ?_).bind fun path _ => attaches path _
      exact offers.reports (has content) rfl (isFile_eq_false_of_findFirst missed)

theorem resolveModule_reports (depth : Nat) (chain : List ModuleName) (origin : Origin)
    (name : ModuleName) (asks : run.Asks name origin) :
    Follows run (resolveModule run.resolver depth chain origin name : ResolveM (StateM σ) Unit)
      (fun _ => True) run.Reports := by
  have circular (names : List Text) : run.Reports (.circularImport names) :=
    .other fun _ _ _ _ => BuildError.noConfusion
  -- The chain of imports does not matter here, only what asks for the module at its end.
  induction depth generalizing chain origin name with
  | zero =>
    rw [resolveModule]
    refine unlessMet_follows_of (fun start _ => circular _) fun _ => ?_
    refine (locateModule_follows_of asks.reports).bind fun path _ => ?_
    exact .throw (.other fun _ _ _ _ => BuildError.noConfusion)
  | succ depth inductionHypothesis =>
    rw [resolveModule]
    refine unlessMet_follows_of (fun start _ => circular _) fun _ => ?_
    refine (locateModule_follows_of asks.reports).bind fun path located => ?_
    refine (readSource_follows_of (fun error _ => .ofFileError path error) fun _ _ _ _ =>
      .other fun _ _ _ _ => BuildError.noConfusion).bind fun source found => ?_
    obtain ⟨text, read, scanned⟩ := found
    -- What the module's file asks for is asked for by a source file in the files.
    obtain ⟨rfl, -, -⟩ := segmentation_of_scan path text scanned
    refine Follows.bind (.modify fun _ _ kept => kept) fun _ _ => ?_
    refine Follows.bind (.forM fun segment member => ?_) fun _ _ => ?_
    · exact resolveSegment_reports (inductionHypothesis (chain ++ [name]))
        (.inr ⟨text, read, scanned⟩) member
    · exact registerSource_follows_of ⟨_, text, located, read, scanned⟩
        (fun _ _ => .other fun _ _ _ _ => BuildError.noConfusion)
        fun _ _ _ _ _ _ refused => .of_register refused

theorem resolveImports_reports {entry : SourceFile} (visited : entry ∈ run.entries) :
    Follows run (resolveImports run.resolver entry : ResolveM (StateM σ) Unit) (fun _ => True)
      run.Reports := by
  refine (nestingBound_follows entry.text).bind fun depth _ => ?_
  exact .forM fun segment member =>
    resolveSegment_reports (resolveModule_reports depth []) (.inl visited) member

end

/-! ## Bindings -/

/-- Every binding is stored under the key of its name. -/
def Bindings.IsKeyed (matching : NameMatching) (bindings : Bindings) : Prop :=
  ∀ (key : Text) (binding : ModuleName × Path), bindings[key]? = some binding →
    binding.1.key matching = key

theorem loadBindings_reports {σ : Type} [FileSystem (StateM σ)] [LawfulFileSystem σ]
    {run : ResolutionStart}
    (keyed : Bindings.IsKeyed run.resolver.policy.matching run.resolver.bindings) :
    Follows run (loadBindings run.resolver : ResolveM (StateM σ) Unit) (fun _ => True)
      run.Reports := by
  refine (nestingBound_follows []).bind fun depth _ => ?_
  refine .forM fun binding member => ?_
  obtain ⟨key, found⟩ := exists_getElem?_of_mem_values member
  -- The module is found under its own name, so the line of its origin is never reported.
  have bound : run.resolver.bindings[binding.1.key run.resolver.policy.matching]? =
      some binding := by
    rw [keyed key binding found, found]
  exact resolveModule_reports depth [] _ _ (.bound bound)

theorem isKeyed_empty (matching : NameMatching) : Bindings.IsKeyed matching ∅ := by
  intro key binding found
  rw [Std.TreeMap.getElem?_emptyc] at found
  cases found

theorem isKeyed_bind {matching : NameMatching} {bindings after : Bindings} {name : ModuleName}
    {path : Path} (keyed : Bindings.IsKeyed matching bindings)
    (bound : bind matching bindings name path = .ok after) : Bindings.IsKeyed matching after := by
  rw [bind] at bound
  split at bound
  · cases bound
    intro key binding found
    rw [Std.TreeMap.getElem?_insert] at found
    split at found
    · next same =>
      cases found
      exact Std.LawfulEqOrd.compare_eq_iff_eq.mp same
    · exact keyed key binding found
  · split at bound
    · cases bound
      exact keyed
    · cases bound

/-! ## Sessions -/

namespace Session

variable {σ : Type} {session : Session σ} {resolver : Resolver}

/-- The settings are those of `resolver` but for the bindings, which are keyed. -/
structure Binds (session : Session σ) (resolver : Resolver) : Prop where
  settings : session.resolver = { resolver with bindings := session.resolver.bindings }
  keyed : Bindings.IsKeyed resolver.policy.matching session.resolver.bindings

theorem Binds.candidates_eq (binds : session.Binds resolver) :
    session.resolver.candidates = resolver.candidates := by
  rw [binds.settings]
  rfl

variable [FileSystem (StateM σ)]

theorem Binds.call (binds : session.Binds resolver) (call : ResolverCall σ) :
    (session.call call).2.Binds resolver := by
  cases call with
  | bind name path =>
    rw [Session.call, Session.bind]
    cases bound : PageCompiler.bind session.resolver.policy.matching session.resolver.bindings name
      path with
    | error error => exact binds
    | ok bindings =>
      refine ⟨?_, ?_⟩
      · dsimp only
        rw [binds.settings]
      · rw [binds.settings] at bound
        exact isKeyed_bind binds.keyed bound
  | loadBindings => exact ⟨binds.settings, binds.keyed⟩
  | resolveImports source => exact ⟨binds.settings, binds.keyed⟩
  | changeFiles files => exact ⟨binds.settings, binds.keyed⟩

theorem Binds.run (binds : session.Binds resolver) (calls : List (ResolverCall σ)) :
    (session.run calls).Binds resolver := by
  induction calls generalizing session with
  | nil => exact binds
  | cons call calls inductionHypothesis => exact inductionHypothesis (binds.call call)

theorem perform_reports {step : ResolveM (StateM σ) Unit} {run : ResolutionStart}
    (follows : Follows run step (fun _ => True) run.Reports)
    (kept : run.Keeps session.resolution.registry session.files) {error : BuildError}
    (failed : (session.perform step).1 = .error error) : run.Reports error :=
  (follows session.resolution session.files kept).failure error failed

variable [LawfulFileSystem σ]

/-- Only a call that resolves something reports a file that is not found. -/
theorem call_reports (binds : session.Binds resolver) {call : ResolverCall σ} {wanted : Text}
    {importer : Path} {line : Nat} {searched : List Path}
    (failed : (session.call call).1 = .error (.moduleNotFound wanted importer line searched)) :
    ∃ run : ResolutionStart, run.view = view session.files ∧ run.resolver = session.resolver ∧
      (∀ entry ∈ run.entries, call = .resolveImports entry) ∧
      run.Reports (.moduleNotFound wanted importer line searched) := by
  have policy : session.resolver.policy = resolver.policy := by rw [binds.settings]
  cases call with
  | bind name path =>
    rw [Session.call, Session.bind] at failed
    cases bound : PageCompiler.bind session.resolver.policy.matching session.resolver.bindings name
      path with
    | ok bindings =>
      rw [bound] at failed
      cases failed
    | error error =>
      obtain ⟨existing, rfl⟩ := bind_error bound
      rw [bound] at failed
      cases failed
  | loadBindings =>
    let run := ResolutionStart.ofBindings (view session.files) session.resolver
      session.resolution.registry.matching False
    have follows : Follows run (loadBindings session.resolver : ResolveM (StateM σ) Unit)
        (fun _ => True) run.Reports :=
      loadBindings_reports (policy ▸ binds.keyed)
    exact ⟨run, rfl, rfl, fun _ member => absurd member List.not_mem_nil,
      perform_reports follows ⟨rfl, rfl, False.elim⟩ failed⟩
  | resolveImports source =>
    let run := ResolutionStart.ofImports (view session.files) session.resolver
      session.resolution.registry.matching source False
    have follows : Follows run (resolveImports session.resolver source : ResolveM (StateM σ) Unit)
        (fun _ => True) run.Reports :=
      resolveImports_reports List.mem_cons_self
    refine ⟨run, rfl, rfl, fun entry member => ?_,
      perform_reports follows ⟨rfl, rfl, False.elim⟩ failed⟩
    rw [List.mem_singleton.mp member]
  | changeFiles files => cases failed

/-- A report of a file that is not found holds, whatever was bound and resolved before. The importer
is the source file that is resolved or a file that can be read. The line, counted from one, is
written as a directive that asks for the file. The paths are all those at which the file could lie,
once each and in the order of the search, and there is no file at any of them. -/
theorem call_moduleNotFound_holds (roots : List Path) (policy : NamePolicy)
    (exclusions : List Text) (matching : NameMatching) (files : σ)
    (calls : List (ResolverCall σ)) {call : ResolverCall σ}
    (scans : ∀ source, call = .resolveImports source →
      SourceFile.scan source.path source.text = .ok source)
    {wanted : Text} {importer : Path} {line : Nat} {searched : List Path} :
    let session := (start (.make roots policy exclusions) matching files).run calls
    (session.call call).1 = .error (.moduleNotFound wanted importer line searched) →
      ∃ source directive, SourceFile.scan importer source.text = .ok source ∧
        (call = .resolveImports source ∨
          (view session.files).readText importer = .ok source.text) ∧
        source.HasDirective line directive ∧ directive.StandsOn source.text line ∧
        (view session.files).Misses (.make roots policy exclusions) importer directive wanted
          searched := by
  intro session failed
  have binds : session.Binds (.make roots policy exclusions) :=
    Binds.run ⟨rfl, isKeyed_empty _⟩ calls
  obtain ⟨run, sees, settings, starts, reports⟩ := call_reports binds failed
  cases reports with
  | other differs => exact absurd rfl (differs wanted importer line searched)
  | @missing source directive _ _ _ offers has misses =>
    have origin : SourceFile.scan source.path source.text = .ok source ∧
        (call = .resolveImports source ∨
          (view session.files).readText source.path = .ok source.text) := by
      rcases offers with entry | ⟨text, read, scanned⟩
      · exact ⟨scans source (starts source entry), .inl (starts source entry)⟩
      · obtain ⟨-, rfl, -⟩ := segmentation_of_scan source.path text scanned
        exact ⟨scanned, .inr (sees ▸ read)⟩
    rw [sees, settings] at misses
    exact ⟨source, directive, origin.1, origin.2, has, has.standsOn origin.1, misses.wants,
      misses.absent, binds.candidates_eq ▸ misses.lists⟩

/-- A module that is bound to a file outside the roots and requires a script that nobody has. -/
def requiringFiles : Store :=
  .ofFiles [(.ofString "/vendor/panel.js", "var Panel = 1;\n//= require base\n".toUTF8)] []

def requiringRoots : List Path :=
  [.ofString "/src", .ofString "/lib", .ofString "/src/./"]

def requiringPolicy : NamePolicy :=
  .make .exact .nested "js".toList

def requiringCalls : List (ResolverCall Store) :=
  [.bind ⟨["vendor".toList], "Panel".toList, nofun, by decide⟩ (.ofString "/vendor/panel.js")]

def requiringSession : Session Store :=
  (start (.make requiringRoots requiringPolicy []) .exact requiringFiles).run requiringCalls

def requiringCall : ResolverCall Store :=
  .resolveImports (scanned "/src/main.js" ":import vendor.Panel\n")

/-- The first place is beside the script that requires the file, and no root is searched twice. -/
def requiringSearch : List Path :=
  [.ofString "/vendor/base.js", .ofString "/src/base.js", .ofString "/lib/base.js"]

theorem call_moduleNotFound_holds_boundPanel :
    (requiringSession.call requiringCall).1 = .error
        (.moduleNotFound "base.js".toList (.ofString "/vendor/panel.js") 2 requiringSearch) ∧
      ∃ (source : SourceFile) (directive : Directive),
        (requiringCall = .resolveImports source ∨
          (view requiringSession.files).readText (.ofString "/vendor/panel.js") =
            .ok source.text) ∧
        source.HasDirective 2 directive ∧ directive.StandsOn source.text 2 ∧
        (view requiringSession.files).Misses (.make requiringRoots requiringPolicy [])
          (.ofString "/vendor/panel.js") directive "base.js".toList requiringSearch := by
  have failed : (requiringSession.call requiringCall).1 = .error
      (.moduleNotFound "base.js".toList (.ofString "/vendor/panel.js") 2 requiringSearch) := by
    decide +kernel
  have scans : ∀ source, requiringCall = .resolveImports source →
      SourceFile.scan source.path source.text = .ok source := by
    intro source same
    have found : SourceFile.scan (.ofString "/src/main.js") ":import vendor.Panel\n".toList =
        .ok (scanned "/src/main.js" ":import vendor.Panel\n") :=
      scan_eq_scanned (by decide +kernel)
    obtain ⟨path, text, -⟩ := segmentation_of_scan _ _ found
    obtain rfl : scanned "/src/main.js" ":import vendor.Panel\n" = source := by
      simpa [requiringCall] using same
    rw [path, text, found]
  obtain ⟨source, directive, -, origin, has, stands, misses⟩ :=
    call_moduleNotFound_holds requiringRoots requiringPolicy [] .exact requiringFiles
      requiringCalls scans failed
  exact ⟨failed, source, directive, origin, has, stands, misses⟩

end Session

end PageCompiler
