import PageCompiler.Proofs.Name.Grammar
import PageCompiler.Proofs.Resolution.ImportGraph
import PageCompiler.Proofs.Resolution.Modules

/-! # Modules made from files

A registered module is made from the source file that its name stands for, and from the modules that
this file imports, which are made in the same way. A registry in which every module is made like
that is faithful to the files. Where names are compared as they are written, nothing else has a part
in what a module is: two modules of one name are equal, whichever registries they were made in.
-/

namespace PageCompiler

/-! ## Compiling -/

theorem exists_of_mapM_eq_ok {α β ε : Type} {function : α → Except ε β} {list : List α}
    {results : List β} (mapped : list.mapM function = .ok results) :
    ∀ element ∈ list, ∃ result, function element = .ok result := by
  induction list generalizing results with
  | nil => exact fun element member => absurd member List.not_mem_nil
  | cons first list inductionHypothesis =>
    rw [List.mapM_cons] at mapped
    cases outcome : function first with
    | error error =>
      rw [outcome] at mapped
      cases mapped
    | ok result =>
      cases others : list.mapM function with
      | error error =>
        rw [outcome, others] at mapped
        cases mapped
      | ok more =>
        intro element member
        rcases List.mem_cons.mp member with rfl | member
        · exact ⟨result, outcome⟩
        · exact inductionHypothesis others element member

theorem exists_of_mapM_eq_error {α β ε : Type} {function : α → Except ε β} {list : List α}
    {error : ε} (failed : list.mapM function = .error error) :
    ∃ element ∈ list, function element = .error error := by
  induction list with
  | nil => cases failed
  | cons first list inductionHypothesis =>
    rw [List.mapM_cons] at failed
    cases outcome : function first with
    | error cause =>
      rw [outcome] at failed
      cases failed
      exact ⟨first, List.mem_cons_self, outcome⟩
    | ok result =>
      cases others : list.mapM function with
      | error cause =>
        rw [outcome, others] at failed
        cases failed
        obtain ⟨element, member, found⟩ := inductionHypothesis others
        exact ⟨element, List.mem_cons_of_mem _ member, found⟩
      | ok more =>
        rw [outcome, others] at failed
        cases failed

theorem segmentScript_error {registry : Registry} {path : Path} {segment : Segment}
    {error : BuildError} (failed : segmentScript registry path segment = .error error) :
    ∃ imported importer, error = .unresolvedImport imported importer := by
  rw [segmentScript] at failed
  split at failed
  case h_5 =>
    split at failed
    · cases failed
    · cases failed
      exact ⟨_, _, rfl⟩
  all_goals cases failed

/-- A script can be made of a source file only if all its imports are registered. -/
theorem holds_of_sourceScript {registry : Registry} {source : SourceFile} {script : Text}
    (made : sourceScript registry source = .ok script) : registry.Holds (importedNames source) := by
  obtain ⟨scripts, mapped, -⟩ := exists_of_map_eq_ok made
  intro name member
  rw [importedNames_eq_flatMap] at member
  obtain ⟨segment, member, imported⟩ := List.mem_flatMap.mp member
  obtain ⟨script, found⟩ := exists_of_mapM_eq_ok mapped segment member
  rw [Segment.importedNames] at imported
  split at imported
  · next content =>
    rw [List.mem_singleton.mp imported]
    rw [segmentScript, content] at found
    dsimp only at found
    split at found
    · next compiled stored => exact Registry.contains_iff.mpr ⟨compiled, stored⟩
    · cases found
  · exact absurd imported List.not_mem_nil

theorem segmentScript_congr {first second : Registry} {segment : Segment}
    (agree : ∀ name ∈ segment.importedNames, first.lookup? name = second.lookup? name)
    (path : Path) : segmentScript first path segment = segmentScript second path segment := by
  rw [segmentScript, segmentScript]
  rw [Segment.importedNames] at agree
  cases content : segment.content with
  | script _ => rfl
  | block kind _ => cases kind <;> rfl
  | directive directive =>
    cases directive with
    | importModule name =>
      rw [content] at agree
      dsimp only
      rw [agree name List.mem_cons_self]
    | _ => rfl

/-- The script depends on the registry through the modules that the file imports. -/
theorem sourceScript_congr {first second : Registry} {source : SourceFile}
    (agree : ∀ name ∈ importedNames source, first.lookup? name = second.lookup? name) :
    sourceScript first source = sourceScript second source := by
  rw [importedNames_eq_flatMap] at agree
  rw [sourceScript, sourceScript]
  generalize source.segments = segments at agree
  refine congrArg (Except.map List.flatten) ?_
  induction segments with
  | nil => rfl
  | cons segment segments inductionHypothesis =>
    rw [List.flatMap_cons] at agree
    rw [List.mapM_cons, List.mapM_cons,
      segmentScript_congr (fun name member => agree name (List.mem_append_left _ member)),
      inductionHypothesis fun name member => agree name (List.mem_append_right _ member)]

theorem exists_of_compileModule {registry : Registry} {name : ModuleName} {source : SourceFile}
    {compiled : CompiledModule} (compiles : compileModule registry name source = .ok compiled) :
    ∃ body, sourceScript registry source = .ok body ∧ compiled = {
      name := name
      path := source.path
      exports := moduleExports registry.matching name source
      dependencies := dependenciesOf source
      markup := source.blocks .markup
      stylesheet := source.blocks .stylesheet
      script := moduleDefinition name (moduleExports registry.matching name source) body } := by
  rw [compileModule] at compiles
  cases made : sourceScript registry source with
  | error error =>
    rw [made] at compiles
    cases compiles
  | ok body =>
    rw [made] at compiles
    cases compiles
    exact ⟨body, rfl, rfl⟩

theorem compileModule_error {registry : Registry} {name : ModuleName} {source : SourceFile}
    {error : BuildError} (failed : compileModule registry name source = .error error) :
    ∃ imported importer, error = .unresolvedImport imported importer := by
  rw [compileModule, sourceScript] at failed
  cases made : source.segments.mapM (segmentScript registry source.path) with
  | error cause =>
    rw [made] at failed
    cases failed
    obtain ⟨segment, -, refused⟩ := exists_of_mapM_eq_error made
    exact segmentScript_error refused
  | ok scripts =>
    rw [made] at failed
    cases failed

/-! ## Made modules -/

section

variable (view : View) (resolver : Resolver)

/-- The module is compiled from the file that its name stands for, in a sound registry of modules
that are made in the same way. -/
inductive View.Made (matching : NameMatching) : CompiledModule → Prop where
  | compile {registry : Registry} {name : ModuleName} {source : SourceFile}
      {compiled : CompiledModule} (matches_ : registry.matching = matching)
      (sound : registry.Sound)
      (made : ∀ (key : Text) (other : CompiledModule), registry.modules[key]? = some other →
        Made matching other)
      (loads : view.Loads resolver name source)
      (compiles : compileModule registry name source = .ok compiled) : Made matching compiled

/-- Every module of the registry is made from the files, and every attachment has its own key. -/
structure Registry.Faithful (registry : Registry) : Prop where
  sound : registry.Sound
  made : ∀ (key : Text) (compiled : CompiledModule), registry.modules[key]? = some compiled →
    view.Made resolver registry.matching compiled
  filed : ∀ (key : Text) (attachment : Attachment),
    registry.attachments[key]? = some attachment → attachment.path.key = key

end

variable {view : View} {resolver : Resolver}

namespace Registry

/-- A name that is compared as it is written finds the module of that name. -/
theorem Sound.name_eq {registry : Registry} (sound : registry.Sound)
    (exact_ : registry.matching = .exact) {name : ModuleName} {compiled : CompiledModule}
    (found : registry.lookup? name = some compiled) : compiled.name = name := by
  have keyed := sound.keyed _ _ found
  rw [keyOf, keyOf, exact_] at keyed
  exact ModuleName.qualified_injective keyed

theorem faithful_empty (matching : NameMatching) :
    (empty matching).Faithful view resolver := by
  refine ⟨sound_empty matching, fun key compiled found => ?_, fun key attachment found => ?_⟩
  · nomatch Std.TreeMap.getElem?_emptyc.symm.trans found
  · nomatch Std.TreeMap.getElem?_emptyc.symm.trans found

end Registry

namespace View.Made

theorem exists_source {matching : NameMatching} {compiled : CompiledModule}
    (made : view.Made resolver matching compiled) :
    ∃ source, view.Loads resolver compiled.name source ∧ compiled.path = source.path ∧
      compiled.dependencies = dependenciesOf source ∧
      compiled.markup = source.blocks .markup ∧
      compiled.stylesheet = source.blocks .stylesheet := by
  obtain ⟨-, -, -, loads, compiles⟩ := made
  obtain ⟨body, -, rfl⟩ := exists_of_compileModule compiles
  exact ⟨_, loads, rfl, rfl, rfl, rfl⟩

theorem unique {first second : CompiledModule} (made : view.Made resolver .exact first)
    (madeToo : view.Made resolver .exact second) (same : first.name = second.name) :
    first = second := by
  induction made generalizing second with
  | @compile registry name source compiled matches_ sound _ loads compiles inductionHypothesis =>
    obtain @⟨other, otherName, otherSource, _, otherMatches, otherSound, otherMade, otherLoads,
      otherCompiles⟩ := madeToo
    obtain ⟨body, scripted, rfl⟩ := exists_of_compileModule compiles
    obtain ⟨otherBody, otherScripted, rfl⟩ := exists_of_compileModule otherCompiles
    cases same
    cases loads.unique otherLoads
    -- The registries need not be the same, but under the imported names both have a made module,
    -- and the induction says that it is the same one.
    have agree : ∀ imported ∈ importedNames source,
        registry.lookup? imported = other.lookup? imported := by
      intro imported member
      obtain ⟨one, found⟩ := Registry.contains_iff.mp (holds_of_sourceScript scripted _ member)
      obtain ⟨two, foundToo⟩ :=
        Registry.contains_iff.mp (holds_of_sourceScript otherScripted _ member)
      have named : one.name = two.name :=
        (sound.name_eq matches_ found).trans (otherSound.name_eq otherMatches foundToo).symm
      rw [Registry.lookup?, found, Registry.lookup?, foundToo,
        inductionHypothesis _ _ found (otherMade _ _ foundToo) named]
    rw [sourceScript_congr agree, otherScripted] at scripted
    cases scripted
    rw [matches_, otherMatches]

end View.Made

/-! ## Registering and attaching -/

namespace Registry.Faithful

variable {registry after : Registry} (faithful : registry.Faithful view resolver)

include faithful

theorem of_modules_eq (matching : after.matching = registry.matching)
    (modules : after.modules = registry.modules)
    (filed : ∀ (key : Text) (attachment : Attachment),
      after.attachments[key]? = some attachment → attachment.path.key = key) :
    after.Faithful view resolver := by
  refine ⟨faithful.sound.congr matching modules, fun key compiled found => ?_, filed⟩
  rw [matching]
  rw [modules] at found
  exact faithful.made key compiled found

theorem link? {source path : Path} (links : registry.link? source path = some after) :
    after.Faithful view resolver := by
  obtain ⟨matching, modules⟩ := link?_modules links
  refine faithful.of_modules_eq matching modules ?_
  rw [link?_attachments links]
  exact faithful.filed

theorem attach (source : Path) (attachment : Attachment) :
    (registry.attach source attachment).Faithful view resolver := by
  obtain ⟨matching, modules⟩ := registry.attach_modules source attachment
  refine faithful.of_modules_eq matching modules fun key other found => ?_
  rw [attach_attachments, Std.TreeMap.getElem?_insertIfNew] at found
  split at found
  · next same =>
    cases found
    exact Std.LawfulEqOrd.compare_eq_iff_eq.mp same.1
  · exact faithful.filed key other found

theorem made_of_compileModule {name : ModuleName} {source : SourceFile}
    {compiled : CompiledModule} (loads : view.Loads resolver name source)
    (compiles : compileModule registry name source = .ok compiled) :
    view.Made resolver registry.matching compiled :=
  .compile rfl faithful.sound faithful.made loads compiles

theorem register {name : ModuleName} {source : SourceFile} {compiled stored : CompiledModule}
    (loads : view.Loads resolver name source)
    (compiles : compileModule registry name source = .ok compiled)
    (registered : registry.register compiled = .ok (stored, after)) :
    after.Faithful view resolver := by
  have made := faithful.made_of_compileModule loads compiles
  obtain ⟨body, scripted, rfl⟩ := exists_of_compileModule compiles
  have held : registry.Holds (dependenciesOf source) := fun dependency member =>
    holds_of_sourceScript scripted dependency (mem_dependenciesOf member)
  rcases register_cases registered with ⟨rfl, -⟩ | ⟨rfl, fresh⟩
  · exact faithful
  · refine ⟨sound_add fresh faithful.sound held, fun key other found => ?_, faithful.filed⟩
    rw [getElem?_add] at found
    split at found
    · cases found
      exact made
    · exact faithful.made key other found

/-- Where names are compared as they are written, no module of another file has the name. -/
theorem register_isOk (exact_ : registry.matching = .exact) {name : ModuleName}
    {source : SourceFile} {compiled : CompiledModule} (loads : view.Loads resolver name source)
    (compiles : compileModule registry name source = .ok compiled) :
    ∃ stored, registry.register compiled = .ok stored := by
  have made := faithful.made_of_compileModule loads compiles
  rw [Registry.register, check]
  -- A clash needs a module of that name with another path, but made modules of one name are equal.
  cases found : registry.lookup? compiled.name with
  | none => exact ⟨_, rfl⟩
  | some existing =>
    have madeToo := faithful.made _ _ found
    rw [exact_] at made madeToo
    cases madeToo.unique made (faithful.sound.name_eq exact_ found)
    have same : compiled.path.same compiled.path = true := beq_self_eq_true _
    simp only [same, if_true]
    exact ⟨_, rfl⟩

end Registry.Faithful

end PageCompiler
