import Mathlib.Data.List.Chain
import PageCompiler.Proofs.Registry.Postorder

/-! # When there is a dependency order, and why there is none

The registry may be any one that register calls make: modules may be missing from it, and modules
may depend on each other in circles. The names have an order exactly if they reach neither a name
that is not registered nor a circle. Otherwise the search ends at one of the two, and reports it:
what it has on the way is a walk along dependencies, and what is neither on the way nor idle is not
registered.
-/

namespace PageCompiler.Registry

/-! ## Registries of register calls -/

/-- A register call that is refused leaves the registry as it is. -/
def afterCall (registry : Registry) (compiled : CompiledModule) : Registry :=
  match registry.register compiled with
  | .ok (_, after) => after
  | .error _ => registry

/-- The registry that these register calls make. -/
def ofCalls (matching : NameMatching) (calls : List CompiledModule) : Registry :=
  calls.foldl afterCall (empty matching)

theorem keyed_add {registry : Registry} (keyed : registry.Keyed) (compiled : CompiledModule) :
    (registry.add compiled).Keyed := by
  intro key other found
  rw [getElem?_add] at found
  split at found
  · next same =>
    cases found
    exact same
  · exact keyed key other found

theorem keyed_afterCall {registry : Registry} (keyed : registry.Keyed) (compiled : CompiledModule) :
    (registry.afterCall compiled).Keyed := by
  rw [afterCall]
  split
  · next registered =>
    rcases register_cases registered with ⟨rfl, -⟩ | ⟨rfl, -⟩
    · exact keyed
    · exact keyed_add keyed compiled
  · exact keyed

theorem keyed_ofCalls (matching : NameMatching) (calls : List CompiledModule) :
    (ofCalls matching calls).Keyed := by
  suffices kept : ∀ registry : Registry, registry.Keyed →
      (calls.foldl afterCall registry).Keyed from
    kept _ (sound_empty matching).keyed
  induction calls with
  | nil => exact fun _ keyed => keyed
  | cons compiled calls inductionHypothesis =>
    exact fun registry keyed => inductionHypothesis _ (keyed_afterCall keyed compiled)

/-! ## Orders and reachable modules -/

variable {registry : Registry} {roots : List ModuleName} {importer : Path}

/-- What a listed module depends on, also through others, stands before it. -/
theorem Postorder.before_of_transGen {order before after : List CompiledModule}
    {compiled : CompiledModule} (postorder : registry.Postorder order)
    (split : order = before ++ compiled :: after) {key : Text}
    (path : Relation.TransGen registry.DependsOn (registry.keyOf compiled.name) key) :
    ∃ earlier ∈ before, registry.keyOf earlier.name = key := by
  have listed (other : CompiledModule) (member : other ∈ order) (importing : CompiledModule)
      (found : registry.modules[registry.keyOf other.name]? = some importing) :
      other = importing :=
    Option.some.inj ((postorder.registered other member).symm.trans found)
  induction path with
  | single edge =>
    obtain ⟨importing, found, name, member, rfl⟩ := edge
    obtain rfl := listed compiled (by simp [split]) importing found
    exact postorder.behind before compiled after split name member
  | tail _ edge inductionHypothesis =>
    obtain ⟨middle, there, rfl⟩ := inductionHypothesis
    obtain ⟨importing, found, name, member, rfl⟩ := edge
    obtain rfl := listed middle (by simp [split, there]) importing found
    -- The module in the middle is before the first one, and its dependency before it.
    obtain ⟨front, others, rfl⟩ := List.append_of_mem there
    obtain ⟨earlier, inFront, same⟩ := postorder.behind front middle
      (others ++ compiled :: after) (by rw [split, List.append_assoc, List.cons_append]) name member
    exact ⟨earlier, List.mem_append_left _ inFront, same⟩

theorem Postorder.acyclic {order : List CompiledModule} (postorder : registry.Postorder order)
    {compiled : CompiledModule} (member : compiled ∈ order) :
    ¬ Relation.TransGen registry.DependsOn (registry.keyOf compiled.name)
      (registry.keyOf compiled.name) := by
  intro cycle
  obtain ⟨before, after, split⟩ := List.append_of_mem member
  obtain ⟨earlier, there, same⟩ := postorder.before_of_transGen split cycle
  have distinct := postorder.distinct
  rw [split, List.map_append, List.nodup_append] at distinct
  exact distinct.2.2 _ (List.mem_map_of_mem there) _ (List.mem_map_of_mem List.mem_cons_self) same

/-- The names have an order exactly if all they reach is registered and leads nowhere back to
itself. -/
theorem order_isOk_iff (keyed : registry.Keyed) (roots : List ModuleName) (importer : Path) :
    (∃ modules, registry.order roots importer = .ok modules) ↔
      (∀ key, registry.Reaches roots key → registry.modules.contains key = true) ∧
        ∀ key, registry.Reaches roots key →
          ¬ Relation.TransGen registry.DependsOn key key := by
  simp only [Std.TreeMap.contains_eq_isSome_getElem?, Option.isSome_iff_exists]
  constructor
  · rintro ⟨modules, ordered⟩
    have postorder := order_postorder keyed ordered
    refine ⟨fun key reaches => ?_, fun key reaches => ?_⟩
    all_goals obtain ⟨compiled, listed, rfl⟩ := exists_of_reaches keyed ordered reaches
    · exact ⟨compiled, postorder.registered compiled listed⟩
    · exact postorder.acyclic listed
  · rintro ⟨registered, acyclic⟩
    exact order_isOk (fun root member =>
      ⟨fun reached path => registered reached ⟨root, member, path⟩,
        fun reached path => acyclic reached ⟨root, member, path⟩⟩) importer

/-! ## What ends the search -/

/-- The module registered for the name has this dependency. -/
def Imports (registry : Registry) (name dependency : ModuleName) : Prop :=
  ∃ compiled, registry.lookup? name = some compiled ∧ dependency ∈ compiled.dependencies

/-- A walk along dependencies that comes back to the key it starts from. -/
structure ClosedWalk (registry : Registry) (walk : List ModuleName) : Prop where
  steps : walk.IsChain registry.Imports
  moves : 2 ≤ walk.length
  closes : walk.head?.map registry.keyOf = walk.getLast?.map registry.keyOf

/-- The file from which the name is imported: the roots are imported by `importer`, and what a
module depends on by its file. -/
inductive ImportedBy (registry : Registry) (roots : List ModuleName) (importer : Path)
    (name : ModuleName) : Path → Prop
  | root (member : name ∈ roots) : ImportedBy registry roots importer name importer
  | dependency {compiled : CompiledModule} (reached : registry.Reached roots compiled)
      (member : name ∈ compiled.dependencies) :
      ImportedBy registry roots importer name compiled.path

/-- Why names have no order. -/
inductive Obstacle (registry : Registry) (roots : List ModuleName) (importer : Path) :
    BuildError → Prop
  | circular {walk : List ModuleName} (closed : registry.ClosedWalk walk)
      (reached : ∀ name ∈ walk, registry.Reaches roots (registry.keyOf name)) :
      Obstacle registry roots importer (.circularImport (walk.map ModuleName.qualified))
  | unresolved {name : ModuleName} {file : Path} (unregistered : registry.contains name = false)
      (imported : registry.ImportedBy roots importer name file) :
      Obstacle registry roots importer (.unresolvedImport name.qualified file)

/-- Where the search is: it has walked along the names `visiting` to `name`, which `file` imports,
and each registered module is idle or on that walk. -/
structure OnTheWay (registry : Registry) (roots : List ModuleName) (importer : Path)
    (idle : List (Text × CompiledModule)) (visiting : List ModuleName) (file : Path)
    (name : ModuleName) : Prop where
  walk : (visiting ++ [name]).IsChain registry.Imports
  reached : ∀ passed ∈ visiting ++ [name], registry.Reaches roots (registry.keyOf passed)
  imported : registry.ImportedBy roots importer name file
  accounted : ∀ key compiled, registry.modules[key]? = some compiled →
    key ∈ idle.map Prod.fst ∨ ∃ passed ∈ visiting, registry.keyOf passed = key

namespace OnTheWay

variable {idle : List (Text × CompiledModule)} {visiting : List ModuleName} {file : Path}
  {name : ModuleName}

theorem root (importer : Path) (member : name ∈ roots) :
    registry.OnTheWay roots importer registry.modules.toList [] importer name := by
  refine ⟨List.isChain_singleton name, fun passed walked => ?_, .root member,
    fun key compiled stored => .inl ?_⟩
  · rw [List.mem_singleton.mp walked]
    exact ⟨name, member, .refl⟩
  · exact List.mem_map_of_mem (Std.TreeMap.mem_toList_iff_getElem?_eq_some.mpr stored)

variable (way : registry.OnTheWay roots importer idle visiting file name)

include way

/-- From a module the search goes on to each of its dependencies. -/
theorem dependency (keyed : registry.Keyed) {compiled : CompiledModule}
    (stored : registry.modules[registry.keyOf name]? = some compiled) {next : ModuleName}
    (member : next ∈ compiled.dependencies) :
    registry.OnTheWay roots importer (idle.eraseP fun entry => entry.1 == registry.keyOf name)
      (visiting ++ [name]) compiled.path next := by
  have named := keyed _ _ stored
  obtain ⟨root, listed, path⟩ := way.reached name (by simp)
  have edge : registry.DependsOn (registry.keyOf name) (registry.keyOf next) :=
    ⟨compiled, stored, next, member, rfl⟩
  constructor
  case walk =>
    refine List.isChain_append.mpr ⟨way.walk, List.isChain_singleton next, ?_⟩
    rw [List.getLast?_concat]
    rintro _ ⟨⟩ _ ⟨⟩
    exact ⟨compiled, stored, member⟩
  case reached =>
    intro passed walked
    rcases List.mem_append.mp walked with before | last
    · exact way.reached passed before
    · rw [List.mem_singleton.mp last]
      exact ⟨root, listed, path.tail edge⟩
  case imported =>
    exact .dependency ⟨by rw [lookup?, named, stored], root, listed, by rwa [named]⟩ member
  case accounted =>
    intro key other found
    by_cases here : key = registry.keyOf name
    · exact .inr ⟨name, by simp, here.symm⟩
    · rcases way.accounted key other found with idle | ⟨passed, before, same⟩
      · rw [map_fst_eraseP, List.mem_erase_of_ne here]
        exact .inl idle
      · exact .inr ⟨passed, List.mem_append_left _ before, same⟩

/-- A name on the way closes a walk from there to the same key. -/
theorem circular {start : List ModuleName}
    (found : chainFrom? registry.matching visiting (registry.keyOf name) = some start) :
    registry.Obstacle roots importer (.circularImport (cycleNames start name)) := by
  obtain ⟨⟨front, rfl⟩, closes⟩ := exists_of_chainFrom? found
  have walk := way.walk
  rw [List.append_assoc] at walk
  obtain ⟨first, others, rfl⟩ : ∃ first others, start = first :: others := by
    cases start with
    | nil => cases closes
    | cons first others => exact ⟨first, others, rfl⟩
  have named : cycleNames (first :: others) name =
      ((first :: others) ++ [name]).map ModuleName.qualified := by simp [cycleNames]
  rw [named]
  refine .circular ⟨(List.isChain_append.mp walk).2.1, by simp, ?_⟩ fun passed walked =>
    way.reached passed (by rw [List.append_assoc]; exact List.mem_append_right _ walked)
  rw [List.getLast?_concat]
  exact closes

/-- A name that is neither idle nor on the way is not registered. -/
theorem unresolved (missing : idle.find? (fun entry => entry.1 == registry.keyOf name) = none)
    (unmet : chainFrom? registry.matching visiting (registry.keyOf name) = none) :
    registry.Obstacle roots importer (.unresolvedImport name.qualified file) := by
  refine .unresolved (Bool.eq_false_iff.mpr fun registered => ?_) way.imported
  obtain ⟨compiled, stored⟩ := contains_iff.mp registered
  rcases way.accounted _ _ stored with idle | ⟨passed, before, same⟩
  · obtain ⟨entry, member, same⟩ := List.mem_map.mp idle
    exact List.find?_eq_none.mp missing entry member (beq_iff_eq.mpr same)
  · exact chainFrom?_eq_none_iff.mp unmet passed before same

end OnTheWay

theorem visit_error (keyed : registry.Keyed) {idle : List (Text × CompiledModule)}
    (listed : registry.Listed idle) {visiting : List ModuleName} {file : Path}
    (order : List CompiledModule) {name : ModuleName}
    (way : registry.OnTheWay roots importer idle visiting file name) {error : BuildError}
    (failed : visit registry.matching idle visiting file order name = .error error) :
    registry.Obstacle roots importer error := by
  fun_induction visit registry.matching idle visiting file order name with
  | case1 => cases failed
  | case2 idle visiting file order name key absent entryKey compiled found _ inductionHypothesis =>
    obtain rfl : entryKey = key := by simpa using List.find?_some found
    have stored := listed.stored _ (List.mem_of_find?_eq_some found)
    cases folded : compiled.dependencies.foldlM (visit registry.matching
        (idle.eraseP fun entry => entry.1 == key) (visiting ++ [name]) compiled.path) order with
    | ok between =>
      rw [folded] at failed
      cases failed
    | error cause =>
      rw [folded] at failed
      cases failed
      -- One of the dependencies cannot be visited, and the search has gone on to it.
      obtain ⟨reached, next, member, refused⟩ := exists_of_foldlM_eq_error folded
      exact inductionHypothesis reached next (listed.eraseP key)
        (way.dependency keyed stored member) refused
  | case3 idle visiting file order name key absent missing start closes =>
    cases failed
    exact way.circular closes
  | case4 idle visiting file order name key absent missing unmet =>
    cases failed
    exact way.unresolved missing unmet

theorem order_error (keyed : registry.Keyed) {error : BuildError}
    (failed : registry.order roots importer = .error error) :
    registry.Obstacle roots importer error := by
  obtain ⟨reached, root, member, refused⟩ := exists_of_foldlM_eq_error failed
  exact visit_error keyed registry.listed_toList reached (.root importer member) refused

/-! ## The search -/

/-- Names have an order exactly if everything they reach through dependencies is registered and no
dependencies lead from it back to itself. The order then lists the modules that are reached and no
other one, each one once and behind all its dependencies. If there is none, the error names a walk
along dependencies that closes, or a name that is not registered, with the file that imports it. -/
theorem order_correct (matching : NameMatching) (calls : List CompiledModule)
    (roots : List ModuleName) (importer : Path) :
    let registry := ofCalls matching calls
    ((∃ modules, registry.order roots importer = .ok modules) ↔
      (∀ key, registry.Reaches roots key → registry.modules.contains key = true) ∧
        ∀ key, registry.Reaches roots key → ¬ Relation.TransGen registry.DependsOn key key) ∧
    (∀ modules, registry.order roots importer = .ok modules →
      registry.Postorder modules ∧
        ∀ compiled, compiled ∈ modules ↔ registry.Reached roots compiled) ∧
    ∀ error, registry.order roots importer = .error error →
      (∃ walk, error = .circularImport (walk.map ModuleName.qualified) ∧
        registry.ClosedWalk walk ∧
        ∀ name ∈ walk, registry.Reaches roots (registry.keyOf name)) ∨
      ∃ name file, error = .unresolvedImport name.qualified file ∧
        registry.contains name = false ∧ registry.ImportedBy roots importer name file := by
  intro registry
  have keyed := keyed_ofCalls matching calls
  refine ⟨order_isOk_iff keyed roots importer,
    fun modules ordered => ⟨order_postorder keyed ordered, mem_order_iff keyed ordered⟩,
    fun error failed => ?_⟩
  cases order_error keyed failed with
  | circular closed reached => exact .inl ⟨_, rfl, closed, reached⟩
  | unresolved unregistered imported => exact .inr ⟨_, _, rfl, unregistered, imported⟩

/-- Two modules that depend on each other, the one on the other in another spelling. -/
example :
    let panel : ModuleName := ⟨["ui".toList], "Panel".toList, nofun, by decide⟩
    let icon : ModuleName := ⟨["ui".toList], "Icon".toList, nofun, by decide⟩
    let panelToo : ModuleName := ⟨["UI".toList], "panel".toList, nofun, by decide⟩
    let registry := ofCalls .ignoreCase
      [⟨panel, .ofString "/src/ui/Panel.js", [], [icon], [], [], []⟩,
        ⟨icon, .ofString "/src/ui/Icon.js", [], [panelToo], [], [], []⟩]
    registry.order [panel] (.ofString "/src/main.js") =
      .error (.circularImport ["ui.Panel".toList, "ui.Icon".toList, "UI.panel".toList]) := by
  decide +kernel

end PageCompiler.Registry
