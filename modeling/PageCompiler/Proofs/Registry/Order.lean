import Mathlib.Data.List.TakeWhile
import PageCompiler.Proofs.Registry.Dependencies
import PageCompiler.Registry.Order

/-! # Every registered module has an order

The search for a dependency order succeeds if everything that the names reach is registered and
leads nowhere back to itself, as it is in a sound registry. The search takes the module it works on
out of the idle ones, but none of its dependencies leads back to it, so what they reach stays idle.
-/

namespace PageCompiler

theorem chainFrom?_eq_none_iff {matching : NameMatching} {chain : List ModuleName} {key : Text} :
    chainFrom? matching chain key = none ↔ ∀ passed ∈ chain, passed.key matching ≠ key := by
  have skipped : (chain.dropWhile fun name => name.key matching != key) = [] ↔
      ∀ passed ∈ chain, passed.key matching ≠ key := by
    simp [List.dropWhile_eq_nil_iff]
  rw [← skipped, chainFrom?]
  split
  · next dropped => exact iff_of_true rfl dropped
  · next dropped => exact iff_of_false nofun dropped

theorem exists_of_chainFrom? {matching : NameMatching} {chain start : List ModuleName} {key : Text}
    (found : chainFrom? matching chain key = some start) :
    (∃ front, chain = front ++ start) ∧
      start.head?.map (ModuleName.key matching) = some key := by
  rw [chainFrom?] at found
  split at found
  · cases found
  · next dropped =>
    cases found
    refine ⟨⟨_, List.takeWhile_append_dropWhile.symm⟩, ?_⟩
    have first := List.head?_dropWhile_not (fun name => name.key matching != key) chain
    cases rest : chain.dropWhile fun name => name.key matching != key with
    | nil => exact absurd rest dropped
    | cons name others =>
      rw [rest] at first
      simpa using first

theorem exists_of_foldlM_eq_error {α β ε : Type} {step : β → α → Except ε β} {list : List α}
    {state : β} {error : ε} (failed : list.foldlM step state = .error error) :
    ∃ reached, ∃ element ∈ list, step reached element = .error error := by
  induction list generalizing state with
  | nil => cases failed
  | cons element list inductionHypothesis =>
    rw [List.foldlM_cons] at failed
    cases stepped : step state element with
    | ok next =>
      rw [stepped] at failed
      obtain ⟨reached, other, member, refused⟩ := inductionHypothesis failed
      exact ⟨reached, other, List.mem_cons_of_mem _ member, refused⟩
    | error cause =>
      rw [stepped] at failed
      cases failed
      exact ⟨state, element, List.mem_cons_self, stepped⟩

namespace Registry

theorem find?_eraseP_of_ne (idle : List (Text × CompiledModule)) {key other : Text}
    (different : key ≠ other) :
    (idle.eraseP fun entry => entry.1 == key).find? (fun entry => entry.1 == other) =
      idle.find? fun entry => entry.1 == other := by
  induction idle with
  | nil => rfl
  | cons entry idle inductionHypothesis =>
    by_cases here : entry.1 = key
    · rw [List.eraseP_cons_of_pos (by simpa using here),
        List.find?_cons_of_neg (by simp [here, different])]
    · rw [List.eraseP_cons_of_neg (by simpa using here), List.find?_cons, List.find?_cons,
        inductionHypothesis]

theorem foldlM_isOk {α β : Type} {step : β → α → Except BuildError β} (list : List α)
    (steps : ∀ element ∈ list, ∀ state, ∃ next, step state element = .ok next) (state : β) :
    ∃ last, list.foldlM step state = .ok last := by
  induction list generalizing state with
  | nil => exact ⟨state, rfl⟩
  | cons element list inductionHypothesis =>
    obtain ⟨next, stepped⟩ := steps element List.mem_cons_self state
    obtain ⟨last, folded⟩ := inductionHypothesis
      (fun other member => steps other (List.mem_cons_of_mem _ member)) next
    exact ⟨last, by rw [List.foldlM_cons, stepped]; exact folded⟩

/-- Everything that is reached from a key is among the idle modules. -/
def Supplied (registry : Registry) (idle : List (Text × CompiledModule)) (key : Text) : Prop :=
  ∀ (reached : Text) (compiled : CompiledModule),
    Relation.ReflTransGen registry.DependsOn key reached →
    registry.modules[reached]? = some compiled →
    idle.find? (fun entry => entry.1 == reached) = some (reached, compiled)

theorem supplied_toList (registry : Registry) (key : Text) :
    registry.Supplied registry.modules.toList key := by
  intro reached compiled _ found
  have compares : (fun entry : Text × CompiledModule => entry.1 == reached) =
      fun entry => compare entry.1 reached == .eq := by
    funext entry
    rw [Bool.eq_iff_iff, beq_iff_eq, beq_iff_eq, Std.LawfulEqOrd.compare_eq_iff_eq]
  rw [compares, Std.TreeMap.find?_toList_eq_some_iff_getKey?_eq_some_and_getElem?_eq_some]
  refine ⟨Std.TreeMap.getKey?_eq_some_of_contains ?_, found⟩
  rw [Std.TreeMap.contains_eq_isSome_getElem?, found, Option.isSome_some]

/-- Everything that is reached from a key is registered, and nothing of it leads back to itself. -/
structure Clear (registry : Registry) (key : Text) : Prop where
  registered : ∀ reached, Relation.ReflTransGen registry.DependsOn key reached →
    ∃ compiled : CompiledModule, registry.modules[reached]? = some compiled
  acyclic : ∀ reached, Relation.ReflTransGen registry.DependsOn key reached →
    ¬ Relation.TransGen registry.DependsOn reached reached

theorem Clear.dependency {registry : Registry} {key dependency : Text} (clear : registry.Clear key)
    (edge : registry.DependsOn key dependency) : registry.Clear dependency :=
  ⟨fun reached path => clear.registered reached (.head edge path),
    fun reached path => clear.acyclic reached (.head edge path)⟩

theorem Sound.clear {registry : Registry} (sound : registry.Sound) {name : ModuleName}
    (registered : registry.contains name = true) : registry.Clear (registry.keyOf name) := by
  refine ⟨fun reached path => ?_, fun reached _ => sound.acyclic reached⟩
  rcases Relation.ReflTransGen.cases_tail path with rfl | ⟨_, -, edge⟩
  · exact contains_iff.mp registered
  · obtain ⟨compiled, stored, dependency, member, rfl⟩ := edge
    exact contains_iff.mp (sound.closed _ _ stored dependency member)

/-- A dependency reaches nothing that leads back, so its module can be taken out. -/
theorem Supplied.dependency {registry : Registry} {idle : List (Text × CompiledModule)}
    {key dependency : Text} (supplied : registry.Supplied idle key) (clear : registry.Clear key)
    (edge : registry.DependsOn key dependency) :
    registry.Supplied (idle.eraseP fun entry => entry.1 == key) dependency := by
  intro reached compiled path found
  have different : key ≠ reached := by
    rintro rfl
    exact clear.acyclic key .refl (Relation.TransGen.head' edge path)
  rw [find?_eraseP_of_ne idle different]
  exact supplied reached compiled (.head edge path) found

theorem Supplied.find? {registry : Registry} {idle : List (Text × CompiledModule)} {key : Text}
    (supplied : registry.Supplied idle key) (clear : registry.Clear key) :
    ∃ compiled : CompiledModule, registry.modules[key]? = some compiled ∧
      idle.find? (fun entry => entry.1 == key) = some (key, compiled) := by
  obtain ⟨compiled, stored⟩ := clear.registered key .refl
  exact ⟨compiled, stored, supplied key compiled .refl stored⟩

theorem visit_isOk {registry : Registry} (idle : List (Text × CompiledModule))
    (visiting : List ModuleName) (importer : Path) (order : List CompiledModule)
    (name : ModuleName) (clear : registry.Clear (registry.keyOf name))
    (supplied : registry.Supplied idle (registry.keyOf name)) :
    ∃ longer, visit registry.matching idle visiting importer order name = .ok longer := by
  fun_induction visit registry.matching idle visiting importer order name with
  | case1 _ _ _ order => exact ⟨order, rfl⟩
  | case2 _ _ _ order _ _ _ _ found foundAt _ inductionHypothesis =>
    -- The module found is the registered one, so its dependencies are in order, too.
    obtain ⟨compiled, stored, taken⟩ := supplied.find? clear
    cases foundAt.symm.trans taken
    obtain ⟨longer, folded⟩ := foldlM_isOk found.dependencies (fun dependency member order =>
      have edge := ⟨found, stored, dependency, member, rfl⟩
      inductionHypothesis order dependency (clear.dependency edge)
        (supplied.dependency clear edge)) order
    exact ⟨longer ++ [found], by rw [folded]; rfl⟩
  | case3 _ _ _ _ _ _ _ missing =>
    obtain ⟨_, _, taken⟩ := supplied.find? clear
    cases missing.symm.trans taken
  | case4 _ _ _ _ _ _ _ missing =>
    obtain ⟨_, _, taken⟩ := supplied.find? clear
    cases missing.symm.trans taken

/-- If everything that the names reach is registered and leads nowhere back to itself, the names
have a dependency order. -/
theorem order_isOk {registry : Registry} {roots : List ModuleName}
    (clear : ∀ root ∈ roots, registry.Clear (registry.keyOf root)) (importer : Path) :
    ∃ modules, registry.order roots importer = .ok modules :=
  foldlM_isOk roots (fun name member order =>
    visit_isOk _ _ _ order name (clear name member) (registry.supplied_toList _)) []

end Registry

end PageCompiler
