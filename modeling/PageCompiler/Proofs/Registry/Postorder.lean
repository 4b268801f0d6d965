import Mathlib.Data.List.Basic
import PageCompiler.Proofs.Registry.Order

/-! # What a dependency order lists

The search for an order lists exactly the modules that the roots reach, each one once and behind
everything it depends on. While a module is worked on, it is not among the idle ones and only idle
modules are added, so it is not added before its time.
-/

namespace PageCompiler.Registry

/-- A list of registered modules, each one once and behind its dependencies. -/
structure Postorder (registry : Registry) (order : List CompiledModule) : Prop where
  registered : ∀ compiled ∈ order, registry.lookup? compiled.name = some compiled
  distinct : (order.map fun compiled => registry.keyOf compiled.name).Nodup
  behind : ∀ before compiled after, order = before ++ compiled :: after →
    ∀ name ∈ compiled.dependencies, ∃ dependency ∈ before,
      registry.keyOf dependency.name = registry.keyOf name

/-- The names reach this key through dependencies. -/
def Reaches (registry : Registry) (roots : List ModuleName) (key : Text) : Prop :=
  ∃ root ∈ roots, Relation.ReflTransGen registry.DependsOn (registry.keyOf root) key

/-- The module is registered, and the names reach it through dependencies. -/
structure Reached (registry : Registry) (roots : List ModuleName) (compiled : CompiledModule) :
    Prop where
  registered : registry.lookup? compiled.name = some compiled
  path : ∃ root ∈ roots, Relation.ReflTransGen registry.DependsOn (registry.keyOf root)
    (registry.keyOf compiled.name)

variable {registry : Registry}

theorem postorder_nil : registry.Postorder [] :=
  ⟨fun _ member => absurd member List.not_mem_nil, List.nodup_nil, fun before _ _ split =>
    absurd split.symm (by simp)⟩

theorem Postorder.concat {order : List CompiledModule} (postorder : registry.Postorder order)
    {compiled : CompiledModule} (registered : registry.lookup? compiled.name = some compiled)
    (fresh : ∀ other ∈ order, registry.keyOf other.name ≠ registry.keyOf compiled.name)
    (held : ∀ name ∈ compiled.dependencies, ∃ dependency ∈ order,
      registry.keyOf dependency.name = registry.keyOf name) :
    registry.Postorder (order ++ [compiled]) := by
  refine ⟨fun other member => ?_, ?_, fun before other after split => ?_⟩
  · rcases List.mem_append.mp member with old | new
    · exact postorder.registered other old
    · rwa [List.mem_singleton.mp new]
  · rw [List.map_append, List.nodup_append]
    refine ⟨postorder.distinct, by simp, fun key old other new => ?_⟩
    obtain ⟨listed, member, rfl⟩ := List.mem_map.mp old
    rw [List.map_singleton, List.mem_singleton] at new
    rw [new]
    exact fresh listed member
  · -- The module is the new last one if nothing follows it, and an old one otherwise.
    rcases List.eq_nil_or_concat' after with rfl | ⟨others, last, rfl⟩
    · obtain ⟨rfl, same⟩ := List.append_inj' split rfl
      cases same
      exact held
    · refine postorder.behind before other others ?_
      rw [← List.cons_append, ← List.append_assoc] at split
      exact (List.append_inj' split rfl).1

/-- Neither a module nor what stands behind it is a dependency of the module. -/
theorem Postorder.lookup?_ne (keyed : registry.Keyed) {order before after : List CompiledModule}
    {compiled : CompiledModule} (postorder : registry.Postorder order)
    (split : order = before ++ compiled :: after) {name : ModuleName}
    (dependency : name ∈ compiled.dependencies) :
    ∀ later ∈ compiled :: after, registry.lookup? name ≠ some later := by
  intro later member found
  obtain ⟨earlier, there, same⟩ := postorder.behind before compiled after split name dependency
  have distinct := postorder.distinct
  rw [split, List.map_append, List.nodup_append] at distinct
  refine distinct.2.2 _ (List.mem_map_of_mem there) _ (List.mem_map_of_mem member) ?_
  rw [same]
  exact (keyed _ _ found).symm

theorem Postorder.pairwise (keyed : registry.Keyed) {order : List CompiledModule}
    (postorder : registry.Postorder order) :
    order.Pairwise fun earlier later =>
      ∀ name ∈ earlier.dependencies, registry.lookup? name ≠ some later := by
  suffices behind : ∀ after before, order = before ++ after → after.Pairwise fun earlier later =>
      ∀ name ∈ earlier.dependencies, registry.lookup? name ≠ some later from
    behind order [] rfl
  intro after
  -- The induction is on what is left of the order, with all that comes before it as `before`.
  induction after with
  | nil => exact fun _ _ => .nil
  | cons compiled after inductionHypothesis =>
    intro before split
    refine List.pairwise_cons.mpr ⟨fun later member name dependency => ?_, ?_⟩
    · exact postorder.lookup?_ne keyed split dependency later (List.mem_cons_of_mem _ member)
    · exact inductionHypothesis (before ++ [compiled]) (by rw [split, List.append_cons])

theorem Postorder.lookup?_ne_self (keyed : registry.Keyed) {order : List CompiledModule}
    (postorder : registry.Postorder order) {compiled : CompiledModule}
    (member : compiled ∈ order) {name : ModuleName} (dependency : name ∈ compiled.dependencies) :
    registry.lookup? name ≠ some compiled := by
  obtain ⟨before, after, split⟩ := List.append_of_mem member
  exact postorder.lookup?_ne keyed split dependency compiled List.mem_cons_self

/-- A dependency of a listed module finds a module in front of it. -/
theorem Postorder.lookup?_before {order before after : List CompiledModule}
    {compiled : CompiledModule} (postorder : registry.Postorder order)
    (split : order = before ++ compiled :: after) {name : ModuleName}
    (dependency : name ∈ compiled.dependencies) :
    ∃ imported ∈ before, registry.lookup? name = some imported := by
  obtain ⟨imported, there, same⟩ := postorder.behind before compiled after split name dependency
  refine ⟨imported, there, ?_⟩
  rw [lookup?, ← same]
  exact postorder.registered imported (split ▸ List.mem_append_left _ there)

theorem Postorder.lookup?_dependency {order : List CompiledModule}
    (postorder : registry.Postorder order) {compiled : CompiledModule}
    (member : compiled ∈ order) {name : ModuleName} (dependency : name ∈ compiled.dependencies) :
    ∃ imported ∈ order, registry.lookup? name = some imported := by
  obtain ⟨before, after, split⟩ := List.append_of_mem member
  obtain ⟨imported, there, found⟩ := postorder.lookup?_before split dependency
  exact ⟨imported, split ▸ List.mem_append_left _ there, found⟩

/-! ## Growing an order -/

/-- An order that was continued with idle modules that the names reach. -/
structure Grows (registry : Registry) (idle : List (Text × CompiledModule))
    (names : List ModuleName) (order longer : List CompiledModule) : Prop where
  retains : order ⊆ longer
  postorder : registry.Postorder order → registry.Postorder longer
  covers : ∀ name ∈ names, ∃ compiled ∈ longer,
    registry.keyOf compiled.name = registry.keyOf name
  reached : ∀ compiled ∈ longer, compiled ∈ order ∨ ∃ name ∈ names,
    Relation.ReflTransGen registry.DependsOn (registry.keyOf name) (registry.keyOf compiled.name)
  taken : ∀ compiled ∈ longer, compiled ∈ order ∨
    registry.keyOf compiled.name ∈ idle.map Prod.fst

namespace Grows

variable {idle : List (Text × CompiledModule)}

theorem nil (order : List CompiledModule) : registry.Grows idle [] order order :=
  ⟨List.Subset.refl _, id, fun _ member => absurd member List.not_mem_nil, fun _ => .inl,
    fun _ => .inl⟩

theorem cons {name : ModuleName} {names : List ModuleName}
    {order longer longest : List CompiledModule} (first : registry.Grows idle [name] order longer)
    (others : registry.Grows idle names longer longest) :
    registry.Grows idle (name :: names) order longest := by
  refine ⟨fun _ member => others.retains (first.retains member),
    fun postorder => others.postorder (first.postorder postorder), fun wanted member => ?_,
    fun compiled member => ?_,
    fun compiled member => (others.taken compiled member).elim (first.taken compiled) .inr⟩
  · rcases List.mem_cons.mp member with rfl | member
    · obtain ⟨compiled, listed, same⟩ := first.covers wanted List.mem_cons_self
      exact ⟨compiled, others.retains listed, same⟩
    · exact others.covers wanted member
  · rcases others.reached compiled member with old | ⟨other, there, path⟩
    · refine (first.reached compiled old).imp_right fun ⟨other, there, path⟩ => ?_
      exact ⟨other, List.mem_cons.mpr (.inl (List.mem_singleton.mp there)), path⟩
    · exact .inr ⟨other, List.mem_cons_of_mem _ there, path⟩

theorem foldlM {step : List CompiledModule → ModuleName → Except BuildError (List CompiledModule)}
    {names : List ModuleName}
    (steps : ∀ name ∈ names, ∀ order longer, step order name = .ok longer →
      registry.Grows idle [name] order longer) {order longer : List CompiledModule}
    (folded : names.foldlM step order = .ok longer) : registry.Grows idle names order longer := by
  induction names generalizing order with
  | nil =>
    cases folded
    exact nil _
  | cons name names inductionHypothesis =>
    rw [List.foldlM_cons] at folded
    cases stepped : step order name with
    | error error =>
      rw [stepped] at folded
      cases folded
    | ok next =>
      rw [stepped] at folded
      exact (steps name List.mem_cons_self order next stepped).cons (inductionHypothesis
        (fun other member => steps other (List.mem_cons_of_mem _ member)) folded)

end Grows

theorem map_fst_eraseP (idle : List (Text × CompiledModule)) (key : Text) :
    (idle.eraseP fun entry => entry.1 == key).map Prod.fst = (idle.map Prod.fst).erase key := by
  rw [List.erase_eq_eraseP', List.eraseP_map]
  rfl

/-- A module goes behind what its dependencies reach among the others. -/
theorem Grows.concat (keyed : registry.Keyed) {idle others : List (Text × CompiledModule)}
    {name : ModuleName} {compiled : CompiledModule} {order between : List CompiledModule}
    (grows : registry.Grows others compiled.dependencies order between)
    (stored : registry.modules[registry.keyOf name]? = some compiled)
    (fresh : ∀ other ∈ order, registry.keyOf other.name ≠ registry.keyOf name)
    (working : registry.keyOf name ∉ others.map Prod.fst)
    (less : others.map Prod.fst ⊆ idle.map Prod.fst)
    (member : registry.keyOf name ∈ idle.map Prod.fst) :
    registry.Grows idle [name] order (between ++ [compiled]) := by
  have named := keyed _ _ stored
  have edge (dependency : ModuleName) (member : dependency ∈ compiled.dependencies) :
      registry.DependsOn (registry.keyOf name) (registry.keyOf dependency) :=
    ⟨compiled, stored, dependency, member, rfl⟩
  refine ⟨fun _ member => List.mem_append_left _ (grows.retains member), fun postorder => ?_,
    fun wanted member => ?_, fun other member => ?_, fun other listed => ?_⟩
  · refine (grows.postorder postorder).concat (by rw [lookup?, named, stored])
      (fun other member clash => ?_) grows.covers
    rw [named] at clash
    exact (grows.taken other member).elim (fun old => fresh other old clash)
      fun added => working (clash ▸ added)
  · rw [List.mem_singleton.mp member]
    exact ⟨compiled, List.mem_append_right _ List.mem_cons_self, named⟩
  · rcases List.mem_append.mp member with between | last
    · refine (grows.reached other between).imp_right fun ⟨dependency, there, path⟩ => ?_
      exact ⟨name, List.mem_cons_self, .head (edge dependency there) path⟩
    · rw [List.mem_singleton.mp last, named]
      exact .inr ⟨name, List.mem_cons_self, .refl⟩
  · rcases List.mem_append.mp listed with between | last
    · exact (grows.taken other between).imp_right fun added => less added
    · rw [List.mem_singleton.mp last, named]
      exact .inr member

/-- The idle entries are registered modules under their keys, each key once. -/
structure Listed (registry : Registry) (idle : List (Text × CompiledModule)) : Prop where
  stored : ∀ entry ∈ idle, registry.modules[entry.1]? = some entry.2
  distinct : (idle.map Prod.fst).Nodup

theorem listed_toList (registry : Registry) : registry.Listed registry.modules.toList := by
  refine ⟨fun _ member => Std.TreeMap.mem_toList_iff_getElem?_eq_some.mp member,
    List.pairwise_map.mpr (Std.TreeMap.distinct_keys_toList.imp fun apart same => ?_)⟩
  exact apart (Std.LawfulEqOrd.compare_eq_iff_eq.mpr same)

theorem Listed.eraseP {idle : List (Text × CompiledModule)} (listed : registry.Listed idle)
    (key : Text) : registry.Listed (idle.eraseP fun entry => entry.1 == key) :=
  ⟨fun entry member => listed.stored entry (List.mem_of_mem_eraseP member),
    listed.distinct.sublist (List.eraseP_sublist.map _)⟩

theorem visit_grows (keyed : registry.Keyed) {idle : List (Text × CompiledModule)}
    (listed : registry.Listed idle) (visiting : List ModuleName) (importer : Path)
    (order : List CompiledModule) (name : ModuleName) {longer : List CompiledModule}
    (visited : visit registry.matching idle visiting importer order name = .ok longer) :
    registry.Grows idle [name] order longer := by
  fun_induction visit registry.matching idle visiting importer order name generalizing longer with
  | case1 idle visiting importer order name key present =>
    cases visited
    obtain ⟨compiled, member, same⟩ := List.any_eq_true.mp present
    refine ⟨List.Subset.refl _, id, fun wanted there => ?_, fun _ => .inl, fun _ => .inl⟩
    rw [List.mem_singleton.mp there]
    exact ⟨compiled, member, eq_of_beq same⟩
  | case2 idle visiting importer order name key absent entryKey compiled found _
      inductionHypothesis =>
    obtain rfl : entryKey = key := by simpa using List.find?_some found
    have member := List.mem_of_find?_eq_some found
    cases folded : compiled.dependencies.foldlM (visit registry.matching
        (idle.eraseP fun entry => entry.1 == key) (visiting ++ [name]) compiled.path) order with
    | error error =>
      rw [folded] at visited
      cases visited
    | ok between =>
      rw [folded] at visited
      cases visited
      have grows : registry.Grows (idle.eraseP fun entry => entry.1 == key) compiled.dependencies
          order between :=
        .foldlM (fun dependency _ order longer =>
          inductionHypothesis order dependency (listed.eraseP key)) folded
      refine grows.concat keyed (listed.stored _ member) (fun other member clash => absent ?_)
        (by rw [map_fst_eraseP]; exact listed.distinct.not_mem_erase)
        (List.eraseP_sublist.map _).subset
        (List.mem_map_of_mem member)
      exact List.any_eq_true.mpr ⟨other, member, beq_iff_eq.mpr clash⟩
  | case3 idle visiting importer order name key absent missing start closes => cases visited
  | case4 idle visiting importer order name key absent missing unmet => cases visited

/-! ## Whole orders -/

theorem order_grows (keyed : registry.Keyed) {roots : List ModuleName} {importer : Path}
    {modules : List CompiledModule} (ordered : registry.order roots importer = .ok modules) :
    registry.Grows registry.modules.toList roots [] modules :=
  .foldlM (fun name _ _ _ => visit_grows keyed registry.listed_toList _ _ _ name) ordered

theorem order_postorder (keyed : registry.Keyed) {roots : List ModuleName} {importer : Path}
    {modules : List CompiledModule} (ordered : registry.order roots importer = .ok modules) :
    registry.Postorder modules :=
  (order_grows keyed ordered).postorder postorder_nil

theorem lookup?_root (keyed : registry.Keyed) {roots : List ModuleName} {importer : Path}
    {modules : List CompiledModule} (ordered : registry.order roots importer = .ok modules)
    {root : ModuleName} (member : root ∈ roots) :
    ∃ imported ∈ modules, registry.lookup? root = some imported := by
  obtain ⟨imported, listed, same⟩ := (order_grows keyed ordered).covers root member
  refine ⟨imported, listed, ?_⟩
  rw [lookup?, ← same]
  exact (order_postorder keyed ordered).registered imported listed

/-- Along a path of dependencies, one module after the other is in the order. -/
theorem exists_of_reaches (keyed : registry.Keyed) {roots : List ModuleName} {importer : Path}
    {modules : List CompiledModule} (ordered : registry.order roots importer = .ok modules)
    {key : Text} (reaches : registry.Reaches roots key) :
    ∃ compiled ∈ modules, registry.keyOf compiled.name = key := by
  have postorder := order_postorder keyed ordered
  obtain ⟨root, there, path⟩ := reaches
  induction path with
  | refl => exact (order_grows keyed ordered).covers root there
  | tail _ edge inductionHypothesis =>
    obtain ⟨importing, member, rfl⟩ := inductionHypothesis
    obtain ⟨stored, found, dependency, imported, rfl⟩ := edge
    cases (postorder.registered importing member).symm.trans found
    obtain ⟨next, listed, looked⟩ := postorder.lookup?_dependency member imported
    exact ⟨next, listed, keyed _ _ looked⟩

/-- An order lists what the roots reach and nothing else. -/
theorem mem_order_iff (keyed : registry.Keyed) {roots : List ModuleName} {importer : Path}
    {modules : List CompiledModule} (ordered : registry.order roots importer = .ok modules)
    (compiled : CompiledModule) : compiled ∈ modules ↔ registry.Reached roots compiled := by
  have postorder := order_postorder keyed ordered
  constructor
  · intro member
    obtain ⟨root, there, path⟩ :=
      ((order_grows keyed ordered).reached compiled member).resolve_left List.not_mem_nil
    exact ⟨postorder.registered compiled member, root, there, path⟩
  · rintro ⟨registered, reaches⟩
    obtain ⟨found, member, same⟩ := exists_of_reaches keyed ordered reaches
    have stored := postorder.registered found member
    rw [lookup?, same, ← lookup?, registered] at stored
    cases stored
    exact member

end PageCompiler.Registry
