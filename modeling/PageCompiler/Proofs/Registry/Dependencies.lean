import Mathlib.Logic.Relation
import PageCompiler.Registry.Basic

/-! # The dependency graph of a registry

In a sound registry every module is stored under the key of its name, everything a module depends on
is registered, and no module depends on itself through others. Registering keeps a registry sound if
the dependencies of the new module are registered before it: nothing that is registered can depend
on a key that is not, so no edge leads into the new module.
-/

namespace PageCompiler.Registry

/-- The module under one key has a dependency whose name has the other key. -/
def DependsOn (registry : Registry) (key dependency : Text) : Prop :=
  ∃ compiled : CompiledModule, registry.modules[key]? = some compiled ∧
    ∃ name ∈ compiled.dependencies, registry.keyOf name = dependency

def Holds (registry : Registry) (names : List ModuleName) : Prop :=
  ∀ name ∈ names, registry.contains name = true

theorem holds_nil (registry : Registry) : registry.Holds [] :=
  fun _ member => absurd member List.not_mem_nil

/-- Every module is stored under the key of its name. -/
def Keyed (registry : Registry) : Prop :=
  ∀ (key : Text) (compiled : CompiledModule), registry.modules[key]? = some compiled →
    registry.keyOf compiled.name = key

structure Sound (registry : Registry) : Prop where
  keyed : ∀ (key : Text) (compiled : CompiledModule), registry.modules[key]? = some compiled →
    registry.keyOf compiled.name = key
  closed : ∀ (key : Text) (compiled : CompiledModule), registry.modules[key]? = some compiled →
    registry.Holds compiled.dependencies
  acyclic : ∀ key : Text, ¬ Relation.TransGen registry.DependsOn key key

/-- Every module of one registry is in the other. -/
structure Extends (after before : Registry) : Prop where
  matching : after.matching = before.matching
  retains : ∀ (key : Text) (compiled : CompiledModule), before.modules[key]? = some compiled →
    after.modules[key]? = some compiled

theorem contains_iff {registry : Registry} {name : ModuleName} :
    registry.contains name = true ↔
      ∃ compiled : CompiledModule, registry.modules[registry.keyOf name]? = some compiled := by
  rw [contains, Std.TreeMap.contains_eq_isSome_getElem?, Option.isSome_iff_exists]

namespace Extends

theorem refl (registry : Registry) : registry.Extends registry :=
  ⟨rfl, fun _ _ found => found⟩

theorem trans {first second third : Registry} (later : third.Extends second)
    (earlier : second.Extends first) : third.Extends first :=
  ⟨later.matching.trans earlier.matching,
    fun key compiled found => later.retains key compiled (earlier.retains key compiled found)⟩

theorem contains {before after : Registry} (extends_ : after.Extends before) {name : ModuleName}
    (registered : before.contains name = true) : after.contains name = true := by
  obtain ⟨compiled, found⟩ := contains_iff.mp registered
  refine contains_iff.mpr ⟨compiled, ?_⟩
  rw [keyOf, extends_.matching]
  exact extends_.retains _ _ found

theorem holds {before after : Registry} (extends_ : after.Extends before)
    {names : List ModuleName} (held : before.Holds names) : after.Holds names :=
  fun name member => extends_.contains (held name member)

end Extends

theorem sound_empty (matching : NameMatching) : (empty matching).Sound := by
  have nothing : ∀ key : Text, (empty matching).modules[key]? = none := fun key =>
    Std.TreeMap.getElem?_emptyc
  refine ⟨fun key compiled found => ?_, fun key compiled found => ?_, fun key cycle => ?_⟩
  · simp [nothing] at found
  · simp [nothing] at found
  · obtain ⟨next, ⟨compiled, found, -⟩, -⟩ := Relation.TransGen.head'_iff.mp cycle
    simp [nothing] at found

/-- A change of attachments and links changes no module. -/
theorem Sound.congr {before after : Registry} (sound : before.Sound)
    (matching : after.matching = before.matching) (modules : after.modules = before.modules) :
    after.Sound := by
  obtain ⟨_, _, _, _⟩ := before
  obtain ⟨_, _, _, _⟩ := after
  cases matching
  cases modules
  exact ⟨sound.keyed, sound.closed, sound.acyclic⟩

/-! ## Registering -/

/-- The registry with one more module, whose name has no module yet. -/
def add (registry : Registry) (compiled : CompiledModule) : Registry :=
  { registry with modules := registry.modules.insert (registry.keyOf compiled.name) compiled }

theorem register_cases {registry after : Registry} {compiled stored : CompiledModule}
    (registered : registry.register compiled = .ok (stored, after)) :
    (after = registry ∧ registry.contains compiled.name = true) ∨
      (after = registry.add compiled ∧ registry.contains compiled.name = false) := by
  rw [register, check] at registered
  cases found : registry.lookup? compiled.name with
  | none =>
    simp only [found] at registered
    cases registered
    refine .inr ⟨rfl, ?_⟩
    rwa [contains, Std.TreeMap.contains_eq_isSome_getElem?, Option.isSome_eq_false_iff,
      Option.isNone_iff_eq_none]
  | some existing =>
    simp only [found] at registered
    split at registered
    · cases registered
    · next checked =>
      cases registered
      exact .inl ⟨rfl, contains_iff.mpr ⟨existing, found⟩⟩
    · next checked =>
      split at checked <;> cases checked

theorem getElem?_add (registry : Registry) (compiled : CompiledModule) (key : Text) :
    (registry.add compiled).modules[key]? =
      if registry.keyOf compiled.name = key then some compiled else registry.modules[key]? := by
  rw [add, Std.TreeMap.getElem?_insert]
  simp only [Std.LawfulEqOrd.compare_eq_iff_eq]

section

variable {registry : Registry} {compiled : CompiledModule}

theorem contains_add_self : (registry.add compiled).contains compiled.name = true :=
  contains_iff.mpr ⟨compiled, by rw [getElem?_add]; exact if_pos rfl⟩

variable (fresh : registry.contains compiled.name = false)

include fresh

theorem keyOf_ne_of_contains {name : ModuleName} (registered : registry.contains name = true) :
    registry.keyOf compiled.name ≠ registry.keyOf name := by
  intro same
  rw [contains, ← same] at registered
  rw [contains, registered] at fresh
  cases fresh

theorem extends_add : (registry.add compiled).Extends registry := by
  refine ⟨rfl, fun key other found => ?_⟩
  rw [getElem?_add, if_neg]
  · exact found
  · rintro rfl
    rw [contains_iff.mpr ⟨other, found⟩] at fresh
    cases fresh

variable (sound : registry.Sound) (held : registry.Holds compiled.dependencies)

include sound held

/-- No edge leads into the new module, and no edge between the others is new. -/
theorem dependsOn_add {key dependency : Text}
    (edge : (registry.add compiled).DependsOn key dependency) :
    dependency ≠ registry.keyOf compiled.name ∧
      (key ≠ registry.keyOf compiled.name → registry.DependsOn key dependency) := by
  obtain ⟨other, found, name, member, rfl⟩ := edge
  rw [getElem?_add] at found
  split at found
  · next same =>
    cases found
    exact ⟨(keyOf_ne_of_contains fresh (held name member)).symm, fun different =>
      absurd same.symm different⟩
  · exact ⟨(keyOf_ne_of_contains fresh (sound.closed _ _ found name member)).symm, fun _ =>
      ⟨other, found, name, member, rfl⟩⟩

theorem transGen_dependsOn_add {first last : Text}
    (path : Relation.TransGen (registry.add compiled).DependsOn first last) :
    last ≠ registry.keyOf compiled.name ∧
      (first ≠ registry.keyOf compiled.name →
        Relation.TransGen registry.DependsOn first last) := by
  induction path with
  | single edge =>
    obtain ⟨old, between⟩ := dependsOn_add fresh sound held edge
    exact ⟨old, fun different => .single (between different)⟩
  | tail _ edge inductionHypothesis =>
    obtain ⟨old, between⟩ := dependsOn_add fresh sound held edge
    obtain ⟨middle, before⟩ := inductionHypothesis
    exact ⟨old, fun different => .tail (before different) (between middle)⟩

theorem sound_add : (registry.add compiled).Sound := by
  refine ⟨fun key other found => ?_, fun key other found => ?_, fun key cycle => ?_⟩
  · rw [getElem?_add] at found
    split at found
    · next same =>
      cases found
      exact same
    · exact sound.keyed key other found
  · rw [getElem?_add] at found
    apply (extends_add fresh).holds
    split at found
    · cases found
      exact held
    · exact sound.closed key other found
  · -- The key is the last one of a path, so it is not the new one and the cycle is not new.
    obtain ⟨old, before⟩ := transGen_dependsOn_add fresh sound held cycle
    exact sound.acyclic key (before old)

end

theorem Sound.register {registry after : Registry} {compiled stored : CompiledModule}
    (sound : registry.Sound) (held : registry.Holds compiled.dependencies)
    (registered : registry.register compiled = .ok (stored, after)) :
    after.Sound ∧ after.Extends registry ∧ after.contains compiled.name = true := by
  rcases register_cases registered with ⟨rfl, present⟩ | ⟨rfl, fresh⟩
  · exact ⟨sound, .refl _, present⟩
  · exact ⟨sound_add fresh sound held, extends_add fresh, contains_add_self⟩

theorem register_matching {registry after : Registry} {compiled stored : CompiledModule}
    (registered : registry.register compiled = .ok (stored, after)) :
    after.matching = registry.matching := by
  rcases register_cases registered with ⟨rfl, -⟩ | ⟨rfl, -⟩ <;> rfl

theorem register_error {registry : Registry} {compiled : CompiledModule} {error : BuildError}
    (refused : registry.register compiled = .error error) :
    ∃ name existing conflicting, error = .duplicateModule name existing conflicting := by
  rw [register, check] at refused
  cases found : registry.lookup? compiled.name with
  | none =>
    simp only [found] at refused
    cases refused
  | some existing =>
    simp only [found] at refused
    split at refused
    · next checked =>
      split at checked
      · cases checked
      · cases checked
        cases refused
        exact ⟨_, _, _, rfl⟩
    · cases refused
    · cases refused

end PageCompiler.Registry
