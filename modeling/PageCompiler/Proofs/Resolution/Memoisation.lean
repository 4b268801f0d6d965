import PageCompiler.Proofs.Resolution.Cycles
import PageCompiler.Proofs.Resolution.Session

/-! # Memoisation is invisible

A module that is registered is not looked at again, so what it is might depend on what was resolved
before. Where names are compared as they are written it does not: every call keeps the registry
faithful to the files, also if it ends with an error, and in a faithful registry a module is what
its file and the files behind its imports make of it.
-/

namespace PageCompiler

open FileSystem (view)

/-- A call that resolves something, so it changes neither the bindings nor the files. -/
def ResolverCall.IsResolution {σ : Type} : ResolverCall σ → Prop
  | .loadBindings | .resolveImports _ => True
  | .bind _ _ | .changeFiles _ => False

/-- What a module is made from does not depend on which included files are left out. -/
theorem View.Made.of_exclusions {view : View} {resolver : Resolver} {exclusions : List Text}
    {matching : NameMatching} {compiled : CompiledModule}
    (made : view.Made { resolver with exclusions := exclusions } matching compiled) :
    view.Made resolver matching compiled := by
  induction made with
  | compile matches_ sound _ loads compiles inductionHypothesis =>
    exact .compile matches_ sound inductionHypothesis loads compiles

namespace Session

variable {σ : Type} [FileSystem (StateM σ)]

/-- The files answer as in the view, and the registry is faithful to it. -/
structure Tracks (session : Session σ) (seen : View) (given : Resolver)
    (matching : NameMatching) : Prop where
  view : FileSystem.view session.files = seen
  resolver : session.resolver = given
  matching : session.resolution.registry.matching = matching
  faithful : session.resolution.registry.Faithful seen given

theorem tracks_start (files : σ) (resolver : Resolver) (matching : NameMatching) :
    (start resolver matching files).Tracks (view files) resolver matching :=
  ⟨rfl, rfl, rfl, Registry.faithful_empty matching⟩

variable [LawfulFileSystem σ] {seen : View} {given : Resolver} {matching : NameMatching}

theorem Tracks.call {session : Session σ} (tracks : session.Tracks seen given matching)
    {call : ResolverCall σ} (resolves : call.IsResolution) :
    (session.call call).2.Tracks seen given matching := by
  obtain ⟨sameView, sameResolver, sameMatching, faithful⟩ := tracks
  subst sameView sameResolver
  cases call with
  | bind _ _ => exact resolves.elim
  | changeFiles _ => exact resolves.elim
  | loadBindings =>
    have kept := (loadBindings_admits session.resolver session.resolution session.files
      fun _ : True => faithful).keeps
    exact ⟨kept.view, rfl, kept.matching.trans sameMatching, kept.faithful trivial⟩
  | resolveImports source =>
    have kept := (resolveImports_admits session.resolver source session.resolution session.files
      fun _ : True => faithful).keeps
    exact ⟨kept.view, rfl, kept.matching.trans sameMatching, kept.faithful trivial⟩

theorem Tracks.run {session : Session σ} (tracks : session.Tracks seen given matching)
    {calls : List (ResolverCall σ)} (resolve : ∀ call ∈ calls, call.IsResolution) :
    (session.run calls).Tracks seen given matching := by
  induction calls generalizing session with
  | nil => exact tracks
  | cons call calls inductionHypothesis =>
    exact inductionHypothesis (tracks.call (resolve call List.mem_cons_self))
      fun other member => resolve other (List.mem_cons_of_mem _ member)

/-- Two sessions that start from the same files and search them in the same way have the same module
under a name, whatever they resolved before it and however their calls ended. -/
theorem run_modules_agree (files : σ) (resolver : Resolver) (exclusions : List Text)
    (calls otherCalls : List (ResolverCall σ)) (resolve : ∀ call ∈ calls, call.IsResolution)
    (othersResolve : ∀ call ∈ otherCalls, call.IsResolution) {name : ModuleName}
    {compiled other : CompiledModule}
    (found : ((start resolver .exact files).run calls).resolution.registry.lookup? name =
      some compiled)
    (otherFound : ((start { resolver with exclusions := exclusions } .exact files).run
      otherCalls).resolution.registry.lookup? name = some other) :
    compiled = other := by
  obtain ⟨-, -, exact_, faithful⟩ := (tracks_start files resolver .exact).run resolve
  obtain ⟨-, -, otherExact, otherFaithful⟩ := (tracks_start files
    { resolver with exclusions := exclusions } .exact).run othersResolve
  -- Both modules are made from the same files, and what is made under a name is unique.
  have made := faithful.made _ _ found
  have otherMade := otherFaithful.made _ _ otherFound
  rw [exact_] at made
  rw [otherExact] at otherMade
  exact made.unique otherMade.of_exclusions ((faithful.sound.name_eq exact_ found).trans
    (otherFaithful.sound.name_eq otherExact otherFound).symm)

section

open UserInterface

/-- A session with one call. -/
def diamondSession : Session Store :=
  (start (settings .exact) .exact store).run [.resolveImports diamondPage]

/-- A session that leaves a stylesheet out; its second call ends with a cycle. -/
def ringSession : Session Store :=
  (start { settings .exact with exclusions := ["margin".toList] } .exact store).run
    [.loadBindings, .resolveImports ringPage, .resolveImports diamondPage]

theorem run_modules_agree_userInterface :
    ∃ compiled, diamondSession.resolution.registry.lookup? left = some compiled ∧
      ringSession.resolution.registry.lookup? left = some compiled := by
  have first : (diamondSession.resolution.registry.lookup? left).isSome = true := by
    decide +kernel
  have second : (ringSession.resolution.registry.lookup? left).isSome = true := by
    decide +kernel
  obtain ⟨compiled, found⟩ := Option.isSome_iff_exists.mp first
  obtain ⟨other, otherFound⟩ := Option.isSome_iff_exists.mp second
  have same : compiled = other := run_modules_agree store (settings .exact) ["margin".toList]
    [.resolveImports diamondPage]
    [.loadBindings, .resolveImports ringPage, .resolveImports diamondPage]
    (by simp [ResolverCall.IsResolution]) (by simp [ResolverCall.IsResolution]) found otherFound
  exact ⟨compiled, found, same ▸ otherFound⟩

end

end Session

end PageCompiler
