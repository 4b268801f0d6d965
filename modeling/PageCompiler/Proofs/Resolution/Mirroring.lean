import Mathlib.Data.List.Forall2
import PageCompiler.Proofs.Resolution.Step

/-! # Two runs of resolution

`Mirrors related step other` compares two steps that are run on the same files, from two resolutions
that are related: whenever the first step succeeds, the second one succeeds with the same value,
leaves the same files and comes to a related resolution. What a failure of the first step means for
the second one is left open.
-/

namespace PageCompiler

variable {σ α β γ : Type}

def Mirrors (related : Resolution → Resolution → Prop) (step other : ResolveM (StateM σ) α) :
    Prop :=
  ∀ resolution resolutionToo : Resolution, related resolution resolutionToo →
    ∀ (after : Resolution) (files left : σ) (value : α),
      (step.run.run resolution).run files = ((.ok value, after), left) →
        ∃ afterToo, (other.run.run resolutionToo).run files = ((.ok value, afterToo), left) ∧
          related after afterToo

namespace Mirrors

variable {related : Resolution → Resolution → Prop}

theorem pure (value : α) :
    Mirrors related (Pure.pure value : ResolveM (StateM σ) α) (Pure.pure value) := by
  intro resolution resolutionToo relates after files left result succeeds
  cases succeeds
  exact ⟨resolutionToo, rfl, relates⟩

theorem throw (error : BuildError) (other : ResolveM (StateM σ) α) :
    Mirrors related (throw error : ResolveM (StateM σ) α) other :=
  fun _ _ _ _ _ _ _ succeeds => nomatch succeeds

theorem bind {first firstToo : ResolveM (StateM σ) β} {next nextToo : β → ResolveM (StateM σ) α}
    (before : Mirrors related first firstToo)
    (behind : ∀ value, Mirrors related (next value) (nextToo value)) :
    Mirrors related (first >>= next) (firstToo >>= nextToo) := by
  intro resolution resolutionToo relates after files left value succeeds
  rw [resolve_bind_run] at succeeds
  rcases outcome : (first.run.run resolution).run files with ⟨⟨error | between, middle⟩, leftover⟩
  · rw [outcome] at succeeds
    cases succeeds
  · rw [outcome] at succeeds
    obtain ⟨middleToo, outcomeToo, relatesThen⟩ := before _ _ relates _ _ _ _ outcome
    rw [resolve_bind_run, outcomeToo]
    exact behind between _ _ relatesThen _ _ _ _ succeeds

theorem get_bind {next nextToo : Resolution → ResolveM (StateM σ) α}
    (steps : ∀ resolution resolutionToo, related resolution resolutionToo →
      Mirrors related (next resolution) (nextToo resolutionToo)) :
    Mirrors related (get >>= next) (get >>= nextToo) :=
  fun resolution resolutionToo relates =>
    steps resolution resolutionToo relates resolution resolutionToo relates

theorem modify {change changeToo : Resolution → Resolution}
    (changes : ∀ resolution resolutionToo, related resolution resolutionToo →
      related (change resolution) (changeToo resolutionToo)) :
    Mirrors related (modify change : ResolveM (StateM σ) PUnit) (modify changeToo) := by
  intro resolution resolutionToo relates after files left value succeeds
  cases succeeds
  exact ⟨_, rfl, changes _ _ relates⟩

theorem set {resolution resolutionToo : Resolution} (relates : related resolution resolutionToo) :
    Mirrors related (set resolution : ResolveM (StateM σ) PUnit) (set resolutionToo) := by
  intro _ _ _ after files left value succeeds
  cases succeeds
  exact ⟨_, rfl, relates⟩

theorem lift (action : StateM σ α) :
    Mirrors related (liftM action : ResolveM (StateM σ) α) (liftM action) := by
  intro resolution resolutionToo relates after files left value succeeds
  cases succeeds
  exact ⟨resolutionToo, rfl, relates⟩

theorem forM {list : List β} {listToo : List γ} {step : β → ResolveM (StateM σ) PUnit}
    {stepToo : γ → ResolveM (StateM σ) PUnit}
    (steps : List.Forall₂ (fun element elementToo =>
      Mirrors related (step element) (stepToo elementToo)) list listToo) :
    Mirrors related (list.forM step) (listToo.forM stepToo) := by
  induction steps with
  | nil => exact pure _
  | cons first _ inductionHypothesis => exact first.bind fun _ => inductionHypothesis

end Mirrors

end PageCompiler
