import Mathlib.Data.Nat.Basic

/-!
# Transition systems

A system has its own steps, and its surroundings may disturb it in between.  What every
step and every disturbance keeps holds of every reachable state; and when steps lower a
measure that a disturbance raises by at most one, a path has no more steps than the
measure it began with and the disturbances it met.
-/

namespace Opaal.Machine

structure System (σ : Type) where
  initial : σ → Prop
  step : σ → σ → Prop
  disturb : σ → σ → Prop

namespace System

variable {σ : Type} (system : System σ)

/-- A path, with the number of its steps and of its disturbances. -/
inductive Path : σ → Nat → Nat → σ → Prop where
  | refl (state : σ) : Path state 0 0 state
  | step {first middle last : σ} {steps disturbances : Nat} (path : Path first steps disturbances middle)
      (step : system.step middle last) : Path first (steps + 1) disturbances last
  | disturb {first middle last : σ} {steps disturbances : Nat} (path : Path first steps disturbances middle)
      (disturb : system.disturb middle last) : Path first steps (disturbances + 1) last

def Reachable (state : σ) : Prop :=
  ∃ first steps disturbances, system.initial first ∧ system.Path first steps disturbances state

/-- What holds initially and is kept. -/
structure Inductive (holds : σ → Prop) : Prop where
  initial : ∀ state, system.initial state → holds state
  step : ∀ before after, holds before → system.step before after → holds after
  disturb : ∀ before after, holds before → system.disturb before after → holds after

variable {system} {holds : σ → Prop}

theorem Inductive.path (kept : system.Inductive holds) {first last : σ} {steps disturbances : Nat}
    (path : system.Path first steps disturbances last) (start : holds first) : holds last := by
  induction path with
  | refl => exact start
  | step _ step ih => exact kept.step _ _ ih step
  | disturb _ disturb ih => exact kept.disturb _ _ ih disturb

theorem Inductive.reachable (kept : system.Inductive holds) {state : σ} (reachable : system.Reachable state) :
    holds state := by
  obtain ⟨first, _, _, initial, path⟩ := reachable
  exact kept.path path (kept.initial first initial)

/-- The length of a path is bounded by the measure of its first state and the disturbances. -/
theorem Inductive.bounded (kept : system.Inductive holds) {measure : σ → Nat}
    (lowers : ∀ before after, holds before → system.step before after → measure after < measure before)
    (raises : ∀ before after, holds before → system.disturb before after → measure after ≤ measure before + 1)
    {first last : σ} {steps disturbances : Nat} (path : system.Path first steps disturbances last)
    (start : holds first) : steps + measure last ≤ measure first + disturbances := by
  induction path with
  | refl => omega
  | step path step ih =>
    have lower := lowers _ _ (kept.path path start) step
    omega
  | disturb path disturb ih =>
    have raise := raises _ _ (kept.path path start) disturb
    omega

end System

end Opaal.Machine
