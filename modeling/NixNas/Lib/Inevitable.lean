import Mathlib.Order.Basic
import NixNas.Lib.Transition

/-!
# Inevitable states

A goal is inevitable when there is a way on until it is reached, and every way on leads to it.
-/

namespace Transition

variable {σ α : Type*}

/-- Whatever steps are taken, the goal is reached. -/
inductive Inevitable (step : σ → α → σ → Prop) (goal : σ → Prop) : σ → Prop where
  | now {s : σ} (h : goal s) : Inevitable step goal s
  | later {s : σ} (hsome : ∃ a t, step s a t) (hall : ∀ a t, step s a t → Inevitable step goal t) :
      Inevitable step goal s

variable {step : σ → α → σ → Prop} {goal : σ → Prop} {s t : σ}

theorem inevitable_of_rank (Inv : σ → Prop) (rank : σ → ℕ)
    (hsome : ∀ s, Inv s → ¬ goal s → ∃ a t, step s a t)
    (hstep : ∀ s a t, Inv s → step s a t → Inv t ∧ rank t < rank s) (hs : Inv s) :
    Inevitable step goal s := by
  -- on the rank of the state
  induction hrank : rank s using Nat.strongRecOn generalizing s with
  | ind n ih =>
    by_cases hgoal : goal s
    · exact .now hgoal
    · refine .later (hsome s hs hgoal) fun a t h => ?_
      obtain ⟨ht, hlt⟩ := hstep s a t hs h
      exact ih (rank t) (by omega) ht rfl

theorem Inevitable.reachable (h : Inevitable step goal s) : ∃ t, Reachable step s t ∧ goal t := by
  induction h with
  | now h => exact ⟨_, .refl _, h⟩
  | later hsome hall ih =>
    obtain ⟨a, t, hstep⟩ := hsome
    obtain ⟨u, ⟨as, hrun⟩, hgoal⟩ := ih a t hstep
    exact ⟨u, ⟨a :: as, .cons hstep hrun⟩, hgoal⟩

theorem not_inevitable_of_trap (Trap : σ → Prop)
    (hstep : ∀ s a t, Trap s → step s a t → Trap t)
    (hgoal : ∀ s, Trap s → ¬ goal s) (hs : Trap s) : ¬ Inevitable step goal s := by
  intro h
  obtain ⟨t, ⟨as, hrun⟩, ht⟩ := h.reachable
  exact hgoal t (hrun.invariant hs hstep) ht

end Transition
