import Mathlib.Logic.Relation

/-!
# Labelled transition systems

A run is a list of labelled steps.  The rules below carry an invariant along a run, either from
every step or only from the steps that meet a side condition.
-/

namespace Transition

variable {σ α : Type*}
variable {Inv : σ → Prop} {next : σ → α → Option σ}

/-- The states joined by a list of labelled steps. -/
inductive Run (step : σ → α → σ → Prop) : σ → List α → σ → Prop where
  | nil (s : σ) : Run step s [] s
  | cons {s t u : σ} {a : α} {as : List α} :
      step s a t → Run step t as u → Run step s (a :: as) u

variable {step : σ → α → σ → Prop} {s t u : σ} {a : α} {as bs : List α}

theorem Run.append (h : Run step s as t) (h' : Run step t bs u) : Run step s (as ++ bs) u := by
  induction h with
  | nil => exact h'
  | cons hstep _ ih => exact .cons hstep (ih h')

theorem Run.snoc (h : Run step s as t) (hstep : step t a u) : Run step s (as ++ [a]) u :=
  h.append (.cons hstep (.nil u))

theorem Run.invariant (h : Run step s as t) (hs : Inv s)
    (hstep : ∀ s a t, Inv s → step s a t → Inv t) : Inv t := by
  induction h with
  | nil => exact hs
  | cons h _ ih => exact ih (hstep _ _ _ hs h)

theorem run_of_foldlM (h : as.foldlM next s = some t) :
    Run (fun s a t ↦ next s a = some t) s as t := by
  induction as generalizing s with
  | nil =>
    obtain rfl : s = t := Option.some.inj h
    exact .nil s
  | cons a as ih =>
    rw [List.foldlM_cons, Option.bind_eq_bind, Option.bind_eq_some_iff] at h
    obtain ⟨u, hstep, hrest⟩ := h
    exact .cons hstep (ih hrest)

theorem run_foldl (next : σ → α → σ) (as : List α) (s : σ) :
    Run (fun s a t ↦ t = next s a) s as (as.foldl next s) := by
  induction as generalizing s with
  | nil => exact .nil s
  | cons a as ih => exact .cons rfl (ih (next s a))

theorem foldlM_split (front : List α) (s : σ) (h : (front ++ a :: as).foldlM next s = some t) :
    ∃ u v, front.foldlM next s = some u ∧ next u a = some v ∧ as.foldlM next v = some t := by
  rw [List.foldlM_append, Option.bind_eq_bind, Option.bind_eq_some_iff] at h
  obtain ⟨u, hfront, h⟩ := h
  rw [List.foldlM_cons, Option.bind_eq_bind, Option.bind_eq_some_iff] at h
  obtain ⟨v, hstep, hrest⟩ := h
  exact ⟨u, v, hfront, hstep, hrest⟩

/-- A state is reachable when some run leads to it. -/
def Reachable (step : σ → α → σ → Prop) (s t : σ) : Prop := ∃ as, Run step s as t

theorem Reachable.refl (s : σ) : Reachable step s s := ⟨[], .nil s⟩

theorem Reachable.tail (h : Reachable step s t) (hstep : step t a u) : Reachable step s u :=
  let ⟨as, h⟩ := h
  ⟨as ++ [a], h.snoc hstep⟩

theorem Reachable.trans (h : Reachable step s t) (h' : Reachable step t u) : Reachable step s u :=
  let ⟨as, h⟩ := h
  let ⟨bs, h'⟩ := h'
  ⟨as ++ bs, h.append h'⟩

theorem Reachable.invariant (h : Reachable step s t) (hs : Inv s)
    (hstep : ∀ s a t, Inv s → step s a t → Inv t) : Inv t :=
  let ⟨_, h⟩ := h
  h.invariant hs hstep

end Transition
