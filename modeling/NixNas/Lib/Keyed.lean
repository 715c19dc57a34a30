import Mathlib.Logic.Function.Basic
import Mathlib.Data.List.Nodup

/-!
# Commands on a store by key

Each command changes the value at one key.  What a list of them leaves at a key is what those of
this key make of the value there, in their order.
-/

namespace Keyed

variable {K V C : Type*} [DecidableEq K]
variable {store : K → Option V} {cs : List C} {k : K}

/-- The key of a command, and what the command makes of the value there. -/
structure Semantics (K V C : Type*) where
  key : C → K
  act : C → Option V → Option V

variable (sem : Semantics K V C)

def Semantics.step (store : K → Option V) (c : C) : K → Option V :=
  Function.update store (sem.key c) (sem.act c (store (sem.key c)))

def Semantics.run (store : K → Option V) (cs : List C) : K → Option V := cs.foldl sem.step store

theorem Semantics.step_apply (store : K → Option V) (c : C) (k : K) :
    sem.step store c k = if sem.key c = k then sem.act c (store k) else store k := by
  by_cases hk : sem.key c = k
  · subst hk
    simp [Semantics.step]
  · rw [if_neg hk]
    exact Function.update_of_ne (Ne.symm hk) _ _

theorem Semantics.run_append (store : K → Option V) (cs ds : List C) :
    sem.run store (cs ++ ds) = sem.run (sem.run store cs) ds := List.foldl_append

theorem Semantics.run_apply (store : K → Option V) (cs : List C) (k : K) :
    sem.run store cs k = (cs.filter (sem.key · = k)).foldl (fun v c ↦ sem.act c v) (store k) := by
  induction cs generalizing store with
  | nil => rfl
  | cons c cs ih =>
    have hstep := ih (sem.step store c)
    rw [sem.step_apply] at hstep
    by_cases hk : sem.key c = k
    · rw [if_pos hk] at hstep
      rw [List.filter_cons_of_pos (by simpa using hk)]
      exact hstep
    · rw [if_neg hk] at hstep
      rw [List.filter_cons_of_neg (by simpa using hk)]
      exact hstep

theorem Semantics.run_of_forall_ne
    (h : ∀ c ∈ cs, sem.key c ≠ k) : sem.run store cs k = store k := by
  rw [sem.run_apply, List.filter_eq_nil_iff.mpr]
  · rfl
  · intro c hc
    simpa using h c hc

theorem Semantics.run_of_forall_eq (h : ∀ c ∈ cs, sem.key c = k) :
    sem.run store cs k = cs.foldl (fun v c ↦ sem.act c v) (store k) := by
  rw [sem.run_apply, List.filter_eq_self.mpr]
  intro c hc
  simpa using h c hc

/-- Groups of commands, each of them for a key of its own: at the key of a group only that group
counts. -/
theorem Semantics.run_flatMap {G : Type*} {key : G → K} {group : G → List C} {gs : List G}
    (hkey : ∀ g ∈ gs, ∀ c ∈ group g, sem.key c = key g) (hnodup : (gs.map key).Nodup)
    (store : K → Option V) {g : G} (hg : g ∈ gs) :
    sem.run store (gs.flatMap group) (key g) =
      (group g).foldl (fun v c ↦ sem.act c v) (store (key g)) := by
  induction gs generalizing store with
  | nil => cases hg
  | cons g' gs ih =>
    rw [List.forall_mem_cons] at hkey
    rw [List.map_cons, List.nodup_cons] at hnodup
    rw [List.flatMap_cons, sem.run_append]
    rcases List.mem_cons.mp hg with rfl | hmem
    · -- No later group is for this key.
      rw [sem.run_of_forall_ne, sem.run_of_forall_eq hkey.1]
      intro c hc
      obtain ⟨g', hg', hc⟩ := List.mem_flatMap.mp hc
      rw [hkey.2 g' hg' c hc]
      intro heq
      exact hnodup.1 (heq ▸ List.mem_map_of_mem hg')
    · rw [ih hkey.2 hnodup.2 _ hmem, sem.run_of_forall_ne]
      intro c hc
      rw [hkey.1 c hc]
      intro heq
      exact hnodup.1 (heq ▸ List.mem_map_of_mem hmem)

end Keyed
