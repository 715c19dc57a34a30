import Mathlib.Data.Fintype.EquivFin
import Mathlib.Data.List.Chain

/-!
# Finite directed graphs

A graph is the relation of its edges.  What lies below a vertex without a cycle can be reached by
induction, and a cycle is shown by the list of its vertices.
-/

open Relation

namespace Digraph

variable {ι : Type*} {R : ι → ι → Prop}
variable {i j : ι} {s : Set ι}

/-- No vertex that is reached from the root lies on a cycle. -/
def AcyclicFrom (R : ι → ι → Prop) (root : ι) : Prop := ∀ i, ReflTransGen R root i → ¬ TransGen R i i

theorem AcyclicFrom.step (h : AcyclicFrom R i) (hij : R i j) : AcyclicFrom R j :=
  fun k hk => h k (.head hij hk)

/-- Among finitely many vertices, what passes from the successors to a vertex holds of every vertex
without a cycle below. -/
theorem AcyclicFrom.induction [Finite ι] {P : ι → Prop}
    (hstep : ∀ i, AcyclicFrom R i → (∀ j, R i j → P j) → P i) {root : ι} (h : AcyclicFrom R root) :
    P root := by
  let Under := fun j i ↦ TransGen R i j ∧ AcyclicFrom R i
  have htrans : IsTrans ι Under := ⟨fun _ _ _ hkj hji => ⟨hji.1.trans hkj.1, hji.2⟩⟩
  have hirrefl : Std.Irrefl Under := ⟨fun i hi => hi.2 i .refl hi.1⟩
  have hwf : WellFounded Under := Finite.wellFounded_of_trans_of_irrefl Under
  induction root using hwf.induction with
  | h i ih =>
    apply hstep i h
    intro j hij
    exact ih j ⟨.single hij, h⟩ (h.step hij)

def Closed (R : ι → ι → Prop) (s : Set ι) : Prop := ∀ i ∈ s, ∀ j, R i j → j ∈ s

theorem Closed.mem_of_transGen (h : Closed R s) (hi : i ∈ s) (hij : TransGen R i j) : j ∈ s := by
  induction hij with
  | single hedge => exact h _ hi _ hedge
  | tail _ hedge hmem => exact h _ hmem _ hedge

theorem Closed.not_transGen_self (h : Closed R s) (hi : i ∉ s)
    (hedges : ∀ j, R i j → j ∈ s) : ¬ TransGen R i i := by
  intro hcycle
  obtain ⟨j, hij, hji⟩ := TransGen.head'_iff.mp hcycle
  rcases reflTransGen_iff_eq_or_transGen.mp hji with rfl | hji
  · exact hi (hedges _ hij)
  · exact hi (h.mem_of_transGen (hedges _ hij) hji)

/-- Each vertex of the list has an edge to the next one, and the last one is the first. -/
structure IsCycle (R : ι → ι → Prop) (cycle : List ι) : Prop where
  edges : cycle.IsChain R
  closed : ∃ i rest, rest ≠ [] ∧ cycle = i :: rest ∧ rest.getLast? = some i

theorem transGen_of_isChain {rest : List ι} (h : (i :: rest).IsChain R)
    (hlast : rest.getLast? = some j) : TransGen R i j := by
  induction rest generalizing i with
  | nil => cases hlast
  | cons k rest ih =>
    rw [List.isChain_cons_cons] at h
    cases rest with
    | nil =>
      cases hlast
      exact .single h.1
    | cons l rest =>
      rw [List.getLast?_cons_cons] at hlast
      exact .head h.1 (ih h.2 hlast)

theorem IsCycle.transGen {cycle : List ι} (h : IsCycle R cycle) : ∃ i ∈ cycle, TransGen R i i := by
  obtain ⟨i, rest, hne, rfl, hlast⟩ := h.closed
  exact ⟨i, .head rest, transGen_of_isChain h.edges hlast⟩

theorem exists_edge_of_mem_dropLast {walk : List ι} (h : walk.IsChain R)
    (hi : i ∈ walk.dropLast) : ∃ j, R i j := by
  induction walk with
  | nil => cases hi
  | cons k walk ih =>
    cases walk with
    | nil => cases hi
    | cons j walk =>
      rw [List.isChain_cons_cons] at h
      rw [List.dropLast_cons_cons] at hi
      rcases List.mem_cons.mp hi with rfl | hi
      · exact ⟨j, h.1⟩
      · exact ih h.2 hi

theorem isCycle_of_walk {before after : List ι}
    (h : (before ++ i :: after ++ [i]).IsChain R) : IsCycle R (i :: after ++ [i]) := by
  refine ⟨?_, i, after ++ [i], by simp, rfl, by simp⟩
  rw [List.append_assoc] at h
  exact h.right_of_append

end Digraph
