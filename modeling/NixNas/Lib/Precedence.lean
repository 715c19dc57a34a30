import Mathlib.Data.List.Sort
import Mathlib.Logic.Relation
import Mathlib.Order.Extension.Linear

/-!
# Lists that put one thing before another

A relation says what has to stand before what.  A list has an order that obeys it exactly when the
relation closes no circle inside the list.
-/

open Relation

namespace Precedence

universe u

variable {α : Type u} {R : α → α → Prop} {l l' : List α}

/-- Nothing stands in front of what has to come before it. -/
def Respects (R : α → α → Prop) (l : List α) : Prop := l.Pairwise fun b a => ¬ R a b

def Within (l : List α) (R : α → α → Prop) (a b : α) : Prop := a ∈ l ∧ b ∈ l ∧ R a b

/-- Some chain of the relation leads back to where it began. -/
def Circular (R : α → α → Prop) (l : List α) : Prop := ∃ a, TransGen (Within l R) a a

theorem idxOf_lt_of_respects [DecidableEq α] (h : Respects R l) (hirrefl : ∀ a ∈ l, ¬ R a a)
    {a b : α} (hR : Within l R a b) : l.idxOf a < l.idxOf b := by
  obtain ⟨ha, hb, hab⟩ := hR
  have hla := List.idxOf_lt_length_of_mem ha
  have hlb := List.idxOf_lt_length_of_mem hb
  by_contra hle
  -- the two are apart, as nothing comes before itself
  have hne : l.idxOf a ≠ l.idxOf b := by
    intro heq
    have hsame : a = b := (List.idxOf_inj ha).mp heq
    rw [← hsame] at hab
    exact hirrefl a ha hab
  have hlt : l.idxOf b < l.idxOf a := by omega
  have hfree := List.pairwise_iff_getElem.mp h _ _ hlb hla hlt
  rw [List.getElem_idxOf, List.getElem_idxOf] at hfree
  exact hfree hab

theorem not_circular_of_respects (h : Respects R l) (hirrefl : ∀ a ∈ l, ¬ R a a) :
    ¬ Circular R l := by
  classical
  rintro ⟨a, ha⟩
  have hlt : ∀ b, TransGen (Within l R) a b → l.idxOf a < l.idxOf b := by
    intro b hb
    induction hb with
    | single hab => exact idxOf_lt_of_respects h hirrefl hab
    | tail _ hbc ih => exact ih.trans (idxOf_lt_of_respects h hirrefl hbc)
  exact absurd (hlt a ha) (lt_irrefl _)

/-- Without a circle the relation lies in a linear order, and sorting by it obeys the relation. -/
theorem exists_respects (hnodup : l.Nodup) (h : ¬ Circular R l) :
    ∃ l', l'.Perm l ∧ Respects R l' := by
  classical
  have hantisymm : ∀ a b, ReflTransGen (Within l R) a b → ReflTransGen (Within l R) b a → a = b := by
    intro a b hab hba
    rcases reflTransGen_iff_eq_or_transGen.mp hab with heq | hab
    · exact heq.symm
    · exact (h ⟨a, hab.trans_left hba⟩).elim
  have hpartial : IsPartialOrder α (ReflTransGen (Within l R)) :=
    { refl := fun _ => .refl
      trans := fun _ _ _ => .trans
      antisymm := hantisymm }
  obtain ⟨s, hlinear, hs⟩ := extend_partialOrder (ReflTransGen (Within l R))
  refine ⟨l.insertionSort s, List.perm_insertionSort s l, ?_⟩
  have hsorted : (l.insertionSort s).Pairwise s := List.pairwise_insertionSort s l
  have hapart : (l.insertionSort s).Pairwise (· ≠ ·) :=
    (List.perm_insertionSort s l).symm.nodup hnodup
  apply (hsorted.and hapart).imp_of_mem
  intro b a hb ha hba hR
  have ha' : a ∈ l := (List.mem_insertionSort s).mp ha
  have hb' : b ∈ l := (List.mem_insertionSort s).mp hb
  exact hba.2 (hlinear.antisymm b a hba.1 (hs a b (.single ⟨ha', hb', hR⟩)))

theorem exists_respects_iff (hnodup : l.Nodup) (hirrefl : ∀ a ∈ l, ¬ R a a) :
    (∃ l', l'.Perm l ∧ Respects R l') ↔ ¬ Circular R l := by
  constructor
  · rintro ⟨l', hperm, h⟩ ⟨a, ha⟩
    apply not_circular_of_respects h (fun b hb => hirrefl b (hperm.mem_iff.mp hb))
    have hwithin : ∀ b c, Within l R b c → Within l' R b c := fun b c hbc =>
      ⟨hperm.mem_iff.mpr hbc.1, hperm.mem_iff.mpr hbc.2.1, hbc.2.2⟩
    exact ⟨a, TransGen.mono hwithin a a ha⟩
  · exact exists_respects hnodup

end Precedence
