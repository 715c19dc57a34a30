import Mathlib.Data.Finset.SDiff

/-!
# Objects that are removed after a list of the last round

A round puts the objects it wants in place, removes those that the list names and it does not
want, and then becomes the list.  It may stop before each of these effects.
-/

namespace Ledger

variable {α : Type*}

structure State (α : Type*) where
  present : Finset α
  listed : Finset α

def State.start : State α := ⟨∅, ∅⟩

/-- How far a round comes. -/
inductive Extent where
  | nothing
  | applied
  | recorded
deriving DecidableEq, Repr

structure Round (α : Type*) where
  wanted : Finset α
  extent : Extent

def listedAfter (rounds : List (Round α)) : Finset α :=
  rounds.foldl (fun listed r ↦ if r.extent = .recorded then r.wanted else listed) ∅

/-- A round has put the object in place without listing it, the list did not name it at the time,
and no recorded round has wanted it since. -/
def Stray (rounds : List (Round α)) (x : α) : Prop :=
  ∃ front r rest, rounds = front ++ r :: rest ∧ r.extent = .applied ∧ x ∈ r.wanted ∧
    x ∉ listedAfter front ∧ ∀ later ∈ rest, later.extent = .recorded → x ∉ later.wanted

variable {rounds : List (Round α)} {r : Round α} {x : α}

theorem listedAfter_concat : listedAfter (rounds ++ [r]) =
    if r.extent = .recorded then r.wanted else listedAfter rounds := List.foldl_concat ..

theorem stray_concat : Stray (rounds ++ [r]) x ↔
    (Stray rounds x ∧ (r.extent = .recorded → x ∉ r.wanted)) ∨
      (r.extent = .applied ∧ x ∈ r.wanted ∧ x ∉ listedAfter rounds) := by
  constructor
  · rintro ⟨front, r', rest, heq, happlied, hwanted, hlisted, hlater⟩
    rcases List.eq_nil_or_concat rest with rfl | ⟨rest, last, rfl⟩
    · obtain ⟨rfl, hr⟩ := List.append_inj' heq rfl
      obtain rfl := List.cons.inj hr |>.1
      exact .inr ⟨happlied, hwanted, hlisted⟩
    · rw [List.concat_eq_append, ← List.cons_append, ← List.append_assoc] at heq
      obtain ⟨rfl, hr⟩ := List.append_inj' heq rfl
      obtain rfl := List.cons.inj hr |>.1
      left
      refine ⟨⟨front, r', rest, rfl, happlied, hwanted, hlisted, fun later hmem => ?_⟩, ?_⟩
      · exact hlater later (by simp [hmem])
      · exact hlater r (by simp)
  · rintro (⟨⟨front, r', rest, rfl, happlied, hwanted, hlisted, hlater⟩, hlast⟩ |
      ⟨happlied, hwanted, hlisted⟩)
    · refine ⟨front, r', rest ++ [r], by simp, happlied, hwanted, hlisted, fun later hmem => ?_⟩
      rcases List.mem_append.mp hmem with hold | hnew
      · exact hlater later hold
      · rw [List.mem_singleton.mp hnew]
        exact hlast
    · exact ⟨rounds, r, [], rfl, happlied, hwanted, hlisted, nofun⟩

variable [DecidableEq α]

def State.apply (s : State α) (wanted : Finset α) : Finset α :=
  (s.present ∪ wanted) \ (s.listed \ wanted)

def State.step (s : State α) (r : Round α) : State α :=
  match r.extent with
  | .nothing => s
  | .applied => ⟨s.apply r.wanted, s.listed⟩
  | .recorded => ⟨s.apply r.wanted, r.wanted⟩

def run (rounds : List (Round α)) : State α := rounds.foldl State.step .start

theorem run_concat : run (rounds ++ [r]) = (run rounds).step r := List.foldl_concat ..

theorem listed_run (rounds : List (Round α)) : (run rounds).listed = listedAfter rounds := by
  induction rounds using List.reverseRecOn with
  | nil => rfl
  | append_singleton rounds r ih =>
    rw [run_concat, listedAfter_concat, ← ih, State.step]
    cases r.extent with
    | nothing => rfl
    | applied => rfl
    | recorded => rfl

theorem mem_apply {s : State α} {wanted : Finset α} :
    x ∈ s.apply wanted ↔ x ∈ wanted ∨ (x ∈ s.present ∧ x ∉ s.listed) := by
  unfold State.apply
  rw [Finset.mem_sdiff, Finset.mem_union, Finset.mem_sdiff]
  by_cases hwanted : x ∈ wanted
  · simp only [hwanted, or_true, not_true_eq_false, and_false, not_false_eq_true, and_self, true_or]
  · simp only [hwanted, or_false, not_false_eq_true, and_true, false_or]

theorem stray_iff : x ∈ (run rounds).present ∧ x ∉ listedAfter rounds ↔ Stray rounds x := by
  induction rounds using List.reverseRecOn with
  | nil =>
    refine iff_of_false (fun h => absurd h.1 (Finset.notMem_empty x)) ?_
    rintro ⟨front, r, rest, heq, -⟩
    exact absurd heq (by simp)
  | append_singleton rounds r ih =>
    rw [stray_concat, ← ih, run_concat, listedAfter_concat, State.step]
    cases hextent : r.extent with
    | nothing => simp
    | applied =>
      rw [if_neg nofun]
      dsimp only
      rw [mem_apply, listed_run]
      -- a wanted object is stray unless the list names it
      by_cases hlisted : x ∈ listedAfter rounds <;> by_cases hwanted : x ∈ r.wanted <;>
        simp [hlisted, hwanted]
    | recorded =>
      rw [if_pos rfl]
      dsimp only
      rw [mem_apply, listed_run]
      by_cases hwanted : x ∈ r.wanted <;> simp [hwanted]

theorem present_eq_iff (rounds : List (Round α)) (hextent : r.extent ≠ .nothing) :
    (run (rounds ++ [r])).present = r.wanted ↔ ∀ x, Stray rounds x → x ∈ r.wanted := by
  have hpresent : (run (rounds ++ [r])).present = (run rounds).apply r.wanted := by
    rw [run_concat, State.step]
    cases hr : r.extent with
    | nothing => exact absurd hr hextent
    | applied => rfl
    | recorded => rfl
  rw [hpresent, Finset.ext_iff]
  apply forall_congr'
  intro x
  rw [mem_apply, listed_run, stray_iff]
  constructor
  · intro h hstray
    exact h.mp (.inr hstray)
  · intro h
    exact ⟨fun hor => hor.elim id h, .inl⟩

end Ledger
