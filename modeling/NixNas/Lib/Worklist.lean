import Mathlib.Data.Finset.Card

/-!
# Worklists

Items are taken from a list; what is found on an item and has not been seen puts another item on
the list.  The search ends where finitely much can be found, and has then seen all that can.
-/

namespace Worklist

variable {P K : Type}
variable {found : P → K → Prop} {p : P} {k : K} {ks : List K} {U : Finset K}

/-- What can be found from the items, each found on an item or by way of something found. -/
inductive Reaches (found : P → K → Prop) (next : K → P) (start : List P) : K → Prop where
  | start {p : P} {k : K} (hp : p ∈ start) (hk : found p k) : Reaches found next start k
  | next {k k' : K} (h : Reaches found next start k) (hk : found (next k) k') :
    Reaches found next start k'

structure State (P K : Type) where
  seen : List K
  pending : List P

/-- An item of the search: one it starts with, or one that something found has led to. -/
def Queued (next : K → P) (start : List P) (Q : K → Prop) (p : P) : Prop :=
  p ∈ start ∨ ∃ k, Q k ∧ p = next k

theorem Queued.reaches {next : K → P} {start : List P}
    (hp : Queued next start (Reaches found next start) p) (hk : found p k) :
    Reaches found next start k := by
  rcases hp with hp | ⟨k', hk', rfl⟩
  · exact .start hp hk
  · exact .next hk' hk

variable [DecidableEq K] (finds : P → List K) (next : K → P)

def visit (s : State P K) (k : K) : State P K :=
  if k ∈ s.seen then s else ⟨k :: s.seen, next k :: s.pending⟩

/-- The search, or nothing where the fuel is used up. -/
def run : ℕ → State P K → Option (State P K)
  | 0, _ => none
  | fuel + 1, s =>
    match s.pending with
    | [] => some s
    | p :: rest => run fuel ((finds p).foldl (visit next) ⟨s.seen, rest⟩)

variable {finds next} {start : List P} {s : State P K}

theorem visit_of_mem (h : k ∈ s.seen) : visit next s k = s := if_pos h

theorem visit_of_notMem (h : k ∉ s.seen) :
    visit next s k = ⟨k :: s.seen, next k :: s.pending⟩ := if_neg h

theorem mem_visit {k' : K} : k' ∈ (visit next s k).seen ↔ k' = k ∨ k' ∈ s.seen := by
  unfold visit
  split
  · rename_i hmem
    constructor
    · exact .inr
    · rintro (rfl | h)
      · exact hmem
      · exact h
  · exact List.mem_cons

theorem mem_foldl_visit : k ∈ (ks.foldl (visit next) s).seen ↔ k ∈ ks ∨ k ∈ s.seen := by
  induction ks generalizing s with
  | nil => simp
  | cons k' ks ih =>
    rw [List.foldl_cons, ih, mem_visit, List.mem_cons]
    exact ⟨fun h => by tauto, fun h => by tauto⟩

/-- What is new in the second state: things that have been found, with their items on the list. -/
structure Visited (next : K → P) (s s' : State P K) : Prop where
  seen_sub : ∀ k ∈ s.seen, k ∈ s'.seen
  pending_sub : ∀ p ∈ s.pending, p ∈ s'.pending
  pending : ∀ p ∈ s'.pending, p ∈ s.pending ∨ ∃ k ∈ s'.seen, p = next k
  seen : ∀ k ∈ s'.seen, k ∈ s.seen ∨ next k ∈ s'.pending

omit [DecidableEq K] in
theorem Visited.refl (s : State P K) : Visited next s s where
  seen_sub _ h := h
  pending_sub _ h := h
  pending _ h := .inl h
  seen _ h := .inl h

omit [DecidableEq K] in
theorem Visited.trans {s' s'' : State P K} (h : Visited next s s') (h' : Visited next s' s'') :
    Visited next s s'' where
  seen_sub k hk := h'.seen_sub k (h.seen_sub k hk)
  pending_sub p hp := h'.pending_sub p (h.pending_sub p hp)
  pending p hp := by
    rcases h'.pending p hp with hp | hnew
    · rcases h.pending p hp with hp | ⟨k, hk, rfl⟩
      · exact .inl hp
      · exact .inr ⟨k, h'.seen_sub k hk, rfl⟩
    · exact .inr hnew
  seen k hk := by
    rcases h'.seen k hk with hk | hnew
    · rcases h.seen k hk with hk | hk
      · exact .inl hk
      · exact .inr (h'.pending_sub _ hk)
    · exact .inr hnew

theorem visited_visit (s : State P K) (k : K) : Visited next s (visit next s k) := by
  unfold visit
  split
  · exact .refl s
  · constructor
    · exact fun k' h => List.mem_cons_of_mem k h
    · exact fun p h => List.mem_cons_of_mem _ h
    · intro p hp
      rcases List.mem_cons.mp hp with rfl | hp
      · exact .inr ⟨k, List.mem_cons_self, rfl⟩
      · exact .inl hp
    · intro k' hk'
      rcases List.mem_cons.mp hk' with rfl | hk'
      · exact .inr List.mem_cons_self
      · exact .inl hk'

theorem visited_foldl (ks : List K) (s : State P K) : Visited next s (ks.foldl (visit next) s) := by
  induction ks generalizing s with
  | nil => exact .refl s
  | cons k ks ih => exact (visited_visit s k).trans (ih _)

/-- The items on the list, and the things that may still put one there. -/
def potential (U : Finset K) (s : State P K) : ℕ := s.pending.length + (U \ s.seen.toFinset).card

theorem potential_visit (hk : k ∈ U) (s : State P K) :
    potential U (visit next s k) ≤ potential U s := by
  unfold visit
  split
  · exact le_refl _
  · rename_i hnew
    unfold potential
    dsimp only
    have hmem : k ∈ U \ s.seen.toFinset := by
      rw [Finset.mem_sdiff, List.mem_toFinset]
      exact ⟨hk, hnew⟩
    have hcard := Finset.card_erase_add_one hmem
    rw [List.toFinset_cons, Finset.sdiff_insert, List.length_cons]
    omega

theorem potential_foldl (hks : ∀ k ∈ ks, k ∈ U) (s : State P K) :
    potential U (ks.foldl (visit next) s) ≤ potential U s := by
  induction ks generalizing s with
  | nil => exact le_refl _
  | cons k ks ih =>
    rw [List.forall_mem_cons] at hks
    exact (ih hks.2 _).trans (potential_visit hks.1 s)

/-- What has been seen can be found, and what has not waits behind an item of the list. -/
structure Invariant (finds : P → List K) (next : K → P) (start : List P) (s : State P K) : Prop where
  sound : ∀ k ∈ s.seen, Reaches (fun p k ↦ k ∈ finds p) next start k
  queued : ∀ p ∈ s.pending, Queued next start (Reaches (fun p k ↦ k ∈ finds p) next start) p
  closed : ∀ p, Queued next start (· ∈ s.seen) p → p ∈ s.pending ∨ ∀ k ∈ finds p, k ∈ s.seen

omit [DecidableEq K] in
theorem invariant_start {pending : List P} (h : ∀ p, p ∈ pending ↔ p ∈ start) :
    Invariant finds next start ⟨[], pending⟩ where
  sound k hk := by cases hk
  queued p hp := .inl ((h p).mp hp)
  closed p hp := by
    rcases hp with hp | ⟨k, hk, -⟩
    · exact .inl ((h p).mpr hp)
    · cases hk

/-- One item of the list keeps the invariant. -/
theorem Invariant.step {rest : List P} (h : Invariant finds next start s)
    (hpending : s.pending = p :: rest) :
    Invariant finds next start ((finds p).foldl (visit next) ⟨s.seen, rest⟩) := by
  have hvisited : Visited next ⟨s.seen, rest⟩ ((finds p).foldl (visit next) ⟨s.seen, rest⟩) :=
    visited_foldl (finds p) _
  have hp := h.queued p (hpending ▸ List.mem_cons_self)
  have hsound : ∀ k ∈ ((finds p).foldl (visit next) ⟨s.seen, rest⟩).seen,
      Reaches (fun p k ↦ k ∈ finds p) next start k := by
    intro k hk
    rcases mem_foldl_visit.mp hk with hk | hk
    · exact hp.reaches hk
    · exact h.sound k hk
  constructor
  · exact hsound
  · intro q hq
    rcases hvisited.pending q hq with hq | ⟨k, hk, rfl⟩
    · exact h.queued q (hpending ▸ List.mem_cons_of_mem p hq)
    · exact .inr ⟨k, hsound k hk, rfl⟩
  · intro q hq
    -- what is new waits on the list
    have hold : Queued next start (· ∈ s.seen) q ∨
        q ∈ ((finds p).foldl (visit next) ⟨s.seen, rest⟩).pending := by
      rcases hq with hq | ⟨k, hk, rfl⟩
      · exact .inl (.inl hq)
      · rcases hvisited.seen k hk with hk | hk
        · exact .inl (.inr ⟨k, hk, rfl⟩)
        · exact .inr hk
    rcases hold with hold | hnew
    · rcases h.closed q hold with hmem | hfinds
      · rcases List.mem_cons.mp (hpending ▸ hmem) with rfl | hmem
        · exact .inr fun k hk => mem_foldl_visit.mpr (.inl hk)
        · exact .inl (hvisited.pending_sub q hmem)
      · exact .inr fun k hk => hvisited.seen_sub k (hfinds k hk)
    · exact .inl hnew

omit [DecidableEq K] in
theorem Invariant.seen_iff (h : Invariant finds next start s) (hpending : s.pending = []) (k : K) :
    k ∈ s.seen ↔ Reaches (fun p k ↦ k ∈ finds p) next start k := by
  have hclosed : ∀ p, Queued next start (· ∈ s.seen) p → ∀ k ∈ finds p, k ∈ s.seen := by
    intro p hp
    rcases h.closed p hp with hmem | hfinds
    · rw [hpending] at hmem
      cases hmem
    · exact hfinds
  constructor
  · exact h.sound k
  · intro hk
    induction hk with
    | start hp hk => exact hclosed _ (.inl hp) _ hk
    | next _ hk ih => exact hclosed _ (.inr ⟨_, ih, rfl⟩) _ hk

/-- With more fuel than the potential the search ends. -/
theorem Invariant.run (hfinds : ∀ p, ∀ k ∈ finds p, k ∈ U) {fuel : ℕ}
    (h : Invariant finds next start s) (hfuel : potential U s < fuel) :
    ∃ s', Worklist.run finds next fuel s = some s' ∧
      ∀ k, k ∈ s'.seen ↔ Reaches (fun p k ↦ k ∈ finds p) next start k := by
  induction fuel generalizing s with
  | zero => omega
  | succ fuel ih =>
    unfold Worklist.run
    cases hpending : s.pending with
    | nil => exact ⟨s, rfl, h.seen_iff hpending⟩
    | cons p rest =>
      apply ih (h.step hpending)
      have hle : potential U ((finds p).foldl (visit next) ⟨s.seen, rest⟩) ≤ potential U ⟨s.seen, rest⟩ :=
        potential_foldl (hfinds p) _
      unfold potential at hle hfuel ⊢
      rw [hpending, List.length_cons] at hfuel
      dsimp only at hle
      omega

omit [DecidableEq K] in
theorem Reaches.congr {found' : P → K → Prop} {Q : P → Prop} (hstart : ∀ p ∈ start, Q p)
    (hnext : ∀ p k, Q p → found p k → Q (next k)) (h : ∀ p k, Q p → found p k → found' p k)
    (hk : Reaches found next start k) : Reaches found' next start k ∧ Q (next k) := by
  induction hk with
  | start hp hk =>
    have hQ := hstart _ hp
    exact ⟨.start hp (h _ _ hQ hk), hnext _ _ hQ hk⟩
  | next _ hk ih =>
    obtain ⟨hreaches, hQ⟩ := ih
    exact ⟨.next hreaches (h _ _ hQ hk), hnext _ _ hQ hk⟩

end Worklist
