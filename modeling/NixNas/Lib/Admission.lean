import Mathlib.Data.List.Pairwise
import NixNas.Lib.Journal

/-!
# Admission

A pass admits the requests of a list one at a time.  Each is refused where it does not get along
with one admitted earlier, so the whole pass goes through exactly when all pairs get along.
-/

open Fallible Journal

namespace Admission

universe u

/-- One step of admission, and what it means. -/
structure Discipline (σ α ε : Type u) where
  step : σ → α → Except ε σ
  Held : σ → α → Prop
  Agree : α → α → Prop
  step_ok : ∀ s a, (∃ s', step s a = .ok s') ↔ ∀ b, Held s b → Agree b a
  held_step : ∀ {s a s'}, step s a = .ok s' → ∀ b, Held s' b ↔ Held s b ∨ b = a

variable {σ α ε : Type u} (d : Discipline σ α ε)

def run (s : σ) (l : List α) : Except ε σ := l.foldlM d.step s

variable {d} {s s' : σ} {l : List α}

theorem held_run (h : run d s l = .ok s') (b : α) : d.Held s' b ↔ d.Held s b ∨ b ∈ l := by
  unfold run at h
  induction l generalizing s with
  | nil =>
    cases h
    simp
  | cons a l ih =>
    rw [List.foldlM_cons] at h
    rcases bind_ok h with ⟨t, ht, h⟩
    rw [ih h, d.held_step ht b, List.mem_cons, or_assoc]

theorem run_ok_iff : (∃ s', run d s l = .ok s') ↔
    (∀ a ∈ l, ∀ b, d.Held s b → d.Agree b a) ∧ l.Pairwise d.Agree := by
  unfold run
  induction l generalizing s with
  | nil =>
    constructor
    · intro _
      exact ⟨fun a ha => (List.not_mem_nil ha).elim, .nil⟩
    · intro _
      exact ⟨s, rfl⟩
  | cons a l ih =>
    rw [List.foldlM_cons, List.pairwise_cons, List.forall_mem_cons]
    constructor
    · rintro ⟨s', h⟩
      rcases bind_ok h with ⟨t, ht, h⟩
      rcases ih.mp ⟨s', h⟩ with ⟨hheld, hpairs⟩
      refine ⟨⟨(d.step_ok s a).mp ⟨t, ht⟩, ?_⟩, ?_, hpairs⟩
      · intro c hc b hb
        exact hheld c hc b ((d.held_step ht b).mpr (.inl hb))
      · intro c hc
        exact hheld c hc a ((d.held_step ht a).mpr (.inr rfl))
    · rintro ⟨⟨hfirst, hrest⟩, hhead, hpairs⟩
      rcases (d.step_ok s a).mpr hfirst with ⟨t, ht⟩
      have htail : ∃ s', l.foldlM d.step t = .ok s' := by
        apply ih.mpr
        refine ⟨?_, hpairs⟩
        intro c hc b hb
        rcases (d.held_step ht b).mp hb with hb | rfl
        · exact hrest c hc b hb
        · exact hhead c hc
      rcases htail with ⟨s', hs'⟩
      refine ⟨s', ?_⟩
      rw [ht]
      exact hs'

theorem agree_of_run (hsymm : ∀ a b, d.Agree a b → d.Agree b a) (h : run d s l = .ok s') {a b : α}
    (ha : a ∈ l) (hb : b ∈ l) (hne : a ≠ b) : d.Agree a b := by
  have hinst : Std.Symm d.Agree := ⟨hsymm⟩
  exact (run_ok_iff.mp ⟨s', h⟩).2.forall ha hb hne

theorem run_ok_iff_forall (hsymm : ∀ a b, d.Agree a b → d.Agree b a) (hrefl : ∀ a, d.Agree a a)
    (hempty : ∀ a, ¬ d.Held s a) :
    (∃ s', run d s l = .ok s') ↔ ∀ a ∈ l, ∀ b ∈ l, d.Agree a b := by
  have hinst : Std.Symm d.Agree := ⟨hsymm⟩
  rw [run_ok_iff]
  constructor
  · rintro ⟨_, hpairs⟩ a ha b hb
    exact hpairs.forall_of_forall (fun c _ => hrefl c) ha hb
  · intro hall
    constructor
    · intro a _ b hb
      exact (hempty b hb).elim
    · exact List.pairwise_of_forall_mem_list hall

/-! ## Keys of a store -/

section Keys

variable {K V : Type u} [DecidableEq K]

/-- Each key is given once; a refusal names the key and who has it. -/
def reserve (s : Store K V) (e : K × V) : Except (K × V) (Store K V) :=
  match s.lookup e.1 with
  | some owner => .error (e.1, owner)
  | none => .ok (s.insert e.1 e.2)

/-- A key may be given again, with the same value. -/
def claim [DecidableEq V] (s : Store K V) (e : K × V) : Except (K × V) (Store K V) :=
  match s.lookup e.1 with
  | some value => if value = e.2 then .ok s else .error (e.1, value)
  | none => .ok (s.insert e.1 e.2)

theorem lookup_insert_eq_some {s : Store K V} {e b : K × V} (h : s.lookup e.1 = none) :
    (s.insert e.1 e.2).lookup b.1 = some b.2 ↔ s.lookup b.1 = some b.2 ∨ b = e := by
  have hset := sets_insert e.1 e.2 s
  rw [hset b.1]
  split
  · rename_i hkey
    rw [hkey, h, Option.some.injEq]
    constructor
    · intro hvalue
      exact .inr (Prod.ext hkey hvalue.symm)
    · rintro (habsurd | rfl)
      · cases habsurd
      · rfl
  · rename_i hkey
    constructor
    · exact .inl
    · rintro (hlookup | rfl)
      · exact hlookup
      · exact (hkey rfl).elim

def reserving : Discipline (Store K V) (K × V) (K × V) where
  step := reserve
  Held s e := s.lookup e.1 = some e.2
  Agree b a := b.1 ≠ a.1
  step_ok s a := by
    unfold reserve
    split
    · rename_i owner howner
      constructor
      · rintro ⟨_, h⟩
        cases h
      · intro h
        exact (h (a.1, owner) howner rfl).elim
    · rename_i hnone
      constructor
      · intro _ b hb hkey
        rw [hkey, hnone] at hb
        cases hb
      · intro _
        exact ⟨_, rfl⟩
  held_step {s a s'} h b := by
    unfold reserve at h
    split at h
    · cases h
    · rename_i hnone
      cases h
      exact lookup_insert_eq_some hnone

def claiming [DecidableEq V] : Discipline (Store K V) (K × V) (K × V) where
  step := claim
  Held s e := s.lookup e.1 = some e.2
  Agree b a := b.1 = a.1 → b.2 = a.2
  step_ok s a := by
    unfold claim
    split
    · rename_i value hvalue
      split
      · rename_i heq
        constructor
        · intro _ b hb hkey
          rw [hkey, hvalue] at hb
          cases hb
          exact heq
        · intro _
          exact ⟨_, rfl⟩
      · rename_i hne
        constructor
        · rintro ⟨_, h⟩
          cases h
        · intro h
          exact (hne (h (a.1, value) hvalue rfl)).elim
    · rename_i hnone
      constructor
      · intro _ b hb hkey
        rw [hkey, hnone] at hb
        cases hb
      · intro _
        exact ⟨_, rfl⟩
  held_step {s a s'} h b := by
    unfold claim at h
    split at h
    · rename_i value hvalue
      split at h
      · rename_i heq
        cases h
        constructor
        · exact .inl
        · rintro (hb | rfl)
          · exact hb
          · rw [hvalue, heq]
      · cases h
    · rename_i hnone
      cases h
      exact lookup_insert_eq_some hnone

end Keys

/-! ## Groups of owners -/

section Groups

variable {K G O : Type u} [DecidableEq K] [DecidableEq G]

def strangers (s : Finset (K × G × O)) (e : K × G × O) : Finset (K × G × O) :=
  s.filter fun b ↦ b.1 = e.1 ∧ b.2.1 ≠ e.2.1

theorem strangers_eq_empty_iff {s : Finset (K × G × O)} {e : K × G × O} :
    strangers s e = ∅ ↔ ∀ b ∈ s, b.1 = e.1 → b.2.1 = e.2.1 := by
  unfold strangers
  rw [Finset.filter_eq_empty_iff]
  constructor
  · intro h b hb hkey
    exact of_not_not fun hgroup => h hb ⟨hkey, hgroup⟩
  · intro h b hb hstranger
    exact hstranger.2 (h b hb hstranger.1)

variable [DecidableEq O]

/-- A key may have several owners of one group; a refusal names the others. -/
def join (s : Finset (K × G × O)) (e : K × G × O) :
    Except (Finset (K × G × O)) (Finset (K × G × O)) :=
  if strangers s e = ∅ then .ok (insert e s) else .error (strangers s e)

def joining : Discipline (Finset (K × G × O)) (K × G × O) (Finset (K × G × O)) where
  step := join
  Held s e := e ∈ s
  Agree b a := b.1 = a.1 → b.2.1 = a.2.1
  step_ok s a := by
    have hiff := strangers_eq_empty_iff (s := s) (e := a)
    unfold join
    split
    · rename_i hnone
      constructor
      · intro _
        exact hiff.mp hnone
      · intro _
        exact ⟨_, rfl⟩
    · rename_i hsome
      constructor
      · rintro ⟨_, h⟩
        cases h
      · intro h
        exact (hsome (hiff.mpr h)).elim
  held_step {s a s'} h b := by
    unfold join at h
    split at h
    · cases h
      rw [Finset.mem_insert, or_comm]
    · cases h

end Groups

/-! ## Requests given in parts -/

section Observed

variable {τ β ε' : Type u} {step : τ → β → Except ε' τ} {f : τ → σ} {requests : β → List α}
variable {t : τ}

theorem run_state
    (hstep : ∀ t b t', step t b = .ok t' → run d (f t) (requests b) = .ok (f t')) {l : List β}
    {t' : τ} (h : l.foldlM step t = .ok t') :
    run d (f t) (l.flatMap requests) = .ok (f t') := by
  induction l generalizing t with
  | nil =>
    cases h
    rfl
  | cons b l ih =>
    rw [List.foldlM_cons] at h
    rcases bind_ok h with ⟨r, hr, h⟩
    have hfirst := hstep t b r hr
    have hrest := ih h
    unfold run at hfirst hrest ⊢
    rw [List.flatMap_cons, List.foldlM_append, hfirst]
    exact hrest

theorem run_flatMap {step : σ → β → Except ε' σ}
    (hstep : ∀ s b s', step s b = .ok s' → run d s (requests b) = .ok s') {l : List β}
    (h : l.foldlM step s = .ok s') : run d s (l.flatMap requests) = .ok s' :=
  run_state (f := id) hstep h

/-- A pass goes through exactly when every part is valid and all requests are admitted. -/
theorem foldlM_ok_iff {Valid : β → Prop} (hok : ∀ t b, (∃ t', step t b = .ok t') ↔
      Valid b ∧ ∃ s', run d (f t) (requests b) = .ok s')
    (hstep : ∀ t b t', step t b = .ok t' → run d (f t) (requests b) = .ok (f t'))
    {l : List β} :
    (∃ t', l.foldlM step t = .ok t') ↔
      (∀ b ∈ l, Valid b) ∧ ∃ s', run d (f t) (l.flatMap requests) = .ok s' := by
  constructor
  · rintro ⟨t', h⟩
    refine ⟨?_, _, run_state hstep h⟩
    intro b hb
    rcases foldlM_step h hb with ⟨r, r', hr⟩
    exact ((hok r b).mp ⟨r', hr⟩).1
  · rintro ⟨hvalid, s', h⟩
    induction l generalizing t with
    | nil => exact ⟨t, rfl⟩
    | cons b l ih =>
      rw [List.forall_mem_cons] at hvalid
      unfold run at h
      rw [List.flatMap_cons, List.foldlM_append] at h
      rcases bind_ok h with ⟨r, hr, h⟩
      rcases (hok t b).mpr ⟨hvalid.1, r, hr⟩ with ⟨u, hu⟩
      have hstate : f u = r := by
        have heq := (hstep t b u hu).symm.trans hr
        exact Except.ok.inj heq
      rw [← hstate] at h
      rcases ih hvalid.2 h with ⟨t', ht'⟩
      refine ⟨t', ?_⟩
      rw [List.foldlM_cons, hu]
      exact ht'

end Observed

/-! ## Requests that are read one by one -/

section Tracked

variable {τ β ε' : Type u} {step : τ → β → Except ε' τ} (read : β → Option α)
  (Agree : α → α → Prop) (Tracks : τ → List α → Prop)
variable {t : τ} {before : List α}

/-- A pass whose state tracks the requests admitted so far goes through exactly when every request
can be read and gets along with all before it. -/
theorem foldlM_ok_iff_of_tracks (hok : ∀ t before b, Tracks t before →
      ((∃ t', step t b = .ok t') ↔ ∃ a, read b = some a ∧ ∀ c ∈ before, Agree c a))
    (htracks : ∀ t before b a t', Tracks t before → step t b = .ok t' → read b = some a →
      Tracks t' (before ++ [a]))
    {l : List β} (h : Tracks t before) :
    (∃ t', l.foldlM step t = .ok t') ↔
      ∃ as, l.mapM read = some as ∧ (∀ c ∈ before, ∀ a ∈ as, Agree c a) ∧ as.Pairwise Agree := by
  induction l generalizing t before with
  | nil =>
    constructor
    · intro _
      exact ⟨[], rfl, fun c _ a ha => (List.not_mem_nil ha).elim, .nil⟩
    · intro _
      exact ⟨t, rfl⟩
  | cons b l ih =>
    constructor
    · intro ⟨t', hrun⟩
      rw [List.foldlM_cons] at hrun
      rcases bind_ok hrun with ⟨r, hr, hrun⟩
      rcases (hok t before b h).mp ⟨r, hr⟩ with ⟨a, ha, hfree⟩
      rcases (ih (htracks t before b a r h hr ha)).mp ⟨t', hrun⟩ with ⟨as, has, hold, hpairs⟩
      refine ⟨a :: as, ?_, ?_, ?_⟩
      · rw [List.mapM_cons, ha, has]
        rfl
      · intro c hc
        rw [List.forall_mem_cons]
        exact ⟨hfree c hc, hold c (List.mem_append_left _ hc)⟩
      · rw [List.pairwise_cons]
        exact ⟨hold a (List.mem_append_right _ (List.mem_singleton_self a)), hpairs⟩
    · intro ⟨as, has, hold, hpairs⟩
      rw [List.mapM_cons] at has
      rcases Option.bind_eq_some_iff.mp has with ⟨a, ha, has⟩
      rcases Option.bind_eq_some_iff.mp has with ⟨rest, hrest, heq⟩
      cases heq
      have hfree : ∀ c ∈ before, Agree c a := fun c hc => hold c hc a List.mem_cons_self
      rcases (hok t before b h).mpr ⟨a, ha, hfree⟩ with ⟨r, hr⟩
      rw [List.pairwise_cons] at hpairs
      have hheld : ∀ c ∈ before ++ [a], ∀ a' ∈ rest, Agree c a' := by
        intro c hc a' ha'
        rw [List.mem_append, List.mem_singleton] at hc
        rcases hc with hc | rfl
        · exact hold c hc a' (List.mem_cons_of_mem _ ha')
        · exact hpairs.1 a' ha'
      rcases (ih (htracks t before b a r h hr ha)).mpr ⟨rest, hrest, hheld, hpairs.2⟩ with ⟨t', ht'⟩
      refine ⟨t', ?_⟩
      rw [List.foldlM_cons, hr]
      exact ht'

theorem tracks_foldlM
    (hread : ∀ t before b t', Tracks t before → step t b = .ok t' → ∃ a, read b = some a)
    (htracks : ∀ t before b a t', Tracks t before → step t b = .ok t' → read b = some a →
      Tracks t' (before ++ [a]))
    {l : List β} {t' : τ} (h : Tracks t before)
    (hrun : l.foldlM step t = .ok t') : ∃ as, l.mapM read = some as ∧ Tracks t' (before ++ as) := by
  induction l generalizing t before with
  | nil =>
    cases hrun
    rw [← List.append_nil before] at h
    exact ⟨[], rfl, h⟩
  | cons b l ih =>
    rw [List.foldlM_cons] at hrun
    rcases bind_ok hrun with ⟨r, hr, hrun⟩
    rcases hread t before b r h hr with ⟨a, ha⟩
    rcases ih (htracks t before b a r h hr ha) hrun with ⟨as, has, h⟩
    rw [List.append_assoc] at h
    refine ⟨a :: as, ?_, h⟩
    rw [List.mapM_cons, ha, has]
    rfl

/-- A pass that collects what it reads, where each item gets along with those collected before. -/
theorem foldlM_collect_iff {collect : List α → β → Except ε' (List α)}
    (hstep : ∀ t b t', collect t b = .ok t' ↔
      ∃ a, read b = some a ∧ (∀ c ∈ t, Agree c a) ∧ t' = t ++ [a])
    {l : List β} {as : List α} :
    l.foldlM collect [] = .ok as ↔ l.mapM read = some as ∧ as.Pairwise Agree := by
  have htracks : ∀ t before b a t', t = before → collect t b = .ok t' → read b = some a →
      t' = before ++ [a] := by
    rintro t _ b a t' rfl h ha
    obtain ⟨a', ha', -, rfl⟩ := (hstep t b t').mp h
    cases ha.symm.trans ha'
    rfl
  have hread : ∀ t before b t', t = before → collect t b = .ok t' → ∃ a, read b = some a := by
    intro t before b t' _ h
    obtain ⟨a, ha, -, -⟩ := (hstep t b t').mp h
    exact ⟨a, ha⟩
  have hvalue : ∀ t', l.foldlM collect [] = .ok t' → l.mapM read = some t' := by
    intro t' h
    obtain ⟨as, has, heq⟩ := tracks_foldlM read Eq hread htracks rfl h
    rw [heq]
    exact has
  have hok : (∃ t', l.foldlM collect [] = .ok t') ↔ ∃ as, l.mapM read = some as ∧
      (∀ c ∈ ([] : List α), ∀ a ∈ as, Agree c a) ∧ as.Pairwise Agree := by
    apply foldlM_ok_iff_of_tracks read Agree Eq _ htracks rfl
    rintro t _ b rfl
    constructor
    · intro ⟨t', h⟩
      obtain ⟨a, ha, hfree, -⟩ := (hstep t b t').mp h
      exact ⟨a, ha, hfree⟩
    · intro ⟨a, ha, hfree⟩
      exact ⟨_, (hstep t b _).mpr ⟨a, ha, hfree, rfl⟩⟩
  constructor
  · intro h
    obtain ⟨as', has', -, hpairs⟩ := hok.mp ⟨as, h⟩
    cases has'.symm.trans (hvalue as h)
    exact ⟨has', hpairs⟩
  · intro ⟨has, hpairs⟩
    obtain ⟨t', h⟩ := hok.mpr ⟨as, has, nofun, hpairs⟩
    cases has.symm.trans (hvalue t' h)
    exact h

end Tracked

end Admission
