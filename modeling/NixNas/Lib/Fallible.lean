import Mathlib.Data.List.Forall2
import Mathlib.Data.List.Perm.Basic

/-!
# Computations that may fail

What a successful `Except` computation says about its steps.
-/

namespace Fallible

universe u v

variable {ε : Type u} {α β : Type v}
variable {x : Except ε α} {f : α → Except ε β} {b : β} {err : ε} {γ σ : Type v} {ε' : Type u}
  {a : α} {p : Prop} {xs : List α} {ys : List β} {g : α → β} {s s' : σ} {P : σ → Prop}
  {Q : α → Prop} {R : α → β → Prop}

theorem bind_ok (h : x >>= f = .ok b) : ∃ a, x = .ok a ∧ f a = .ok b := by
  cases x with
  | error err => cases h
  | ok a => exact ⟨a, rfl, h⟩

theorem bind_error (h : x >>= f = .error err) :
    x = .error err ∨ ∃ a, x = .ok a ∧ f a = .error err := by
  cases x with
  | error e =>
    cases h
    exact .inl rfl
  | ok a => exact .inr ⟨a, rfl, h⟩

theorem map_ok {f : α → β} (h : x.map f = .ok b) : ∃ a, x = .ok a ∧ f a = b := by
  cases x with
  | error err => cases h
  | ok a => exact ⟨a, rfl, Except.ok.inj h⟩

theorem bind_map (x : Except ε α) (g : α → β) (f : β → Except ε γ) :
    x.map g >>= f = x >>= fun a ↦ f (g a) := by
  cases x with
  | error err => rfl
  | ok a => rfl

theorem mapError_ok {f : ε → ε'} : x.mapError f = .ok a ↔ x = .ok a := by
  cases x with
  | error err => exact ⟨nofun, nofun⟩
  | ok b =>
    show Except.ok b = .ok a ↔ Except.ok b = .ok a
    rw [Except.ok.injEq, Except.ok.injEq]

theorem mapError_error {f : ε → ε'} {err : ε'}
    (h : x.mapError f = .error err) : ∃ e, f e = err := by
  cases x with
  | error e => exact ⟨e, Except.error.inj h⟩
  | ok b => cases h

theorem guard_ok [Decidable p] (h : (if p then throw err else x) = .ok a) : ¬ p ∧ x = .ok a := by
  split at h
  · cases h
  · rename_i hp
    exact ⟨hp, h⟩

theorem guard_ok_iff [Decidable p] : (if p then .error err else x) = .ok a ↔ ¬ p ∧ x = .ok a := by
  constructor
  · exact guard_ok
  · intro ⟨hp, hx⟩
    rw [if_neg hp, hx]

theorem bind_ok_iff : x >>= f = .ok b ↔ ∃ a, x = .ok a ∧ f a = .ok b := by
  constructor
  · exact bind_ok
  · rintro ⟨a, rfl, h⟩
    exact h

theorem exists_ok_ite [Decidable p] :
    (∃ a, (if p then .error err else x) = .ok a) ↔ ¬ p ∧ ∃ a, x = .ok a := by
  split
  · rename_i hp
    constructor
    · rintro ⟨_, h⟩
      cases h
    · exact fun h => (h.1 hp).elim
  · rename_i hp
    exact (and_iff_right hp).symm

theorem exists_ok : (∃ b, (Except.ok a : Except ε α) = .ok b) ↔ True :=
  iff_true_intro ⟨a, rfl⟩

theorem mapM_ok (h : xs.mapM f = .ok ys) : List.Forall₂ (fun x y ↦ f x = .ok y) xs ys := by
  induction xs generalizing ys with
  | nil =>
    rw [List.mapM_nil] at h
    cases h
    exact .nil
  | cons x xs ih =>
    rw [List.mapM_cons] at h
    obtain ⟨y, hy, h⟩ := bind_ok h
    obtain ⟨ys', hys, h⟩ := bind_ok h
    cases h
    exact .cons hy (ih hys)

theorem mapM_succeeds (h : ∀ x ∈ xs, ∃ y, f x = .ok y) : ∃ ys, xs.mapM f = .ok ys := by
  induction xs with
  | nil => exact ⟨[], rfl⟩
  | cons x xs ih =>
    rcases h x (.head xs) with ⟨y, hy⟩
    rcases ih fun x' hx' => h x' (.tail x hx') with ⟨ys, hys⟩
    refine ⟨y :: ys, ?_⟩
    rw [List.mapM_cons, hy, hys]
    rfl

theorem mapM_eq_map
    (hf : ∀ x y, f x = .ok y → y = g x) (h : xs.mapM f = .ok ys) : ys = xs.map g := by
  have hall := mapM_ok h
  clear h
  induction hall with
  | nil => rfl
  | cons hxy _ ih => rw [List.map_cons, hf _ _ hxy, ih]

theorem foldlM_total {f : σ → α → Except ε σ}
    (h : ∀ x ∈ xs, ∀ s, ∃ s', f s x = .ok s') (s : σ) : ∃ s', xs.foldlM f s = .ok s' := by
  induction xs generalizing s with
  | nil => exact ⟨s, rfl⟩
  | cons x xs ih =>
    rw [List.forall_mem_cons] at h
    rcases h.1 s with ⟨t, ht⟩
    rcases ih h.2 t with ⟨s', hs'⟩
    refine ⟨s', ?_⟩
    rw [List.foldlM_cons, ht]
    exact hs'

theorem foldlM_error {f : σ → α → Except ε σ}
    (h : xs.foldlM f s = .error err) : ∃ x ∈ xs, ∃ t, f t x = .error err := by
  induction xs generalizing s with
  | nil => cases h
  | cons x xs ih =>
    rw [List.foldlM_cons] at h
    rcases bind_error h with h | ⟨t, _, h⟩
    · exact ⟨x, .head _, s, h⟩
    · rcases ih h with ⟨y, hy, hstep⟩
      exact ⟨y, .tail _ hy, hstep⟩

theorem foldlM_error_split {f : σ → α → Except ε σ}
    (h : xs.foldlM f s = .error err) : ∃ before x after t, xs = before ++ x :: after ∧
      before.foldlM f s = .ok t ∧ f t x = .error err := by
  induction xs generalizing s with
  | nil => cases h
  | cons x xs ih =>
    rw [List.foldlM_cons] at h
    rcases bind_error h with h | ⟨t, ht, h⟩
    · exact ⟨[], x, xs, s, rfl, rfl, h⟩
    · rcases ih h with ⟨before, y, after, t', rfl, hbefore, hy⟩
      refine ⟨x :: before, y, after, t', rfl, ?_, hy⟩
      rw [List.foldlM_cons, ht]
      exact hbefore

theorem forM_ok {f : α → Except ε PUnit.{v + 1}} (h : xs.forM f = .ok ⟨⟩) :
    ∀ x ∈ xs, f x = .ok ⟨⟩ := by
  induction xs with
  | nil => exact fun x hx => (List.not_mem_nil hx).elim
  | cons y ys ih =>
    have hsteps : (f y >>= fun _ ↦ ys.forM f) = .ok ⟨⟩ := h
    rcases bind_ok hsteps with ⟨_, hy, hys⟩
    rw [List.forall_mem_cons]
    exact ⟨hy, ih hys⟩

theorem forM_total {f : α → Except ε PUnit.{v + 1}} (h : ∀ x ∈ xs, f x = .ok ⟨⟩) :
    xs.forM f = .ok ⟨⟩ := by
  induction xs with
  | nil => rfl
  | cons y ys ih =>
    rw [List.forall_mem_cons] at h
    show (f y >>= fun _ ↦ ys.forM f) = .ok ⟨⟩
    rw [h.1]
    exact ih h.2

theorem foldlM_step {f : σ → α → Except ε σ}
    (h : xs.foldlM f s = .ok s') {x : α} (hx : x ∈ xs) : ∃ t t', f t x = .ok t' := by
  induction xs generalizing s with
  | nil => exact (List.not_mem_nil hx).elim
  | cons y ys ih =>
    rw [List.foldlM_cons] at h
    rcases bind_ok h with ⟨t, ht, h⟩
    rcases List.mem_cons.mp hx with rfl | hx
    · exact ⟨s, t, ht⟩
    · exact ih h hx

theorem foldlM_invariant {f : σ → α → Except ε σ} (h : xs.foldlM f s = .ok s') (hs : P s)
    (hstep : ∀ x ∈ xs, ∀ t t', P t → f t x = .ok t' → P t') : P s' := by
  induction xs generalizing s with
  | nil =>
    cases h
    exact hs
  | cons x xs ih =>
    rw [List.foldlM_cons] at h
    obtain ⟨t, ht, h⟩ := bind_ok h
    rw [List.forall_mem_cons] at hstep
    exact ih h (hstep.1 s t hs ht) hstep.2

/-- A pass goes through when each element alone allows its step. -/
theorem foldlM_ok_iff_forall {f : σ → α → Except ε σ}
    (hok : ∀ x ∈ xs, ∀ s, P s → ((∃ s', f s x = .ok s') ↔ Q x))
    (hstep : ∀ x ∈ xs, ∀ s s', P s → f s x = .ok s' → P s') (hs : P s) :
    (∃ s', xs.foldlM f s = .ok s') ↔ ∀ x ∈ xs, Q x := by
  induction xs generalizing s with
  | nil => exact iff_of_true ⟨s, rfl⟩ (List.forall_mem_nil _)
  | cons x xs ih =>
    rw [List.forall_mem_cons] at hok hstep ⊢
    constructor
    · intro ⟨s', h⟩
      rw [List.foldlM_cons] at h
      obtain ⟨t, ht, h⟩ := bind_ok h
      exact ⟨(hok.1 s hs).mp ⟨t, ht⟩, (ih hok.2 hstep.2 (hstep.1 s t hs ht)).mp ⟨s', h⟩⟩
    · intro ⟨hx, hxs⟩
      obtain ⟨t, ht⟩ := (hok.1 s hs).mpr hx
      obtain ⟨s', h⟩ := (ih hok.2 hstep.2 (hstep.1 s t hs ht)).mpr hxs
      refine ⟨s', ?_⟩
      rw [List.foldlM_cons, ht]
      exact h

/-- What a step establishes of its element, and later steps keep, holds of all elements. -/
theorem foldlM_each {f : σ → α → Except ε σ} {R : σ → α → Prop}
    (h : xs.foldlM f s = .ok s') (hput : ∀ x ∈ xs, ∀ t t', f t x = .ok t' → R t' x)
    (hkeep : ∀ x ∈ xs, ∀ y t t', R t y → f t x = .ok t' → R t' y) : ∀ x ∈ xs, R s' x := by
  induction xs generalizing s with
  | nil => exact List.forall_mem_nil _
  | cons x xs ih =>
    rw [List.foldlM_cons] at h
    obtain ⟨t, ht, h⟩ := bind_ok h
    rw [List.forall_mem_cons] at hput hkeep ⊢
    constructor
    · exact foldlM_invariant (P := (R · x)) h (hput.1 s t ht) fun y hy t t' => hkeep.2 y hy x t t'
    · exact ih h hput.2 hkeep.2

section Permuted

variable {f : α → Option β} {xs' : List α}

theorem mapM_some_iff : xs.mapM f = some ys ↔ List.Forall₂ (fun x y => f x = some y) xs ys := by
  constructor
  · intro h
    induction xs generalizing ys with
    | nil =>
      cases h
      exact .nil
    | cons x xs ih =>
      rw [List.mapM_cons] at h
      obtain ⟨y, hy, h⟩ := Option.bind_eq_some_iff.mp h
      obtain ⟨rest, hrest, heq⟩ := Option.bind_eq_some_iff.mp h
      cases heq
      exact .cons hy (ih hrest)
  · intro h
    induction h with
    | nil => rfl
    | cons hy _ ih =>
      rw [List.mapM_cons, hy, ih]
      rfl

theorem mapM_of_perm (h : xs.mapM f = some ys) (hperm : List.Perm xs' xs) :
    ∃ ys' : List β, xs'.mapM f = some ys' ∧ ys'.Perm ys := by
  obtain ⟨ys', h', hys⟩ := List.perm_comp_forall₂ hperm (mapM_some_iff.mp h)
  exact ⟨ys', mapM_some_iff.mpr h', hys⟩

theorem exists_mapM_of_perm {ys' : List β} (h : xs.mapM f = some ys) (hperm : ys'.Perm ys) :
    ∃ xs' : List α, xs'.Perm xs ∧ xs'.mapM f = some ys' := by
  obtain ⟨xs', h', hxs⟩ := List.perm_comp_forall₂ hperm (mapM_some_iff.mp h).flip
  exact ⟨xs', hxs, mapM_some_iff.mpr h'.flip⟩

/-- A function that is partial by a condition goes through where all elements meet it. -/
theorem mapM_some_iff_map {Q : α → Prop} {g : α → β}
    (hf : ∀ x ∈ xs, ∀ y, f x = some y ↔ Q x ∧ y = g x) :
    xs.mapM f = some ys ↔ (∀ x ∈ xs, Q x) ∧ ys = xs.map g := by
  rw [mapM_some_iff]
  constructor
  · intro h
    induction h with
    | nil => exact ⟨List.forall_mem_nil _, rfl⟩
    | cons hxy _ ih =>
      rw [List.forall_mem_cons] at hf ⊢
      obtain ⟨hx, rfl⟩ := (hf.1 _).mp hxy
      obtain ⟨hxs, rfl⟩ := ih hf.2
      exact ⟨⟨hx, hxs⟩, rfl⟩
  · rintro ⟨hall, rfl⟩
    rw [List.forall₂_map_right_iff, List.forall₂_same]
    exact fun x hx => (hf x hx _).mpr ⟨hall x hx, rfl⟩

end Permuted

/-! ## Failures of a kind -/

section FailsWith

variable {P : ε → Prop}

/-- Every failure of the computation is of the kind. -/
def FailsWith (P : ε → Prop) (x : Except ε α) : Prop := ∀ err, x = .error err → P err

theorem failsWith_ok (a : α) : FailsWith P (.ok a : Except ε α) := nofun

theorem failsWith_error {err : ε} (h : P err) : FailsWith P (.error err : Except ε α) := by
  rintro _ ⟨⟩
  exact h

theorem FailsWith.bind (hx : FailsWith P x)
    (hf : ∀ a, x = .ok a → FailsWith P (f a)) : FailsWith P (x >>= f) := by
  intro err h
  rcases bind_error h with h | ⟨a, ha, h⟩
  · exact hx err h
  · exact hf a ha err h

theorem FailsWith.mapError {ε' : Type u} {Q : ε' → Prop} {g : ε → ε'} (hx : FailsWith P x)
    (hg : ∀ err, P err → Q (g err)) : FailsWith Q (x.mapError g) := by
  intro err h
  cases x with
  | ok a => cases h
  | error e =>
    cases h
    exact hg e (hx e rfl)

theorem failsWith_mapM (hf : ∀ x ∈ xs, FailsWith P (f x)) : FailsWith P (xs.mapM f) := by
  induction xs with
  | nil => exact failsWith_ok []
  | cons x xs ih =>
    rw [List.forall_mem_cons] at hf
    rw [List.mapM_cons]
    apply hf.1.bind
    intro y _
    apply (ih hf.2).bind
    intro ys _
    exact failsWith_ok (y :: ys)

theorem failsWith_forM {f : α → Except ε PUnit} (hf : ∀ x ∈ xs, FailsWith P (f x)) :
    FailsWith P (xs.forM f) := by
  induction xs with
  | nil => exact failsWith_ok PUnit.unit
  | cons x xs ih =>
    rw [List.forall_mem_cons] at hf
    apply hf.1.bind
    intro _ _
    exact ih hf.2

end FailsWith

/-! ## Failures that leave a state -/

section Carries

variable {Q : σ → Prop} {x : Except σ σ} {f : σ → Except σ σ}

/-- What holds of the state that is left, with or without a failure. -/
def Carries (P : σ → Prop) : Except σ σ → Prop
  | .ok s => P s
  | .error s => P s

theorem Carries.ok (h : Carries P x) (hx : x = .ok s) : P s := by
  rw [hx] at h
  exact h

theorem Carries.error (h : Carries P x) (hx : x = .error s) : P s := by
  rw [hx] at h
  exact h

theorem Carries.bind (h : Carries P x) (hf : ∀ s, P s → Carries P (f s)) : Carries P (x >>= f) := by
  cases x with
  | error s => exact h
  | ok s => exact hf s h

theorem Carries.bind_mono (h : Carries P x) (hmono : ∀ s, P s → Q s)
    (hf : ∀ s, P s → Carries Q (f s)) : Carries Q (x >>= f) := by
  cases x with
  | error s => exact hmono s h
  | ok s => exact hf s h

theorem Carries.foldlM {g : σ → α → Except σ σ} {xs : List α} (hs : P s)
    (hstep : ∀ x ∈ xs, ∀ s, P s → Carries P (g s x)) : Carries P (xs.foldlM g s) := by
  induction xs generalizing s with
  | nil => exact hs
  | cons x xs ih =>
    rw [List.foldlM_cons]
    rw [List.forall_mem_cons] at hstep
    exact Carries.bind (hstep.1 s hs) fun s' hs' => ih hs' hstep.2

end Carries

/-! ## Related lists -/

theorem exists_right (h : List.Forall₂ R xs ys) {x : α} (hx : x ∈ xs) : ∃ y ∈ ys, R x y := by
  induction h with
  | nil => exact (List.not_mem_nil hx).elim
  | cons hxy _ ih =>
    rcases List.mem_cons.mp hx with rfl | hx
    · exact ⟨_, .head _, hxy⟩
    · rcases ih hx with ⟨z, hz, hr⟩
      exact ⟨z, .tail _ hz, hr⟩

theorem exists_left (h : List.Forall₂ R xs ys) {y : β} (hy : y ∈ ys) : ∃ x ∈ xs, R x y := by
  induction h with
  | nil => exact (List.not_mem_nil hy).elim
  | cons hxy _ ih =>
    rcases List.mem_cons.mp hy with rfl | hy
    · exact ⟨_, .head _, hxy⟩
    · rcases ih hy with ⟨z, hz, hr⟩
      exact ⟨z, .tail _ hz, hr⟩

theorem mapM_ok_iff_map (hf : ∀ x y, f x = .ok y ↔ Q x ∧ y = g x) :
    xs.mapM f = .ok ys ↔ (∀ x ∈ xs, Q x) ∧ ys = xs.map g := by
  constructor
  · intro h
    refine ⟨?_, mapM_eq_map (fun x y hxy => ((hf x y).mp hxy).2) h⟩
    intro x hx
    obtain ⟨y, -, hxy⟩ := exists_right (mapM_ok h) hx
    exact ((hf x y).mp hxy).1
  · rintro ⟨hall, rfl⟩
    obtain ⟨ys, h⟩ := mapM_succeeds fun x hx => ⟨g x, (hf x (g x)).mpr ⟨hall x hx, rfl⟩⟩
    rw [h, mapM_eq_map (fun x y hxy => ((hf x y).mp hxy).2) h]

/-- What a pass makes of its items is settled by what settles each of them. -/
theorem map_eq_of_mapM {α' β' δ : Type v} {f' : α' → Except ε β'} {g : α → γ}
    {g' : α' → γ} {k : β → δ} {k' : β' → δ}
    (hsettled : ∀ a a' b b', g a = g' a' → f a = .ok b → f' a' = .ok b' → k b = k' b')
    {xs' : List α'} {ys' : List β'} (hkey : xs.map g = xs'.map g')
    (h : xs.mapM f = .ok ys) (h' : xs'.mapM f' = .ok ys') : ys.map k = ys'.map k' := by
  have hall := mapM_ok h
  have hall' := mapM_ok h'
  clear h h'
  induction hall generalizing xs' ys' with
  | nil =>
    rw [List.map_nil, eq_comm, List.map_eq_nil_iff] at hkey
    subst hkey
    cases hall'
    rfl
  | cons hxy _ ih =>
    cases hall' with
    | nil => cases hkey
    | cons hxy' hall' =>
      rw [List.map_cons, List.map_cons, List.cons.injEq] at hkey
      rw [List.map_cons, List.map_cons, hsettled _ _ _ _ hkey.1 hxy hxy', ih hkey.2 hall']

/-! ## Facts by evaluation -/

theorem forall_mem_of_all {l : List α} {p : α → Prop} [DecidablePred p]
    (h : (l.all fun x ↦ p x) = true) : ∀ x ∈ l, p x :=
  fun x hx => of_decide_eq_true (List.all_eq_true.mp h x hx)

def isOk {ε α : Type} : Except ε α → Bool
  | .ok _ => true
  | .error _ => false

theorem exists_of_isOk {ε α : Type} {x : Except ε α} (h : isOk x = true) : ∃ a, x = .ok a := by
  cases x with
  | error err => cases h
  | ok a => exact ⟨a, rfl⟩

end Fallible
