import Mathlib.Data.Finmap
import Mathlib.Data.List.Sort
import NixNas.Lib.Fallible

/-!
# Keyed stores and their restoration

A store maps keys to values.  A pass over a list of entries writes one key at a time and may fail.
A snapshot of the keys a pass writes, written back, restores the whole store, wherever the pass
stopped.
-/

open Fallible

namespace Journal

universe u v w

abbrev Store (K : Type u) (V : Type v) := Finmap fun _ : K ↦ V

variable {K : Type u} {V : Type v} [DecidableEq K]
variable {l : List (K × V)} {k : K} {v : Option V} {s s' t r : Store K V} {ks : List K} {α : Type u}

def ofList (l : List (K × V)) : Store K V := (l.map fun e ↦ ⟨e.1, e.2⟩ : List (Σ _ : K, V)).toFinmap

theorem mem_ofList : k ∈ ofList l ↔ ∃ v, (k, v) ∈ l := by
  rw [ofList, Finmap.mem_list_toFinmap]
  constructor
  · rintro ⟨v, hv⟩
    rcases List.mem_map.mp hv with ⟨e, he, heq⟩
    cases heq
    exact ⟨e.2, he⟩
  · rintro ⟨v, hv⟩
    exact ⟨v, List.mem_map.mpr ⟨(k, v), hv, rfl⟩⟩

theorem lookup_ofList (hl : (l.map Prod.fst).Nodup) {v : V} :
    (ofList l).lookup k = some v ↔ (k, v) ∈ l := by
  have hnodup : List.NodupKeys (l.map fun e ↦ ⟨e.1, e.2⟩ : List (Σ _ : K, V)) := by
    rw [List.NodupKeys, List.keys, List.map_map]
    exact hl
  rw [ofList, Finmap.dlookup_list_toFinmap, ← Option.mem_def, List.mem_dlookup_iff hnodup]
  constructor
  · intro h
    rcases List.mem_map.mp h with ⟨e, he, heq⟩
    cases heq
    exact he
  · intro h
    exact List.mem_map.mpr ⟨(k, v), h, rfl⟩

def mapStore {W : Type w} (f : K → V → W) (s : Store K V) : Store K W where
  entries := s.entries.map fun e ↦ ⟨e.1, f e.1 e.2⟩
  nodupKeys := by
    rw [← Multiset.nodup_keys, Multiset.keys, Multiset.map_map]
    exact Multiset.nodup_keys.mpr s.nodupKeys

theorem lookup_mapStore {W : Type w} (f : K → V → W) (s : Store K V) (k : K) :
    (mapStore f s).lookup k = (s.lookup k).map (f k) := by
  ext x
  rw [Option.map_eq_some_iff, Finmap.lookup_eq_some_iff]
  constructor
  · intro h
    rcases Multiset.mem_map.mp h with ⟨e, he, heq⟩
    cases heq
    exact ⟨e.2, Finmap.lookup_eq_some_iff.mpr he, rfl⟩
  · rintro ⟨v, hv, rfl⟩
    exact Multiset.mem_map.mpr ⟨⟨k, v⟩, Finmap.lookup_eq_some_iff.mp hv, rfl⟩

/-! ## One write -/

/-- `s'` is `s` with the entry of `k` set. -/
def Sets (k : K) (v : Option V) (s s' : Store K V) : Prop :=
  ∀ j, s'.lookup j = if j = k then v else s.lookup j

theorem Sets.same (h : Sets k v s s') : s'.lookup k = v := by
  rw [h k, if_pos rfl]

theorem Sets.other {j : K} (h : Sets k v s s') (hj : j ≠ k) : s'.lookup j = s.lookup j := by
  rw [h j, if_neg hj]

theorem sets_self (h : s.lookup k = v) : Sets k v s s := by
  intro j
  split
  · rename_i hj
    rw [hj, h]
  · rfl

theorem sets_erase (k : K) (s : Store K V) : Sets k none s (s.erase k) := by
  intro j
  split
  · rename_i hj
    rw [hj, Finmap.lookup_erase]
  · rename_i hj
    exact Finmap.lookup_erase_ne hj

theorem sets_insert (k : K) (v : V) (s : Store K V) : Sets k (some v) s (s.insert k v) := by
  intro j
  split
  · rename_i hj
    rw [hj, Finmap.lookup_insert]
  · rename_i hj
    exact Finmap.lookup_insert_of_ne s hj

theorem Sets.trans {v' : Option V} (h : Sets k v s t) (h' : Sets k v' t r) : Sets k v' s r := by
  intro j
  rw [h' j]
  split
  · rfl
  · rename_i hj
    exact h.other hj

/-! ## Passes -/

/-- The stores differ at the listed keys only. -/
def AgreeOff (ks : List K) (s s' : Store K V) : Prop := ∀ j, j ∉ ks → s'.lookup j = s.lookup j

theorem AgreeOff.refl (ks : List K) (s : Store K V) : AgreeOff ks s s := fun _ _ => rfl

theorem AgreeOff.trans (h : AgreeOff ks s t) (h' : AgreeOff ks t r) : AgreeOff ks s r :=
  fun j hj => (h' j hj).trans (h j hj)

theorem Sets.agreeOff (h : Sets k v s s') (hk : k ∈ ks) : AgreeOff ks s s' :=
  fun _ hj => h.other fun hjk => hj (hjk ▸ hk)

section Pass

variable {ε : Type w} {α : Type v} {write : Store K V → K × α → Except ε (Store K V)}
  {value : α → Option V}
variable {l : List (K × α)}

/-- A pass that went through wrote every entry of its list and nothing else. -/
theorem foldlM_sets (hw : ∀ s e s', write s e = .ok s' → Sets e.1 (value e.2) s s')
    (hl : (l.map Prod.fst).Nodup) {s' : Store K V}
    (h : l.foldlM write s = .ok s') :
    (∀ e ∈ l, s'.lookup e.1 = value e.2) ∧ AgreeOff (l.map Prod.fst) s s' := by
  induction l generalizing s with
  | nil =>
    cases h
    exact ⟨fun _ he => (List.not_mem_nil he).elim, .refl _ _⟩
  | cons e l ih =>
    rw [List.foldlM_cons] at h
    rcases bind_ok h with ⟨t, ht, h⟩
    rw [List.map_cons, List.nodup_cons] at hl
    have hset := hw s e t ht
    rcases ih hl.2 h with ⟨hin, hoff⟩
    constructor
    · intro d hd
      rcases List.mem_cons.mp hd with rfl | hd
      · rw [hoff _ hl.1, hset.same]
      · exact hin d hd
    · intro j hj
      rw [List.map_cons, List.mem_cons, not_or] at hj
      rw [hoff j hj.2, hset.other hj.1]

/-- A pass goes through where each write needs only the entry it finds at its own key. -/
theorem foldlM_succeeds {fits : α → Option V → Prop}
    (hok : ∀ s e, fits e.2 (s.lookup e.1) → ∃ s', write s e = .ok s')
    (hw : ∀ s e s', write s e = .ok s' → Sets e.1 (value e.2) s s')
    (hl : (l.map Prod.fst).Nodup)
    (hs : ∀ e ∈ l, fits e.2 (s.lookup e.1)) : ∃ s', l.foldlM write s = .ok s' := by
  induction l generalizing s with
  | nil => exact ⟨s, rfl⟩
  | cons e l ih =>
    rw [List.map_cons, List.nodup_cons] at hl
    rcases hok s e (hs e (.head l)) with ⟨t, ht⟩
    have hset := hw s e t ht
    have hrest : ∀ d ∈ l, fits d.2 (t.lookup d.1) := by
      intro d hd
      -- the keys are distinct, so the first write leaves the later entries as they were
      rw [hset.other fun heq => hl.1 (heq ▸ List.mem_map_of_mem hd)]
      exact hs d (.tail e hd)
    rcases ih hl.2 hrest with ⟨s', hs'⟩
    refine ⟨s', ?_⟩
    rw [List.foldlM_cons, ht]
    exact hs'

end Pass

/-! ## Inserting in order -/

section Insert

variable {α : Type w} {key : α → K} {value : α → V} {xs : List α}

theorem mem_foldl_insert :
    k ∈ xs.foldl (fun store x ↦ store.insert (key x) (value x)) s ↔ k ∈ s ∨ k ∈ xs.map key := by
  induction xs generalizing s with
  | nil => simp
  | cons x xs ih =>
    rw [List.foldl_cons, ih, Finmap.mem_insert, List.map_cons, List.mem_cons, or_comm (a := k = key x),
      or_assoc]

theorem lookup_foldl_insert {v : V}
    (h : (xs.foldl (fun store x ↦ store.insert (key x) (value x)) s).lookup k = some v) :
    s.lookup k = some v ∨ ∃ x ∈ xs, key x = k ∧ value x = v := by
  induction xs generalizing s with
  | nil => exact .inl h
  | cons x xs ih =>
    rcases ih h with h | ⟨y, hy, heq⟩
    · by_cases hk : k = key x
      · rw [hk, Finmap.lookup_insert] at h
        exact .inr ⟨x, .head _, hk.symm, Option.some.inj h⟩
      · rw [Finmap.lookup_insert_of_ne _ hk] at h
        exact .inl h
    · exact .inr ⟨y, .tail _ hy, heq⟩

end Insert

/-! ## Orders of keys -/

def sorted {α : Type u} [LinearOrder α] (s : Finset α) : List α :=
  Quotient.liftOn s.val (List.insertionSort (· ≤ ·)) fun a b h ↦
    @List.Perm.eq_of_pairwise _ (· ≤ ·) _ _ (fun _ _ _ _ ↦ le_antisymm)
      (List.pairwise_insertionSort _ a) (List.pairwise_insertionSort _ b)
      (((List.perm_insertionSort _ a).trans h).trans (List.perm_insertionSort _ b).symm)

@[simp]
theorem mem_sorted [LinearOrder α] {s : Finset α} {x : α} : x ∈ sorted s ↔ x ∈ s := by
  rcases s with ⟨⟨l⟩, h⟩
  exact List.mem_insertionSort _

theorem nodup_sorted [LinearOrder α] (s : Finset α) : (sorted s).Nodup := by
  rcases s with ⟨⟨l⟩, h⟩
  exact (List.perm_insertionSort (· ≤ ·) l).nodup_iff.mpr h

end Journal
