import Mathlib.Data.List.AList
import Mathlib.Data.List.Sort

/-!
# Dictionaries

A dictionary keeps the order its keys were given in.
-/

namespace Dictionary

universe u v

abbrev Dict (K : Type u) (V : Type v) := AList fun _ : K ↦ V

variable {K : Type u} {V : Type v}
variable {d : Dict K V} {k : K} {v : V} {W : Type v} {f : K → V → W}

def items (d : Dict K V) : List (K × V) := d.entries.map fun e ↦ (e.1, e.2)

theorem keys_items (d : Dict K V) : (items d).map Prod.fst = d.keys := by
  unfold items
  rw [List.map_map]
  rfl

theorem nodup_items (d : Dict K V) : ((items d).map Prod.fst).Nodup := by
  rw [keys_items]
  exact d.keys_nodup

theorem mem_items [DecidableEq K] : (k, v) ∈ items d ↔ d.lookup k = some v := by
  rw [← Option.mem_def, AList.mem_lookup_iff]
  unfold items
  constructor
  · intro h
    rcases List.mem_map.mp h with ⟨e, he, heq⟩
    cases heq
    exact he
  · intro h
    exact List.mem_map.mpr ⟨⟨k, v⟩, h, rfl⟩

theorem eq_of_mem_items {w : V} (hv : (k, v) ∈ items d) (hw : (k, w) ∈ items d) : v = w :=
  congrArg Prod.snd (List.inj_on_of_nodup_map (nodup_items d) hv hw rfl)

def mapValues {W : Type v} (f : K → V → W) (d : Dict K V) : Dict K W where
  entries := d.entries.map fun e ↦ ⟨e.1, f e.1 e.2⟩
  nodupKeys := by
    have hkeys := d.nodupKeys
    rw [List.NodupKeys, List.keys] at hkeys ⊢
    rw [List.map_map]
    exact hkeys

theorem keys_mapValues (f : K → V → W) (d : Dict K V) : (mapValues f d).keys = d.keys := by
  show (d.entries.map _).map _ = d.entries.map _
  rw [List.map_map]
  rfl

theorem mem_items_mapValues {w : W} :
    (k, w) ∈ items (mapValues f d) ↔ ∃ v, (k, v) ∈ items d ∧ f k v = w := by
  unfold items mapValues
  simp only [List.map_map, List.mem_map, Function.comp_apply, Prod.mk.injEq]
  constructor
  · rintro ⟨e, he, rfl, rfl⟩
    exact ⟨e.2, ⟨e, he, rfl, rfl⟩, rfl⟩
  · rintro ⟨v, ⟨e, he, rfl, rfl⟩, rfl⟩
    exact ⟨e, he, rfl, rfl⟩

theorem mapValues_eq_self {f : K → V → V} (h : ∀ k v, (k, v) ∈ items d → f k v = v) :
    mapValues f d = d := by
  apply AList.ext
  show d.entries.map _ = d.entries
  conv_rhs => rw [← List.map_id d.entries]
  apply List.map_congr_left
  intro e he
  rw [h e.1 e.2 (List.mem_map.mpr ⟨e, he, rfl⟩)]
  rfl

theorem lookup_mapValues [DecidableEq K] : (mapValues f d).lookup k = (d.lookup k).map (f k) := by
  ext w
  rw [← mem_items, mem_items_mapValues, Option.map_eq_some_iff]
  simp only [mem_items]

variable [LinearOrder K]

def byKey (d : Dict K V) : List (K × V) := (items d).insertionSort fun a b ↦ a.1 ≤ b.1

@[simp]
theorem mem_byKey {e : K × V} : e ∈ byKey d ↔ e ∈ items d :=
  (List.perm_insertionSort _ _).mem_iff

theorem pairwise_byKey {R : K × V → K × V → Prop}
    (h : ∀ a ∈ items d, ∀ b ∈ items d, a.1 ≠ b.1 → R a b) : (byKey d).Pairwise R := by
  have hkeys : ((byKey d).map Prod.fst).Nodup :=
    ((List.perm_insertionSort _ (items d)).map Prod.fst).nodup_iff.mpr (nodup_items d)
  rw [List.Nodup, List.pairwise_map] at hkeys
  apply hkeys.imp_of_mem
  intro a b ha hb hne
  exact h a (mem_byKey.mp ha) b (mem_byKey.mp hb) hne

end Dictionary
