import Mathlib.Data.List.Basic

/-!
# Association lists

A list of keys with their values, where the first entry of a key counts.
-/

namespace Association

variable {α β : Type*} [BEq α] {entries entries' : List (α × β)} {key : α} {value : β}

theorem lookup_append_none (h : entries.lookup key = none) :
    (entries ++ entries').lookup key = entries'.lookup key := by
  rw [List.lookup_append, h, Option.none_or]

theorem lookup_append_some (h : entries.lookup key = some value) :
    (entries ++ entries').lookup key = some value := by
  rw [List.lookup_append, h, Option.some_or]

variable [LawfulBEq α]

theorem lookup_eq_none_iff : entries.lookup key = none ↔ key ∉ entries.map Prod.fst := by
  rw [List.lookup_eq_none_iff, List.mem_map]
  constructor
  · rintro h ⟨e, he, rfl⟩
    simpa using h e he
  · intro h e he
    rw [bne_iff_ne]
    rintro rfl
    exact h ⟨e, he, rfl⟩

theorem mem_of_lookup (h : entries.lookup key = some value) : (key, value) ∈ entries := by
  obtain ⟨front, rest, rfl, -⟩ := List.lookup_eq_some_iff.mp h
  exact List.mem_append_right _ List.mem_cons_self

theorem lookup_of_mem (hnodup : (entries.map Prod.fst).Nodup) (h : (key, value) ∈ entries) :
    entries.lookup key = some value := by
  obtain ⟨front, rest, rfl⟩ := List.append_of_mem h
  rw [List.map_append, List.map_cons, List.nodup_append] at hnodup
  have hfront : front.lookup key = none := by
    rw [lookup_eq_none_iff]
    intro hmem
    exact hnodup.2.2 key hmem key List.mem_cons_self rfl
  rw [lookup_append_none hfront, List.lookup_cons_self]

end Association
