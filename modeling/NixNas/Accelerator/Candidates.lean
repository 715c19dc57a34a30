import NixNas.Accelerator.Resolve
import Mathlib.Data.List.Induction

/-!
# The selectors of a vendor

The resolver sorts the parsed selectors by their type and keeps the first one of each device.
-/

open Fallible

namespace NixNas.Accelerator

open Spec

variable {F : Type}

theorem nodup_concat {α : Type*} {l : List α} {a : α} (h : l.Nodup) (hnew : a ∉ l) :
    (l ++ [a]).Nodup := by
  apply List.nodup_append.mpr
  refine ⟨h, List.pairwise_singleton _ _, ?_⟩
  rintro b hb _ hlast rfl
  rw [List.mem_singleton] at hlast
  exact hnew (hlast ▸ hb)

section

variable (decimal : Char → Bool) (minors : List (Text × Text))
variable {selectors : List Selector} {s : Selector}

theorem onePerGpu_state (selectors : List Selector) :
    selectors.foldl (fun (kept : List Text × List Selector) candidate ↦
      let identity := physicalIdentity decimal minors candidate
      if identity ∈ kept.1 then kept else (identity :: kept.1, kept.2 ++ [candidate])) ([], []) =
    (((onePerGpu decimal minors selectors).map (physicalIdentity decimal minors)).reverse,
      onePerGpu decimal minors selectors) := by
  unfold onePerGpu
  induction selectors using List.reverseRecOn with
  | nil => rfl
  | append_singleton selectors s ih =>
    rw [List.foldl_append, ih]
    dsimp only [List.foldl_cons, List.foldl_nil]
    split
    · rfl
    · rw [List.map_append, List.reverse_append]
      rfl

theorem onePerGpu_concat (selectors : List Selector) (s : Selector) :
    onePerGpu decimal minors (selectors ++ [s]) =
      if physicalIdentity decimal minors s ∈
          (onePerGpu decimal minors selectors).map (physicalIdentity decimal minors) then
        onePerGpu decimal minors selectors
      else onePerGpu decimal minors selectors ++ [s] := by
  conv_lhs => unfold onePerGpu
  rw [List.foldl_append, onePerGpu_state]
  dsimp only [List.foldl_cons, List.foldl_nil]
  simp only [List.mem_reverse]
  split <;> rfl

theorem onePerGpu_nodup (selectors : List Selector) :
    ((onePerGpu decimal minors selectors).map (physicalIdentity decimal minors)).Nodup := by
  induction selectors using List.reverseRecOn with
  | nil => exact List.nodup_nil
  | append_singleton selectors s ih =>
    rw [onePerGpu_concat]
    split
    · exact ih
    · rename_i hnew
      rw [List.map_append, List.map_singleton]
      exact nodup_concat ih hnew

theorem mem_of_mem_onePerGpu (h : s ∈ onePerGpu decimal minors selectors) : s ∈ selectors := by
  induction selectors using List.reverseRecOn with
  | nil => cases h
  | append_singleton selectors t ih =>
    rw [onePerGpu_concat] at h
    split at h
    · exact List.mem_append_left _ (ih h)
    · rcases List.mem_append.mp h with h | h
      · exact List.mem_append_left _ (ih h)
      · exact List.mem_append_right _ h

theorem onePerGpu_covers {R : Selector → Selector → Prop}
    (hsorted : selectors.Pairwise R) (h : s ∈ selectors) :
    ∃ t ∈ onePerGpu decimal minors selectors,
      physicalIdentity decimal minors t = physicalIdentity decimal minors s ∧ (t = s ∨ R t s) := by
  induction selectors using List.reverseRecOn with
  | nil => cases h
  | append_singleton selectors last ih =>
    rw [List.pairwise_append] at hsorted
    have hkeep : ∀ t ∈ onePerGpu decimal minors selectors,
        t ∈ onePerGpu decimal minors (selectors ++ [last]) := by
      intro t ht
      rw [onePerGpu_concat]
      split
      · exact ht
      · exact List.mem_append_left _ ht
    rcases List.mem_append.mp h with h | h
    · obtain ⟨t, ht, hidentity, horder⟩ := ih hsorted.1 h
      exact ⟨t, hkeep t ht, hidentity, horder⟩
    · obtain rfl := List.mem_singleton.mp h
      by_cases hseen : physicalIdentity decimal minors s ∈
          (onePerGpu decimal minors selectors).map (physicalIdentity decimal minors)
      · obtain ⟨t, ht, hidentity⟩ := List.mem_map.mp hseen
        have hbefore : R t s :=
          hsorted.2.2 t (mem_of_mem_onePerGpu decimal minors ht) s (List.mem_singleton_self s)
        exact ⟨t, hkeep t ht, hidentity, .inr hbefore⟩
      · refine ⟨s, ?_, rfl, .inl rfl⟩
        rw [onePerGpu_concat, if_neg hseen]
        exact List.mem_append_right _ (List.mem_singleton_self s)

end

section

variable {types : List SelectorType}

theorem selectorLe_iff {a b : Selector} : selectorLe types a b = true ↔
    types.idxOf a.type < types.idxOf b.type ∨
      types.idxOf a.type = types.idxOf b.type ∧ a.key ≤ b.key := by
  unfold selectorLe
  rw [Bool.or_eq_true, Bool.and_eq_true, decide_eq_true_iff, decide_eq_true_iff, decide_eq_true_iff]

theorem selectorLe_trans (a b c : Selector) (hab : selectorLe types a b = true)
    (hbc : selectorLe types b c = true) : selectorLe types a c = true := by
  rw [selectorLe_iff] at hab hbc ⊢
  rcases hab with hab | ⟨hab, hkey⟩
  · left
    rcases hbc with hbc | ⟨hbc, -⟩ <;> omega
  · rcases hbc with hbc | ⟨hbc, hkey'⟩
    · left
      omega
    · exact .inr ⟨hab.trans hbc, hkey.trans hkey'⟩

theorem selectorLe_total (a b : Selector) : (selectorLe types a b || selectorLe types b a) = true := by
  rw [Bool.or_eq_true, selectorLe_iff, selectorLe_iff]
  rcases Nat.lt_trichotomy (types.idxOf a.type) (types.idxOf b.type) with h | h | h
  · exact .inl (.inl h)
  · rcases le_total a.key b.key with hkey | hkey
    · exact .inl (.inr ⟨h, hkey⟩)
    · exact .inr (.inr ⟨h.symm, hkey⟩)
  · exact .inr (.inl h)

def parsedSelectors (types : List SelectorType) (values : List (Plain F)) : List Selector :=
  values.foldl (fun parsed value ↦
    match selector (some value) with
    | some candidate =>
      if candidate.type ∈ types ∧ candidate ∉ parsed then parsed ++ [candidate] else parsed
    | none => parsed) []

theorem mem_parsedSelectors {values : List (Plain F)} {s : Selector} :
    s ∈ parsedSelectors types values ↔
      s.type ∈ types ∧ ∃ value ∈ values, selector (some value) = some s := by
  induction values using List.reverseRecOn with
  | nil => simp [parsedSelectors]
  | append_singleton values value ih =>
    have hstep : parsedSelectors types (values ++ [value]) =
        match selector (some value) with
        | some candidate =>
          if candidate.type ∈ types ∧ candidate ∉ parsedSelectors types values then
            parsedSelectors types values ++ [candidate]
          else parsedSelectors types values
        | none => parsedSelectors types values := by
      unfold parsedSelectors
      rw [List.foldl_append]
      rfl
    have hsplit : (∃ v ∈ values ++ [value], selector (some v) = some s) ↔
        (∃ v ∈ values, selector (some v) = some s) ∨ selector (some value) = some s := by
      simp only [List.mem_append, List.mem_singleton, or_and_right, exists_or, exists_eq_left]
    rw [hstep, hsplit]
    cases hvalue : selector (some value) with
    | none =>
      rw [ih]
      simp
    | some candidate =>
      dsimp only
      split
      · rename_i hnew
        rw [List.mem_append, ih, List.mem_singleton, Option.some_inj]
        constructor
        · rintro (⟨htype, hold⟩ | rfl)
          · exact ⟨htype, .inl hold⟩
          · exact ⟨hnew.1, .inr rfl⟩
        · rintro ⟨htype, hold | rfl⟩
          · exact .inl ⟨htype, hold⟩
          · exact .inr rfl
      · rename_i hold
        rw [ih, Option.some_inj]
        constructor
        · exact fun h => ⟨h.1, .inl h.2⟩
        · rintro ⟨htype, h | rfl⟩
          · exact ⟨htype, h⟩
          · exact ih.mp (by
              by_contra hnot
              exact hold ⟨htype, hnot⟩)

variable (decimal : Char → Bool) {vendor : Object F} {values : List (Plain F)}

theorem vendorSelectors_spec
    (hvalues : find "selectors".toList vendor = some (.array values))
    (huuid : ∀ s ∈ parsedSelectors types values,
      requireUuidMappings (minorByUuid vendor) [s] = .ok ()) :
    ∃ selectors, vendorSelectors decimal types vendor = .ok selectors ∧
      (selectors.map (physicalIdentity decimal (minorByUuid vendor))).Nodup ∧
      (∀ s ∈ selectors, s ∈ parsedSelectors types values) ∧
      ∀ s ∈ parsedSelectors types values, ∃ t ∈ selectors,
        physicalIdentity decimal (minorByUuid vendor) t =
          physicalIdentity decimal (minorByUuid vendor) s ∧
        types.idxOf t.type ≤ types.idxOf s.type := by
  let sorted := (parsedSelectors types values).mergeSort (selectorLe types)
  have hmem : ∀ s, s ∈ sorted ↔ s ∈ parsedSelectors types values := fun s => List.mem_mergeSort
  have hchecked : requireUuidMappings (minorByUuid vendor) sorted = .ok () := by
    unfold requireUuidMappings
    apply forM_total
    intro s hs
    have hone := huuid s ((hmem s).mp hs)
    unfold requireUuidMappings at hone
    exact forM_ok hone s (List.mem_singleton_self s)
  have hsorted : sorted.Pairwise (selectorLe types · ·) :=
    List.pairwise_mergeSort selectorLe_trans selectorLe_total _
  refine ⟨onePerGpu decimal (minorByUuid vendor) sorted, ?_, onePerGpu_nodup .., ?_, ?_⟩
  · unfold vendorSelectors
    rw [hvalues]
    show (requireUuidMappings (minorByUuid vendor) sorted >>= fun _ ↦
      .ok (onePerGpu decimal (minorByUuid vendor) sorted)) = _
    rw [hchecked]
    rfl
  · intro s hs
    exact (hmem s).mp (mem_of_mem_onePerGpu _ _ hs)
  · intro s hs
    obtain ⟨t, ht, hidentity, horder⟩ := onePerGpu_covers decimal _ hsorted ((hmem s).mpr hs)
    refine ⟨t, ht, hidentity, ?_⟩
    rcases horder with rfl | horder
    · exact le_refl _
    · rcases selectorLe_iff.mp horder with h | ⟨h, -⟩ <;> omega

end

end NixNas.Accelerator
