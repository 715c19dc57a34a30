import Mathlib.Data.List.Infix
import Mathlib.Data.List.Count

/-!
# Texts with a placeholder

A placeholder is replaced from the left, each occurrence once.  What it is replaced by can be read
off the result, which is why two fillings of one template differ.
-/

namespace Template

variable {α : Type*} [DecidableEq α]
variable {c : α} {x y : List α}

/-- The rest of an occurrence is skipped. -/
def replaceFrom (old new : List α) : ℕ → List α → List α
  | _, [] => []
  | skip + 1, _ :: s => replaceFrom old new skip s
  | 0, c :: s =>
    if old.isPrefixOf (c :: s) then new ++ replaceFrom old new (old.length - 1) s
    else c :: replaceFrom old new 0 s

def replace (old new s : List α) : List α := replaceFrom old new 0 s

def fill (mark : α) (x : List α) (c : α) : List α := if c = mark then x else [c]

variable {old s : List α} {mark : α}

/-- Replacing is marking the occurrences, and then filling the marks. -/
theorem replaceFrom_eq_flatMap (x : List α) (hmark : mark ∉ s) (skip : ℕ) :
    replaceFrom old x skip s = (replaceFrom old [mark] skip s).flatMap (fill mark x) := by
  induction s generalizing skip with
  | nil =>
    unfold replaceFrom
    rfl
  | cons c s ih =>
    rw [List.mem_cons, not_or] at hmark
    cases skip with
    | succ skip => exact ih hmark.2 skip
    | zero =>
      unfold replaceFrom
      by_cases hstarts : old.isPrefixOf (c :: s) = true
      · rw [if_pos hstarts, if_pos hstarts, List.singleton_append, List.flatMap_cons,
          ← ih hmark.2, fill, if_pos rfl]
      · have hc : c ≠ mark := fun heq => hmark.1 heq.symm
        rw [if_neg hstarts, if_neg hstarts, List.flatMap_cons, ← ih hmark.2, fill, if_neg hc]
        rfl

theorem replace_eq_flatMap (x : List α) (hmark : mark ∉ s) :
    replace old x s = (replace old [mark] s).flatMap (fill mark x) :=
  replaceFrom_eq_flatMap x hmark 0

theorem mem_replaceFrom (new : List α) (hne : old ≠ []) (hold : c ∉ old) {skip : ℕ}
    (hskip : s.take skip ⊆ old) (hc : c ∈ s) : c ∈ replaceFrom old new skip s := by
  induction s generalizing skip with
  | nil => exact hc
  | cons d s ih =>
    cases skip with
    | succ skip =>
      rw [List.take_succ_cons, List.cons_subset] at hskip
      have hcd : c ≠ d := fun heq => hold (heq ▸ hskip.1)
      exact ih hskip.2 ((List.mem_cons.mp hc).resolve_left hcd)
    | zero =>
      unfold replaceFrom
      by_cases hstarts : old.isPrefixOf (d :: s) = true
      · rw [if_pos hstarts]
        apply List.mem_append_right
        obtain ⟨rest, hrest⟩ := List.isPrefixOf_iff_prefix.mp hstarts
        cases old with
        | nil => exact (hne rfl).elim
        | cons e old =>
          cases hrest
          have hcd : c ≠ d := fun heq => hold (heq ▸ List.mem_cons_self)
          apply ih ?_ ((List.mem_cons.mp hc).resolve_left hcd)
          have htake : (old ++ rest).take old.length = old := List.take_left
          rw [List.length_cons, Nat.add_sub_cancel]
          exact htake.symm ▸ List.subset_cons_self d old
      · rw [if_neg hstarts]
        rcases List.mem_cons.mp hc with rfl | hc
        · exact List.mem_cons_self
        · exact List.mem_cons_of_mem d (ih (List.nil_subset _) hc)

theorem mark_mem_replace (hne : old ≠ []) (h : old <:+: s) : mark ∈ replace old [mark] s := by
  unfold replace
  induction s with
  | nil => exact (hne (List.infix_nil.mp h)).elim
  | cons c s ih =>
    unfold replaceFrom
    by_cases hstarts : old.isPrefixOf (c :: s) = true
    · rw [if_pos hstarts]
      exact List.mem_append_left _ (List.mem_singleton_self mark)
    · rw [if_neg hstarts]
      rcases List.infix_cons_iff.mp h with hfront | hrest
      · exact (hstarts (List.isPrefixOf_iff_prefix.mpr hfront)).elim
      · exact List.mem_cons_of_mem c (ih hrest)

theorem length_fill (mark : α) (x s : List α) :
    (s.flatMap (fill mark x)).length + s.count mark = s.length + s.count mark * x.length := by
  induction s with
  | nil => simp
  | cons c s ih =>
    rw [List.flatMap_cons, List.length_append, List.count_cons, List.length_cons]
    by_cases hc : c = mark
    · rw [fill, if_pos hc, if_pos (beq_iff_eq.mpr hc), Nat.add_mul, Nat.one_mul]
      omega
    · rw [fill, if_neg hc, if_neg (fun h => hc (beq_iff_eq.mp h)), List.length_singleton,
        Nat.add_zero]
      omega

/-- A marked text is filled alike by equal texts only. -/
theorem eq_of_fill_eq (hmark : mark ∈ s)
    (h : s.flatMap (fill mark x) = s.flatMap (fill mark y)) : x = y := by
  have hlength : x.length = y.length := by
    have hx := length_fill mark x s
    have hy := length_fill mark y s
    rw [h] at hx
    have hcount : s.count mark * x.length = s.count mark * y.length := by omega
    exact Nat.eq_of_mul_eq_mul_left (List.count_pos_iff.mpr hmark) hcount
  induction s with
  | nil => exact (List.not_mem_nil hmark).elim
  | cons c s ih =>
    rw [List.flatMap_cons, List.flatMap_cons] at h
    by_cases hc : c = mark
    · rw [fill, fill, if_pos hc, if_pos hc] at h
      exact (List.append_inj h hlength).1
    · rw [fill, fill, if_neg hc, if_neg hc] at h
      have hrest : mark ∈ s := (List.mem_cons.mp hmark).resolve_left fun heq => hc heq.symm
      exact ih hrest (List.append_cancel_left h)

theorem fill_of_notMem (hmark : mark ∉ s) : s.flatMap (fill mark x) = s := by
  induction s with
  | nil => rfl
  | cons c s ih =>
    rw [List.mem_cons, not_or] at hmark
    have hc : c ≠ mark := fun heq => hmark.1 heq.symm
    rw [List.flatMap_cons, fill, if_neg hc, ih hmark.2]
    rfl

theorem subset_fill (hmark : mark ∈ s) : x ⊆ s.flatMap (fill mark x) := by
  intro c hc
  rw [List.mem_flatMap]
  refine ⟨mark, hmark, ?_⟩
  rw [fill, if_pos rfl]
  exact hc

theorem replaceFrom_self (hne : old ≠ []) (skip : ℕ) : replaceFrom old old skip s = s.drop skip := by
  induction s generalizing skip with
  | nil => rw [replaceFrom, List.drop_nil]
  | cons c s ih =>
    cases skip with
    | succ skip => exact ih skip
    | zero =>
      unfold replaceFrom
      rw [List.drop_zero, ih, ih]
      by_cases hstarts : old.isPrefixOf (c :: s) = true
      · rw [if_pos hstarts]
        obtain ⟨rest, hrest⟩ := List.isPrefixOf_iff_prefix.mp hstarts
        obtain ⟨d, tail, rfl⟩ := List.exists_cons_of_ne_nil hne
        rw [List.cons_append, List.cons.injEq] at hrest
        rw [List.length_cons, Nat.add_sub_cancel, ← hrest.2, List.drop_left, hrest.1]
        rfl
      · rw [if_neg hstarts, List.drop_zero]

theorem replace_self (hne : old ≠ []) : replace old old s = s := replaceFrom_self hne 0

theorem mem_fill : c ∈ s.flatMap (fill mark x) ↔ mark ∈ s ∧ c ∈ x ∨ c ∈ s ∧ c ≠ mark := by
  rw [List.mem_flatMap]
  constructor
  · rintro ⟨d, hd, hc⟩
    unfold fill at hc
    split at hc
    · rename_i heq
      exact .inl ⟨heq ▸ hd, hc⟩
    · rename_i hne
      rw [List.mem_singleton.mp hc]
      exact .inr ⟨hd, hne⟩
  · rintro (⟨hmark, hc⟩ | ⟨hc, hne⟩)
    · exact ⟨mark, hmark, by rwa [fill, if_pos rfl]⟩
    · exact ⟨c, hc, by rw [fill, if_neg hne]; exact List.mem_singleton_self c⟩

/-- What stands at the front of two different fillings stands there in every filling. -/
theorem prefix_map_fill {front parts : List (List α)} (hne : x ≠ y)
    (hx : front <+: parts.map (·.flatMap (fill mark x)))
    (hy : front <+: parts.map (·.flatMap (fill mark y))) (z : List α) :
    front <+: parts.map (·.flatMap (fill mark z)) := by
  induction front generalizing parts with
  | nil => exact List.nil_prefix
  | cons part front ih =>
    cases parts with
    | nil => exact absurd (List.prefix_nil.mp hx) (List.cons_ne_nil part front)
    | cons first parts =>
      rw [List.map_cons, List.cons_prefix_cons] at hx hy ⊢
      have hmark : mark ∉ first := fun hmem => hne (eq_of_fill_eq hmem (hx.1.symm.trans hy.1))
      refine ⟨?_, ih hx.2 hy.2⟩
      rw [hx.1, fill_of_notMem hmark, fill_of_notMem hmark]

end Template
