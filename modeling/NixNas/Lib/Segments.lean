import Mathlib.Data.List.Flatten

/-!
# Texts cut into segments

Splitting at a separator, joining with the separator in front of every segment, and the prefix
order of the segments read off the joined texts.
-/

namespace Segments

variable {α : Type*} {sep : α}
variable {s r t : List α} {ps qs segs : List (List α)}

def join (sep : α) (segs : List (List α)) : List α := segs.flatMap (sep :: ·)

@[simp] theorem join_nil : join sep ([] : List (List α)) = [] := rfl

@[simp] theorem join_cons (s : List α) (segs : List (List α)) :
    join sep (s :: segs) = sep :: (s ++ join sep segs) := rfl

@[simp] theorem join_append (segs segs' : List (List α)) :
    join sep (segs ++ segs') = join sep segs ++ join sep segs' :=
  List.flatMap_append

theorem append_inj_of_free {s' r' : List α} (hs : sep ∉ s) (hs' : sep ∉ s')
    (hr : r = [] ∨ ∃ u, r = sep :: u) (hr' : r' = [] ∨ ∃ u, r' = sep :: u)
    (h : s ++ r = s' ++ r') : s = s' ∧ r = r' := by
  induction s generalizing s' with
  | nil =>
    cases s' with
    | nil => exact ⟨rfl, h⟩
    | cons c s' =>
      rw [List.mem_cons, not_or] at hs'
      obtain rfl | ⟨u, rfl⟩ := hr
      · cases h
      · exact absurd (List.cons.inj h).1 hs'.1
  | cons c s ih =>
    rw [List.mem_cons, not_or] at hs
    cases s' with
    | nil =>
      obtain rfl | ⟨u, rfl⟩ := hr'
      · cases h
      · exact absurd (List.cons.inj h).1.symm hs.1
    | cons c' s' =>
      rw [List.mem_cons, not_or] at hs'
      obtain ⟨rfl, htail⟩ := List.cons.inj h
      obtain ⟨rfl, hrest⟩ := ih hs.2 hs'.2 htail
      exact ⟨rfl, hrest⟩

theorem cons_intercalate (s : List α) (segs : List (List α)) :
    sep :: [sep].intercalate (s :: segs) = join sep (s :: segs) := by
  induction segs generalizing s with
  | nil => rw [List.intercalate_singleton, join_cons, join_nil, List.append_nil]
  | cons s' segs ih =>
    rw [List.intercalate_cons_cons, join_cons, ← ih, List.append_assoc]
    rfl

theorem join_eq_nil_or_cons (segs : List (List α)) :
    join sep segs = [] ∨ ∃ u, join sep segs = sep :: u := by
  cases segs with
  | nil => exact .inl rfl
  | cons s segs => exact .inr ⟨_, rfl⟩

theorem prefix_of_join_append (hps : ∀ s ∈ ps, sep ∉ s)
    (hqs : ∀ s ∈ qs, sep ∉ s) (hr : r = [] ∨ ∃ u, r = sep :: u)
    (h : join sep ps ++ r = join sep qs) : ps <+: qs := by
  induction ps generalizing qs with
  | nil => exact List.nil_prefix
  | cons s ps ih =>
    cases qs with
    | nil => cases h
    | cons s' qs =>
      rw [join_cons, join_cons, List.cons_append, List.append_assoc] at h
      have htail : join sep ps ++ r = [] ∨ ∃ u, join sep ps ++ r = sep :: u := by
        have hcases : join sep ps = [] ∨ ∃ u, join sep ps = sep :: u := join_eq_nil_or_cons ps
        obtain hnil | ⟨u, hu⟩ := hcases
        · rw [hnil, List.nil_append]
          exact hr
        · exact .inr ⟨u ++ r, by rw [hu, List.cons_append]⟩
      obtain ⟨rfl, hrest⟩ := append_inj_of_free (hps s List.mem_cons_self)
        (hqs s' List.mem_cons_self) htail (join_eq_nil_or_cons qs) (List.cons.inj h).2
      rw [List.cons_prefix_cons]
      exact ⟨rfl, ih (fun s' h' => hps s' (List.mem_cons_of_mem s h'))
        (fun s' h' => hqs s' (List.mem_cons_of_mem s h')) hrest⟩

theorem join_prefix_iff (hps : ∀ s ∈ ps, sep ∉ s) (hqs : ∀ s ∈ qs, sep ∉ s) :
    (join sep ps = join sep qs ∨ join sep ps ++ [sep] <+: join sep qs) ↔ ps <+: qs := by
  refine ⟨?_, ?_⟩
  · rintro (heq | ⟨u, hu⟩)
    · exact prefix_of_join_append (r := []) hps hqs (.inl rfl) (by rw [List.append_nil, heq])
    · exact prefix_of_join_append (r := sep :: u) hps hqs (.inr ⟨u, rfl⟩) (by simpa using hu)
  · rintro ⟨rest, rfl⟩
    cases rest with
    | nil => exact .inl (by simp)
    | cons s rest => exact .inr ⟨s ++ join sep rest, by simp⟩

variable [DecidableEq α]

def segments (sep : α) (t : List α) : List (List α) := (t.splitOn sep).filter (· ≠ [])

theorem join_splitOn (t : List α) : join sep (t.splitOn sep) = sep :: t := by
  induction t with
  | nil => simp [List.splitOn_nil]
  | cons c t ih =>
    rw [List.splitOn_cons_eq_if_modifyHead]
    by_cases hc : (c == sep) = true
    · rw [if_pos hc, join_cons, ih, List.nil_append, ← eq_of_beq hc]
    · rw [if_neg hc]
      cases hsplit : t.splitOn sep with
      | nil => exact absurd hsplit (List.splitOn_ne_nil sep t)
      | cons s segs =>
        rw [hsplit, join_cons, List.cons.injEq] at ih
        simp [ih.2]

theorem not_mem_of_mem_splitOn (h : s ∈ t.splitOn sep) : sep ∉ s := by
  induction t generalizing s with
  | nil =>
    rw [List.splitOn_nil, List.mem_singleton] at h
    simp [h]
  | cons c t ih =>
    rw [List.splitOn_cons_eq_if_modifyHead] at h
    by_cases hc : (c == sep) = true
    · rw [if_pos hc, List.mem_cons] at h
      obtain rfl | h := h
      · simp
      · exact ih h
    · rw [if_neg hc] at h
      cases hsplit : t.splitOn sep with
      | nil => exact absurd hsplit (List.splitOn_ne_nil sep t)
      | cons first segs =>
        rw [hsplit, List.modifyHead_cons, List.mem_cons] at h
        rw [hsplit] at ih
        obtain rfl | h := h
        · rw [List.mem_cons, not_or]
          exact ⟨fun heq => hc (by simp [heq]), ih List.mem_cons_self⟩
        · exact ih (List.mem_cons_of_mem first h)

theorem splitOn_append_join (s : List α) (hs : sep ∉ s)
    (hfree : ∀ s ∈ segs, sep ∉ s) : (s ++ join sep segs).splitOn sep = s :: segs := by
  induction segs generalizing s with
  | nil => rw [join_nil, List.append_nil, List.splitOn_eq_singleton hs]
  | cons s' segs ih =>
    rw [join_cons, List.splitOn_append_cons_self, List.splitOn_eq_singleton hs,
      ih s' (hfree s' List.mem_cons_self) fun s h => hfree s (List.mem_cons_of_mem s' h)]
    rfl

theorem splitOn_join (hfree : ∀ s ∈ segs, sep ∉ s) : (join sep segs).splitOn sep = [] :: segs :=
  splitOn_append_join [] List.not_mem_nil hfree

theorem segments_join (hfree : ∀ s ∈ segs, sep ∉ s)
    (hne : ∀ s ∈ segs, s ≠ []) : segments sep (join sep segs) = segs := by
  unfold segments
  rw [splitOn_join hfree, List.filter_cons_of_neg (by simp)]
  exact List.filter_eq_self.mpr fun s hs => by simpa using hne s hs

theorem not_mem_of_mem_segments (h : s ∈ segments sep t) : sep ∉ s :=
  not_mem_of_mem_splitOn (List.mem_filter.mp h).1

theorem ne_nil_of_mem_segments (h : s ∈ segments sep t) : s ≠ [] := by
  simpa using (List.mem_filter.mp h).2

theorem segments_append_sep (t : List α) : segments sep (t ++ [sep]) = segments sep t := by
  unfold segments
  rw [List.splitOn_append_cons_self, List.splitOn_nil, List.filter_append]
  simp

theorem splitOn_cons_sep (t : List α) : (sep :: t).splitOn sep = [] :: t.splitOn sep := by
  rw [List.splitOn_cons_eq_if_modifyHead, if_pos (by simp)]

theorem segments_cons_sep (t : List α) : segments sep (sep :: t) = segments sep t := by
  unfold segments
  rw [splitOn_cons_sep, List.filter_cons_of_neg (by simp)]

omit [DecidableEq α] in
theorem infix_of_append_free (hs : sep ∉ s) (h : [sep, sep] <:+: s ++ r) : [sep, sep] <:+: r := by
  induction s with
  | nil => exact h
  | cons c s ih =>
    rw [List.mem_cons, not_or] at hs
    rw [List.cons_append, List.infix_cons_iff] at h
    obtain h | h := h
    · rw [List.cons_prefix_cons] at h
      exact absurd h.1 hs.1
    · exact ih hs.2 h

omit [DecidableEq α] in
theorem not_infix_join (hfree : ∀ s ∈ segs, sep ∉ s)
    (hne : ∀ s ∈ segs, s ≠ []) : ¬ [sep, sep] <:+: join sep segs := by
  induction segs with
  | nil => simp
  | cons s segs ih =>
    have hs := hfree s List.mem_cons_self
    rw [join_cons, List.infix_cons_iff]
    rintro (h | h)
    · rw [List.cons_prefix_cons] at h
      cases s with
      | nil => exact hne [] List.mem_cons_self rfl
      | cons c s =>
        rw [List.cons_append, List.cons_prefix_cons] at h
        exact hs (h.2.1 ▸ List.mem_cons_self)
    · exact ih (fun s' h' => hfree s' (List.mem_cons_of_mem s h'))
        (fun s' h' => hne s' (List.mem_cons_of_mem s h')) (infix_of_append_free hs h)

omit [DecidableEq α] in
theorem pieces_of_not_infix {pieces : List (List α)} (h : ¬ [sep, sep] <:+: join sep pieces) :
    pieces = pieces.filter (· ≠ []) ∨ pieces = pieces.filter (· ≠ []) ++ [[]] := by
  induction pieces with
  | nil => exact .inl rfl
  | cons s pieces ih =>
    have hrest : ¬ [sep, sep] <:+: join sep pieces := by
      intro hrest
      rw [join_cons, ← List.cons_append] at h
      exact h (List.infix_append_of_infix_right hrest)
    by_cases hs : s = []
    · cases pieces with
      | nil => exact .inr (by simp [hs])
      | cons s' pieces =>
        refine absurd ?_ h
        rw [hs, join_cons, List.nil_append, join_cons]
        exact ⟨[], s' ++ join sep pieces, rfl⟩
    · rw [List.filter_cons_of_pos (by simpa using hs), List.cons_append, List.cons.injEq,
        List.cons.injEq]
      obtain hall | hlast := ih hrest
      · exact .inl ⟨rfl, hall⟩
      · exact .inr ⟨rfl, hlast⟩

theorem eq_join_segments (h : ¬ [sep, sep] <:+: sep :: t) :
    sep :: t = join sep (segments sep (sep :: t)) ∨
      sep :: t = join sep (segments sep (sep :: t)) ++ [sep] := by
  rw [segments_cons_sep]
  have hjoin : join sep (t.splitOn sep) = sep :: t := join_splitOn t
  rw [← hjoin] at h
  obtain hall | hlast := pieces_of_not_infix h
  · exact .inl (hjoin.symm.trans (congrArg (join sep) hall))
  · refine .inr (hjoin.symm.trans ((congrArg (join sep) hlast).trans ?_))
    rw [join_append]
    rfl

theorem join_segments_sublist (t : List α) :
    (join sep (segments sep (sep :: t))).Sublist (sep :: t) := by
  rw [segments_cons_sep, ← join_splitOn t]
  exact List.filter_sublist.flatMap _

variable {f : α → List α}

/-- A rewriting keeps the separator, and makes no other one. -/
structure Keeps (sep : α) (f : α → List α) : Prop where
  keep : f sep = [sep]
  free : ∀ c, c ≠ sep → sep ∉ f c

omit [DecidableEq α] in
theorem flatMap_join (hf : Keeps sep f) (segs : List (List α)) :
    (join sep segs).flatMap f = join sep (segs.map (·.flatMap f)) := by
  induction segs with
  | nil => rfl
  | cons s segs ih => simp [hf.keep, ih]

omit [DecidableEq α] in
theorem Keeps.not_mem_flatMap (hf : Keeps sep f) (hs : sep ∉ s) : sep ∉ s.flatMap f := by
  rw [List.mem_flatMap]
  rintro ⟨c, hc, hsep⟩
  exact hf.free c (fun heq => hs (heq ▸ hc)) hsep

theorem splitOn_flatMap (hf : Keeps sep f) (t : List α) :
    (t.flatMap f).splitOn sep = (t.splitOn sep).map (·.flatMap f) := by
  have hfree : ∀ s ∈ (t.splitOn sep).map (·.flatMap f), sep ∉ s := by
    simp only [List.mem_map, forall_exists_index, and_imp, forall_apply_eq_imp_iff₂]
    exact fun s hs => hf.not_mem_flatMap (not_mem_of_mem_splitOn hs)
  have hjoin : sep :: t.flatMap f = join sep ((t.splitOn sep).map (·.flatMap f)) := by
    rw [← flatMap_join hf, join_splitOn, List.flatMap_cons, hf.keep]
    rfl
  have hsplit := splitOn_join hfree
  rw [← hjoin, splitOn_cons_sep] at hsplit
  exact (List.cons.inj hsplit).2

theorem segments_flatMap (hf : Keeps sep f) (hne : ∀ c, f c ≠ []) (t : List α) :
    segments sep (t.flatMap f) = (segments sep t).map (·.flatMap f) := by
  unfold segments
  rw [splitOn_flatMap hf, List.filter_map]
  congr 1
  refine List.filter_congr fun s _ => ?_
  cases s with
  | nil => simp
  | cons c s => simp [hne c]

end Segments
