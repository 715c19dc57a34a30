import Mathlib.Data.List.DropRight

/-!
# Words between separators

A text lists words with a separator and optional blanks between two of them.  A word stands in the
list exactly if it occurs in the text with a separator or an end of the text on both sides.
-/

namespace Fields

structure Marks (α : Type*) where
  sep : α → Bool
  blank : α → Bool
  disjoint : ∀ c, sep c = true → blank c = false

variable {α : Type*} (m : Marks α)
variable {names : List (List α)} {t : List α}

def Blanks (u : List α) : Prop := ∀ c ∈ u, m.blank c = true

def NoSep (u : List α) : Prop := ∀ c ∈ u, m.sep c = false

/-- The text is empty, or ends with a separator and blanks. -/
def Before (u : List α) : Prop :=
  u = [] ∨ ∃ u' c b, u = u' ++ c :: b ∧ m.sep c = true ∧ Blanks m b

/-- The text is empty, or starts with blanks and a separator. -/
def After (v : List α) : Prop :=
  v = [] ∨ ∃ b c v', v = b ++ c :: v' ∧ m.sep c = true ∧ Blanks m b

/-- The word occurs in `s` between marks, where `pre` stands in front of `s`. -/
def OccursFrom (w pre s : List α) : Prop :=
  ∃ u v, s = u ++ (w ++ v) ∧ Before m (pre ++ u) ∧ After m v

def Occurs (w s : List α) : Prop := OccursFrom m w [] s

/-- A text without separators that neither starts nor ends with a blank. -/
structure Word (w : List α) : Prop where
  noSep : NoSep m w
  head : ∀ c, w.head? = some c → m.blank c = false
  last : ∀ c, w.getLast? = some c → m.blank c = false

structure Joint where
  left : List α
  mark : α
  right : List α
  isSep : m.sep mark = true
  left_blank : Blanks m left
  right_blank : Blanks m right

/-- The texts that list the words. -/
inductive Lists : List (List α) → List α → Prop where
  | nil : Lists [] []
  | single (n : List α) : Lists [n] n
  | cons (n n' : List α) (rest : List (List α)) (t : List α) (j : Joint m) :
      Lists (n' :: rest) t → Lists (n :: n' :: rest) (n ++ j.left ++ j.mark :: (j.right ++ t))

variable {m} {w n u v b x y pre : List α} {c : α}

theorem Blanks.noSep (h : Blanks m u) : NoSep m u := by
  intro c hc
  by_contra hsep
  have := m.disjoint c (by simpa using hsep)
  rw [h c hc] at this
  cases this

theorem blanks_nil : Blanks m ([] : List α) := nofun

theorem Blanks.append (hu : Blanks m u) (hv : Blanks m v) : Blanks m (u ++ v) := by
  intro c hc
  obtain hc | hc := List.mem_append.mp hc
  · exact hu c hc
  · exact hv c hc

theorem NoSep.append (hu : NoSep m u) (hv : NoSep m v) : NoSep m (u ++ v) := by
  intro c hc
  obtain hc | hc := List.mem_append.mp hc
  · exact hu c hc
  · exact hv c hc

theorem NoSep.not_sep (h : NoSep m u) (hc : c ∈ u) : m.sep c ≠ true := by
  rw [h c hc]
  exact Bool.false_ne_true

/-! ## Stripping -/

def strip (m : Marks α) (t : List α) : List α := (t.dropWhile m.blank).rdropWhile m.blank

theorem dropWhile_blanks (h : Blanks m u) (t : List α) :
    (u ++ t).dropWhile m.blank = t.dropWhile m.blank := List.dropWhile_append_of_pos h

theorem rdropWhile_blanks (h : Blanks m u) (t : List α) :
    (t ++ u).rdropWhile m.blank = t.rdropWhile m.blank := by
  induction u using List.reverseRecOn with
  | nil => rw [List.append_nil]
  | append_singleton u c ih =>
    have hc : m.blank c = true := h c (by simp)
    rw [← List.append_assoc, List.rdropWhile_concat_pos _ _ _ hc,
      ih fun d hd => h d (List.mem_append_left _ hd)]

theorem strip_word (hu : Blanks m u) (hv : Blanks m v) (hw : Word m w) :
    strip m (u ++ (w ++ v)) = w := by
  unfold strip
  rw [dropWhile_blanks hu]
  cases w with
  | nil =>
    have hnil : v.dropWhile m.blank = [] := List.dropWhile_eq_nil_iff.mpr hv
    rw [List.nil_append, hnil]
    rfl
  | cons c w =>
    have hhead := hw.head c rfl
    rw [List.cons_append, List.dropWhile_cons_of_neg (by rw [hhead]; exact Bool.false_ne_true),
      ← List.cons_append, rdropWhile_blanks hv, List.rdropWhile_eq_self_iff]
    intro hne hblank
    have hlast := hw.last _ (List.getLast?_eq_some_getLast hne)
    rw [hblank] at hlast
    cases hlast

/-! ## Cutting at a separator -/

theorem before_append_sep (hc : m.sep c = true) :
    Before m (x ++ c :: u) ↔ Before m (c :: u) := by
  constructor
  · rintro (hnil | ⟨u', d, b, heq, hd, hb⟩)
    · simp at hnil
    · obtain ⟨k, hk, heq'⟩ | ⟨k, rfl, heq'⟩ := List.append_eq_append_iff.mp heq
      · exact .inr ⟨k, d, b, heq', hd, hb⟩
      · cases k with
        | nil =>
          obtain ⟨rfl, rfl⟩ := List.cons.inj heq'
          exact .inr ⟨[], d, b, rfl, hd, hb⟩
        | cons e k =>
          obtain ⟨rfl, rfl⟩ := List.cons.inj heq'
          exact absurd hc (hb.noSep.not_sep (by simp))
  · rintro (hnil | ⟨u', d, b, heq, hd, hb⟩)
    · cases hnil
    · exact .inr ⟨x ++ u', d, b, by rw [heq, List.append_assoc], hd, hb⟩

theorem after_sep (hv : NoSep m v) (hc : m.sep c = true) :
    After m (v ++ c :: y) ↔ Blanks m v := by
  constructor
  · rintro (hnil | ⟨b, d, v', heq, hd, hb⟩)
    · simp at hnil
    · obtain ⟨k, rfl, -⟩ | ⟨k, rfl, heq'⟩ := List.append_eq_append_iff.mp heq
      · exact fun e he => hb e (List.mem_append_left _ he)
      · cases k with
        | nil => rwa [List.append_nil]
        | cons e k =>
          obtain ⟨rfl, -⟩ := List.cons.inj heq'
          exact absurd hd (hv.not_sep (by simp))
  · exact fun hb => .inr ⟨v, c, y, rfl, hc, hb⟩

theorem after_noSep (hv : NoSep m v) : After m v ↔ v = [] := by
  refine ⟨?_, .inl⟩
  rintro (hnil | ⟨b, d, v', rfl, hd, -⟩)
  · exact hnil
  · exact absurd hd (hv.not_sep (by simp))

theorem before_noSep (hu : NoSep m u) : Before m u ↔ u = [] := by
  refine ⟨?_, .inl⟩
  rintro (hnil | ⟨u', d, b, rfl, hd, -⟩)
  · exact hnil
  · exact absurd hd (hu.not_sep (by simp))

theorem before_sep_cons (hu : NoSep m u) (hc : m.sep c = true) :
    Before m (c :: u) ↔ Blanks m u := by
  constructor
  · rintro (hnil | ⟨u', d, b, heq, hd, hb⟩)
    · cases hnil
    · cases u' with
      | nil =>
        obtain ⟨-, rfl⟩ := List.cons.inj heq
        exact hb
      | cons e u' =>
        obtain ⟨-, rfl⟩ := List.cons.inj heq
        exact absurd hd (hu.not_sep (by simp))
  · exact fun hb => .inr ⟨[], c, u, rfl, hc, hb⟩

theorem occursFrom_cut (hw : NoSep m w) (hne : w ≠ []) (hx : NoSep m x) (hc : m.sep c = true) :
    OccursFrom m w pre (x ++ c :: y) ↔
      (∃ u v, x = u ++ (w ++ v) ∧ Before m (pre ++ u) ∧ Blanks m v) ∨ OccursFrom m w [c] y := by
  constructor
  · rintro ⟨u, v, heq, hbefore, hafter⟩
    obtain ⟨k, rfl, heq'⟩ | ⟨k, rfl, heq'⟩ := List.append_eq_append_iff.mp heq
    · -- the word starts behind `x`
      cases k with
      | nil =>
        obtain ⟨d, w, rfl⟩ := List.exists_cons_of_ne_nil hne
        obtain ⟨rfl, -⟩ := List.cons.inj heq'
        exact absurd hc (hw.not_sep List.mem_cons_self)
      | cons d k =>
        obtain ⟨rfl, rfl⟩ := List.cons.inj heq'
        rw [← List.append_assoc, before_append_sep hc] at hbefore
        exact .inr ⟨k, v, rfl, hbefore, hafter⟩
    · obtain ⟨a, rfl, rfl⟩ | ⟨a, rfl, heq''⟩ := List.append_eq_append_iff.mp heq'
      · -- the word ends in front of the separator
        have ha : NoSep m a := fun e he => hx e (by simp [he])
        exact .inl ⟨u, a, rfl, hbefore, (after_sep ha hc).mp hafter⟩
      · cases a with
        | nil =>
          rw [List.nil_append] at heq''
          refine .inl ⟨u, [], by simp, hbefore, nofun⟩
        | cons d a =>
          obtain ⟨rfl, -⟩ := List.cons.inj heq''
          exact absurd hc (hw.not_sep (by simp))
  · rintro (⟨u, v, rfl, hbefore, hv⟩ | ⟨u, v, rfl, hbefore, hafter⟩)
    · exact ⟨u, v ++ c :: y, by simp, hbefore, .inr ⟨v, c, y, rfl, hc, hv⟩⟩
    · refine ⟨x ++ c :: u, v, by simp, ?_, hafter⟩
      rw [← List.append_assoc, before_append_sep hc]
      exact hbefore

theorem occursFrom_noSep (hx : NoSep m x) :
    OccursFrom m w pre x ↔ ∃ u, x = u ++ w ∧ Before m (pre ++ u) := by
  constructor
  · rintro ⟨u, v, rfl, hbefore, hafter⟩
    have hv : NoSep m v := fun e he => hx e (by simp [he])
    rw [after_noSep hv] at hafter
    exact ⟨u, by rw [hafter, List.append_nil], hbefore⟩
  · rintro ⟨u, rfl, hbefore⟩
    exact ⟨u, [], by simp, hbefore, .inl rfl⟩

/-! ## Lists of words -/

theorem eq_of_padded {u' v' : List α} (hw : Word m w) (hn : Word m n) (hu : Blanks m u)
    (hv : Blanks m v) (hu' : Blanks m u') (hv' : Blanks m v')
    (h : u ++ (w ++ v) = u' ++ (n ++ v')) : w = n := by
  rw [← strip_word hu hv hw, h, strip_word hu' hv' hn]

theorem occursFrom_sep_iff (hlists : Lists m names t)
    (hnames : ∀ n ∈ names, Word m n) (hw : Word m w) (hne : w ≠ []) (hc : m.sep c = true)
    (hb : Blanks m b) : OccursFrom m w [c] (b ++ t) ↔ w ∈ names := by
  induction hlists generalizing b c with
  | nil =>
    rw [List.append_nil, occursFrom_noSep hb.noSep]
    simp only [List.not_mem_nil, iff_false, not_exists, not_and]
    rintro u rfl -
    obtain ⟨d, w, rfl⟩ := List.exists_cons_of_ne_nil hne
    have := hw.head d rfl
    rw [hb d (by simp)] at this
    cases this
  | single n =>
    have hn := hnames n List.mem_cons_self
    rw [occursFrom_noSep (hb.noSep.append hn.noSep), List.mem_singleton]
    constructor
    · rintro ⟨u, heq, hbefore⟩
      have hu : NoSep m u := fun e he => (hb.noSep.append hn.noSep) e (by rw [heq]; simp [he])
      have hblank := (before_sep_cons hu hc).mp hbefore
      exact eq_of_padded hw hn hblank blanks_nil hb blanks_nil (by simpa using heq.symm)
    · rintro rfl
      exact ⟨b, rfl, (before_sep_cons hb.noSep hc).mpr hb⟩
  | cons n n' rest t j hrest ih =>
    have hn := hnames n List.mem_cons_self
    have hx : NoSep m (b ++ (n ++ j.left)) := hb.noSep.append (hn.noSep.append j.left_blank.noSep)
    have hcut : OccursFrom m w [c] (b ++ (n ++ j.left) ++ j.mark :: (j.right ++ t)) ↔ _ :=
      occursFrom_cut hw.noSep hne hx j.isSep
    have htail := ih (fun n hn => hnames n (List.mem_cons_of_mem _ hn)) j.isSep j.right_blank
    have htext : b ++ (n ++ j.left ++ j.mark :: (j.right ++ t)) =
        b ++ (n ++ j.left) ++ j.mark :: (j.right ++ t) := by simp
    rw [htext, hcut, htail, List.mem_cons (a := w) (b := n)]
    refine or_congr ⟨?_, ?_⟩ Iff.rfl
    · rintro ⟨u, v, heq, hbefore, hv⟩
      have hu : NoSep m u := fun e he => hx e (by rw [heq]; simp [he])
      exact eq_of_padded hw hn ((before_sep_cons hu hc).mp hbefore) hv hb j.left_blank heq.symm
    · rintro rfl
      exact ⟨b, j.left, rfl, (before_sep_cons hb.noSep hc).mpr hb, j.left_blank⟩

theorem occurs_iff_mem (hlists : Lists m names t)
    (hnames : ∀ n ∈ names, Word m n) (hw : Word m w) (hne : w ≠ []) :
    Occurs m w t ↔ w ∈ names := by
  unfold Occurs
  cases hlists with
  | nil =>
    have hnil : NoSep m ([] : List α) := nofun
    rw [occursFrom_noSep hnil]
    simp only [List.not_mem_nil, iff_false, not_exists, not_and]
    intro u heq
    exact absurd (List.append_eq_nil_iff.mp heq.symm).2 hne
  | single =>
    have hn := hnames t List.mem_cons_self
    rw [occursFrom_noSep hn.noSep, List.mem_singleton]
    constructor
    · rintro ⟨u, rfl, hbefore⟩
      have hu : NoSep m u := fun e he => hn.noSep e (by simp [he])
      rw [List.nil_append, before_noSep hu] at hbefore
      rw [hbefore, List.nil_append]
    · rintro rfl
      exact ⟨[], rfl, .inl rfl⟩
  | cons n n' rest t j hrest =>
    have hn := hnames n List.mem_cons_self
    have hx : NoSep m (n ++ j.left) := hn.noSep.append j.left_blank.noSep
    rw [occursFrom_cut hw.noSep hne hx j.isSep,
      occursFrom_sep_iff hrest (fun n hn => hnames n (List.mem_cons_of_mem _ hn)) hw hne j.isSep
        j.right_blank, List.mem_cons (a := w) (b := n)]
    refine or_congr ⟨?_, ?_⟩ Iff.rfl
    · rintro ⟨u, v, heq, hbefore, hv⟩
      have hu : NoSep m u := fun e he => hx e (by rw [heq]; simp [he])
      rw [List.nil_append, before_noSep hu] at hbefore
      rw [hbefore] at heq
      exact eq_of_padded hw hn blanks_nil hv blanks_nil j.left_blank heq.symm
    · rintro rfl
      exact ⟨[], j.left, rfl, .inl rfl, j.left_blank⟩

end Fields
