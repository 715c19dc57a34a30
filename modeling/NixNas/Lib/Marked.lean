import Mathlib.Data.List.DropRight
import NixNas.Lib.Lines

/-!
# Marked lists

Some entries of a list carry a mark, and a text is put in front of each of them.
-/

namespace Marked

open Lines

variable {α : Type*}
variable {e : α × Bool} {c : α} {start : Bool}

def plain (m : List (α × Bool)) : List α := m.map Prod.fst

def unmarked (l : List α) : List (α × Bool) := l.map (·, false)

def insert (p : List α) (m : List (α × Bool)) : List α :=
  m.flatMap fun e ↦ if e.2 then p ++ [e.1] else [e.1]

def Clear (m : List (α × Bool)) : Prop := ∀ e ∈ m, e.2 = false

def markFirst (mark : Bool) : List α → List (α × Bool)
  | [] => []
  | c :: rest => (c, mark) :: unmarked rest

section

variable (blank : α → Bool) (seen : List α → Bool)

def markWordsFrom (before : List α) : List α → List (α × Bool)
  | [] => markFirst (seen before) before
  | c :: rest =>
    if blank c then markFirst (seen before) before ++ (c, false) :: markWordsFrom [] rest
    else markWordsFrom (before ++ [c]) rest

def markWords (text : List α) : List (α × Bool) := markWordsFrom blank seen [] text

end

variable {p : List α} {m m' : List (α × Bool)} {l : List α} {sep : α → Bool}

/-! ## Without the marks -/

@[simp] theorem plain_append : plain (m ++ m') = plain m ++ plain m' := List.map_append

@[simp] theorem plain_cons : plain (e :: m) = e.1 :: plain m := rfl

@[simp] theorem insert_append : insert p (m ++ m') = insert p m ++ insert p m' := List.flatMap_append

theorem insert_cons :
    insert p (e :: m) = (if e.2 then p ++ [e.1] else [e.1]) ++ insert p m := List.flatMap_cons

@[simp] theorem insert_cons_false : insert p ((c, false) :: m) = c :: insert p m := rfl

theorem insert_nil : insert [] m = plain m := by
  induction m with
  | nil => rfl
  | cons e m ih =>
    rw [insert_cons, plain_cons, ih]
    cases e.2 <;> rfl

@[simp] theorem plain_unmarked : plain (unmarked l) = l := by
  unfold plain unmarked
  rw [List.map_map]
  exact List.map_id l

theorem clear_unmarked : Clear (unmarked l) := by
  intro e he
  obtain ⟨c, -, rfl⟩ := List.mem_map.mp he
  rfl

theorem Clear.insert (h : Clear m) : insert p m = plain m := by
  induction m with
  | nil => rfl
  | cons e m ih =>
    obtain ⟨he, hm⟩ := List.forall_mem_cons.mp h
    rw [insert_cons, he, ih hm]
    rfl

@[simp] theorem insert_unmarked : insert p (unmarked l) = l := by
  rw [clear_unmarked.insert, plain_unmarked]

theorem insert_eq_plain_iff (hp : p ≠ []) : insert p m = plain m ↔ Clear m := by
  have hlength : ∀ m : List (α × Bool), (plain m).length ≤ (Marked.insert p m).length := by
    intro m
    induction m with
    | nil => exact Nat.le_refl 0
    | cons e m ih =>
      rw [insert_cons, plain_cons, List.length_cons, List.length_append]
      split <;> simp <;> omega
  constructor
  · intro h
    induction m with
    | nil => exact List.forall_mem_nil _
    | cons e m ih =>
      rw [insert_cons, plain_cons] at h
      cases hmark : e.2 with
      | false =>
        rw [hmark, if_neg Bool.false_ne_true, List.singleton_append] at h
        exact List.forall_mem_cons.mpr ⟨hmark, ih (List.cons.inj h).2⟩
      | true =>
        have hlong := congrArg List.length h
        rw [hmark, if_pos rfl] at hlong
        simp only [List.length_append, List.length_cons, List.length_nil] at hlong
        have hm := hlength m
        have hpos := List.length_pos_iff.mpr hp
        omega
  · exact Clear.insert

theorem forall_mem_insert {P : α → Prop} (hp : ∀ c ∈ p, P c) (hm : ∀ e ∈ m, P e.1) :
    ∀ c ∈ insert p m, P c := by
  intro c hc
  obtain ⟨e, he, hc⟩ := List.mem_flatMap.mp hc
  split at hc
  · rcases List.mem_append.mp hc with hc | hc
    · exact hp c hc
    · rw [List.mem_singleton.mp hc]
      exact hm e he
  · rw [List.mem_singleton.mp hc]
    exact hm e he

theorem mem_insert_of_mem (h : c ∈ plain m) : c ∈ insert p m := by
  obtain ⟨e, he, rfl⟩ := List.mem_map.mp h
  refine List.mem_flatMap.mpr ⟨e, he, ?_⟩
  split
  · exact List.mem_append_right _ List.mem_cons_self
  · exact List.mem_cons_self

theorem mem_insert_of_not_clear (hm : ¬ Clear m) (h : c ∈ p) : c ∈ insert p m := by
  unfold Clear at hm
  simp only [not_forall, Bool.not_eq_false] at hm
  obtain ⟨e, he, hmark⟩ := hm
  refine List.mem_flatMap.mpr ⟨e, he, ?_⟩
  rw [if_pos hmark]
  exact List.mem_append_left _ h

/-- A list is cut at the same places with the text in it. -/
theorem splitOnP_insert (hp : ∀ c ∈ p, sep c = false) (hm : ∀ e ∈ m, e.2 = true → sep e.1 = false) :
    (insert p m).splitOnP sep = (m.splitOnP fun e ↦ sep e.1).map (insert p) := by
  induction m using cut_induction (fun e : α × Bool ↦ sep e.1) with
  | whole x hx =>
    rw [List.splitOnP_eq_singleton (forall_mem_insert hp hx), List.splitOnP_eq_singleton hx]
    rfl
  | cut x e y hx he ih =>
    obtain ⟨hxm, hm⟩ := List.forall_mem_append.mp hm
    obtain ⟨hem, hym⟩ := List.forall_mem_cons.mp hm
    have hmark : e.2 = false := by
      rw [← Bool.not_eq_true]
      intro hmark
      rw [hem hmark] at he
      cases he
    have hinsert : insert p (x ++ e :: y) = insert p x ++ e.1 :: insert p y := by
      rw [insert_append, insert_cons, hmark]
      rfl
    rw [hinsert, List.splitOnP_append_cons_of_forall_mem (forall_mem_insert hp hx) e.1 he,
      List.splitOnP_append_cons_of_forall_mem hx e he, ih hym]
    rfl

theorem insert_concat : insert p (m ++ [e]) = insert p m ++ (if e.2 then p else []) ++ [e.1] := by
  rw [insert_append, insert_cons, List.append_assoc]
  congr 1
  split
  · exact List.append_nil _
  · rfl

theorem getLast?_insert : (insert p m).getLast? = m.getLast?.map Prod.fst := by
  induction m using List.reverseRecOn with
  | nil => rfl
  | append_singleton m e _ =>
    rw [insert_concat, List.getLast?_concat, List.getLast?_concat, Option.map_some]

theorem dropLast_insert (he : e.2 = false) : (insert p (m ++ [e])).dropLast = insert p m := by
  rw [insert_concat, he, List.dropLast_concat, if_neg Bool.false_ne_true, List.append_nil]

theorem rdropWhile_insert (hm : ∀ e ∈ m, e.2 = true → sep e.1 = false) :
    (insert p m).rdropWhile sep = insert p (m.rdropWhile fun e ↦ sep e.1) := by
  induction m using List.reverseRecOn with
  | nil => rfl
  | append_singleton m e ih =>
    obtain ⟨hm, he⟩ := List.forall_mem_append.mp hm
    have hlast := he e (List.mem_singleton_self e)
    by_cases hsep : sep e.1 = true
    · have hmark : e.2 = false := by
        rw [← Bool.not_eq_true]
        intro hmark
        rw [hlast hmark] at hsep
        cases hsep
      rw [List.rdropWhile_concat_pos (fun e : α × Bool ↦ sep e.1) m e hsep, ← ih hm, insert_concat,
        hmark, if_neg Bool.false_ne_true, List.append_nil, List.rdropWhile_concat_pos _ _ _ hsep]
    · rw [List.rdropWhile_concat_neg (fun e : α × Bool ↦ sep e.1) m e hsep, insert_concat,
        List.rdropWhile_concat_neg _ _ _ hsep]

/-! ## What stands in front of a mark -/

/-- Of what stands in front of a mark, and of the marked entry, the relation holds. -/
def Guarded (Q : List α → α → Prop) (m : List (α × Bool)) : Prop :=
  ∀ x c y, m = x ++ (c, true) :: y → Q (plain x) c

section

variable {Q R : List α → α → Prop}

theorem Clear.guarded (h : Clear m) : Guarded Q m := by
  rintro x c y rfl
  cases h (c, true) (List.mem_append_right _ List.mem_cons_self)

theorem Guarded.mono (h : Guarded Q m) (hQ : ∀ x c, Q x c → R x c) : Guarded R m :=
  fun x c y hm => hQ _ _ (h x c y hm)

theorem Guarded.of_append (h : Guarded Q (m ++ m')) : Guarded Q m := by
  rintro x c y rfl
  exact h x c (y ++ m') (by rw [List.append_assoc, List.cons_append])

theorem Guarded.behind (h : Guarded Q (m ++ m')) :
    Guarded (fun x c ↦ Q (plain m ++ x) c) m' := by
  rintro x c y rfl
  rw [← plain_append]
  exact h (m ++ x) c y (by rw [List.append_assoc])

theorem Clear.guarded_append (h : Clear m) (h' : Guarded (fun x c ↦ Q (plain m ++ x) c) m') :
    Guarded Q (m ++ m') := by
  intro x c y heq
  rcases List.append_eq_append_iff.mp heq with ⟨z, rfl, hz⟩ | ⟨z, rfl, hz⟩
  · rw [plain_append]
    exact h' z c y hz
  · cases z with
    | nil =>
      have hfirst : Q (plain (x ++ []) ++ []) c := h' [] c y hz.symm
      rwa [List.append_nil, List.append_nil] at hfirst
    | cons e z =>
      obtain ⟨rfl, -⟩ := List.cons.inj hz
      cases h (c, true) (List.mem_append_right _ List.mem_cons_self)

theorem Guarded.append (hQ : ∀ x y c, Q y c → Q (x ++ y) c) (h : Guarded Q m) (h' : Guarded Q m') :
    Guarded Q (m ++ m') := by
  intro x c y heq
  rcases List.append_eq_append_iff.mp heq with ⟨z, rfl, hz⟩ | ⟨z, rfl, hz⟩
  · rw [plain_append]
    exact hQ _ _ _ (h' z c y hz)
  · cases z with
    | nil =>
      rw [← List.append_nil (plain x)]
      have hfirst := hQ (plain x) [] c (h' [] c y hz.symm)
      exact hfirst
    | cons e z =>
      obtain ⟨rfl, -⟩ := List.cons.inj hz
      exact h x c z rfl

theorem Guarded.mem_insert {d : α} (h : Guarded (fun x _ ↦ d ∈ x) m) (hm : ¬ Clear m) :
    d ∈ insert p m := by
  unfold Clear at hm
  simp only [not_forall, Bool.not_eq_false] at hm
  obtain ⟨⟨c, mark⟩, hmem, rfl⟩ := hm
  obtain ⟨x, y, rfl⟩ := List.append_of_mem hmem
  apply mem_insert_of_mem
  rw [plain_append]
  exact List.mem_append_left _ (h x c y rfl)

theorem takeWhile_insert {q : α → Bool} (h : Guarded (fun x _ ↦ ∃ d ∈ x, q d = false) m) :
    Clear (m.takeWhile fun e ↦ q e.1) ∧
      (insert p m).takeWhile q = plain (m.takeWhile fun e ↦ q e.1) ∧
      (insert p m).dropWhile q = insert p (m.dropWhile fun e ↦ q e.1) := by
  induction m with
  | nil => exact ⟨List.forall_mem_nil _, rfl, rfl⟩
  | cons e m ih =>
    obtain ⟨c, mark⟩ := e
    cases mark with
    | true =>
      obtain ⟨d, hd, -⟩ := h [] c m rfl
      cases hd
    | false =>
      rw [insert_cons_false]
      by_cases hc : q c = true
      · have hrest : Guarded (fun x _ ↦ ∃ d ∈ x, q d = false) m := by
          intro x c' y hm
          obtain ⟨d, hd, hq⟩ := h ((c, false) :: x) c' y (by rw [hm, List.cons_append])
          rcases List.mem_cons.mp hd with rfl | hd
          · cases hc.symm.trans hq
          · exact ⟨d, hd, hq⟩
        obtain ⟨hclear, htake, hdrop⟩ := ih hrest
        simp only [List.takeWhile_cons, List.dropWhile_cons, hc, if_true, htake, hdrop]
        exact ⟨List.forall_mem_cons.mpr ⟨rfl, hclear⟩, rfl, trivial⟩
      · simp only [List.takeWhile_cons, List.dropWhile_cons, hc]
        exact ⟨List.forall_mem_nil _, rfl, rfl⟩

end

/-! ## Marks at the starts of words -/

/-- Marks stand at the starts of runs without separators only; `start` tells whether one starts with
the list. -/
def Starts (sep : α → Bool) : Bool → List (α × Bool) → Prop
  | _, [] => True
  | start, e :: rest => (e.2 = true → start = true ∧ sep e.1 = false) ∧ Starts sep (sep e.1) rest

theorem Starts.takeWhile (h : Starts sep false m) :
    (insert p m).takeWhile (fun c ↦ !sep c) = (plain m).takeWhile fun c ↦ !sep c := by
  induction m with
  | nil => rfl
  | cons e m ih =>
    have hmark : e.2 = false := by
      rw [← Bool.not_eq_true]
      exact fun hmark => Bool.false_ne_true (h.1 hmark).1
    rw [insert_cons, hmark, if_neg Bool.false_ne_true, List.singleton_append, plain_cons,
      List.takeWhile_cons, List.takeWhile_cons]
    cases hsep : sep e.1 with
    | true => rfl
    | false => rw [ih (hsep ▸ h.2)]

theorem insert_inj (hp : ∀ c ∈ p, sep c = false) (hne : p ≠ [])
    (hm : Starts sep start m) (hm' : Starts sep start m') (hplain : plain m = plain m') :
    insert p m = insert p m' ↔ m = m' := by
  refine ⟨fun h => ?_, congrArg _⟩
  induction m generalizing m' start with
  | nil => exact (List.map_eq_nil_iff.mp hplain.symm).symm
  | cons e m ih =>
    obtain ⟨c, mark⟩ := e
    cases m' with
    | nil => cases hplain
    | cons e' m' =>
      obtain ⟨c', mark'⟩ := e'
      obtain ⟨hc, hrest⟩ := List.cons.inj hplain
      change c = c' at hc
      subst hc
      -- a mark on one side only makes the first run longer
      have hdiff : ∀ {n n' : List (α × Bool)}, plain n = plain n' →
          Starts sep start ((c, true) :: n) → Starts sep start ((c, false) :: n') →
          insert p ((c, true) :: n) ≠ insert p ((c, false) :: n') := by
        intro n n' hplain hn hn' heq
        have hsep : sep c = false := (hn.1 rfl).2
        have hrun := congrArg (List.takeWhile fun c ↦ !sep c) heq
        have hrest : Starts sep false n := hsep ▸ hn.2
        have hrest' : Starts sep false n' := hsep ▸ hn'.2
        have hall : ∀ d ∈ p ++ [c], (!sep d) = true := by
          intro d hd
          rw [Bool.not_eq_true']
          rcases List.mem_append.mp hd with hd | hd
          · exact hp d hd
          · rw [List.mem_singleton.mp hd]
            exact hsep
        rw [insert_cons, insert_cons_false, if_pos rfl, List.takeWhile_append_of_pos hall,
          List.takeWhile_cons, hsep, hrest.takeWhile, hrest'.takeWhile, hplain] at hrun
        have hlength := congrArg List.length hrun
        simp only [List.length_append, List.length_cons, List.length_nil, Bool.not_false,
          if_pos] at hlength
        have hpos := List.length_pos_iff.mpr hne
        omega
      cases mark with
      | false =>
        cases mark' with
        | false => rw [ih hm.2 hm'.2 hrest (List.cons.inj h).2]
        | true => exact (hdiff (Eq.symm hrest) hm' hm h.symm).elim
      | true =>
        cases mark' with
        | false => exact (hdiff hrest hm hm' h).elim
        | true =>
          rw [insert_cons, insert_cons, if_pos rfl] at h
          rw [ih hm.2 hm'.2 hrest (List.append_cancel_left h)]

theorem Guarded.starts (h : Guarded (fun x c ↦ sep c = false ∧
      (x = [] ∧ start = true ∨ ∃ x' d, x = x' ++ [d] ∧ sep d = true)) m) : Starts sep start m := by
  induction m generalizing start with
  | nil => exact trivial
  | cons e m ih =>
    refine ⟨fun hmark => ?_, ih fun x c y hm => ?_⟩
    · obtain ⟨c, mark⟩ := e
      cases hmark
      obtain ⟨hc, ⟨-, hstart⟩ | ⟨x', d, hx, -⟩⟩ := h [] c m rfl
      · exact ⟨hstart, hc⟩
      · exact (List.concat_ne_nil d x' hx.symm).elim
    · obtain ⟨hc, ⟨hx, -⟩ | ⟨x', d, hx, hd⟩⟩ := h (e :: x) c y (by rw [hm, List.cons_append])
      · cases hx
      · refine ⟨hc, ?_⟩
        cases x' with
        | nil =>
          obtain ⟨rfl, hnil⟩ := List.cons.inj hx
          exact .inl ⟨hnil, hd⟩
        | cons d' x' => exact .inr ⟨x', d, (List.cons.inj hx).2, hd⟩

/-! ## Words -/

section

variable {blank : α → Bool} {seen : List α → Bool} {f : List α → List α}
variable {mark : Bool}

theorem plain_markFirst : plain (markFirst mark l) = l := by
  cases l with
  | nil => rfl
  | cons c l => rw [markFirst, plain_cons, plain_unmarked]

theorem insert_markFirst (hl : l ≠ []) :
    insert p (markFirst mark l) = if mark then p ++ l else l := by
  cases l with
  | nil => exact (hl rfl).elim
  | cons c l =>
    rw [markFirst, insert_cons, insert_unmarked]
    cases mark with
    | true => rw [if_pos rfl, if_pos rfl, List.append_assoc, List.singleton_append]
    | false => rfl

theorem plain_markWords (text : List α) : plain (markWords blank seen text) = text := by
  have hfrom : ∀ before, plain (markWordsFrom blank seen before text) = before ++ text := by
    induction text with
    | nil =>
      intro before
      rw [markWordsFrom, plain_markFirst, List.append_nil]
    | cons c text ih =>
      intro before
      rw [markWordsFrom]
      split
      · rw [plain_append, plain_cons, plain_markFirst, ih]
        rfl
      · rw [ih, List.append_assoc]
        rfl
  exact hfrom []

/-- Words are replaced by putting the text in front of those that are seen. -/
theorem insert_markWords (hf : ∀ w, f w = if seen w then p ++ w else w) (text : List α) :
    insert p (markWords blank seen text) = mapWords blank f text := by
  have hword : ∀ w, insert p (markFirst (seen w) w) = if w = [] then [] else f w := by
    intro w
    by_cases hw : w = []
    · rw [hw]
      rfl
    · rw [insert_markFirst hw, hf, if_neg hw]
  have hfrom : ∀ before, insert p (markWordsFrom blank seen before text) =
      mapWordsFrom blank f before text := by
    induction text with
    | nil =>
      intro before
      rw [markWordsFrom, mapWordsFrom, hword]
    | cons c text ih =>
      intro before
      rw [markWordsFrom, mapWordsFrom]
      split
      · rw [insert_append, insert_cons_false, hword, ih]
      · rw [ih]
  exact hfrom []

/-- What is marked is the start of a word that is seen, behind a blank. -/
theorem guarded_markWords (text : List α) : Guarded (fun x c ↦
    (x = [] ∨ ∃ x' d, x = x' ++ [d] ∧ blank d = true) ∧ ∃ w, seen (c :: w) = true)
      (markWords blank seen text) := by
  -- a word has at most one mark, which stands on its first entry
  have hword : ∀ {before : List α} {x y c}, markFirst (seen before) before = x ++ (c, true) :: y →
      x = [] ∧ ∃ w, seen (c :: w) = true := by
    intro before x y c h
    cases before with
    | nil => exact (List.append_ne_nil_of_right_ne_nil x (List.cons_ne_nil _ _) h.symm).elim
    | cons d before =>
      cases x with
      | nil =>
        obtain ⟨hd, -⟩ := List.cons.inj h
        obtain ⟨rfl, hseen⟩ := Prod.mk.inj hd
        exact ⟨rfl, before, hseen⟩
      | cons e x =>
        have hmem : (c, true) ∈ unmarked before := by
          rw [(List.cons.inj h).2]
          exact List.mem_append_right _ List.mem_cons_self
        cases clear_unmarked _ hmem
  -- the word that has been begun goes through the induction
  have hfrom : ∀ before x c y, markWordsFrom blank seen before text = x ++ (c, true) :: y →
      (plain x = [] ∨ ∃ x' d, plain x = x' ++ [d] ∧ blank d = true) ∧
        ∃ w, seen (c :: w) = true := by
    induction text with
    | nil =>
      intro before x c y h
      obtain ⟨rfl, hw⟩ := hword h
      exact ⟨.inl rfl, hw⟩
    | cons d text ih =>
      intro before x c y h
      rw [markWordsFrom] at h
      split at h
      · rename_i hd
        rcases List.append_eq_append_iff.mp h with ⟨z, rfl, hz⟩ | ⟨z, hz, hrest⟩
        · -- behind the blank
          cases z with
          | nil => cases (List.cons.inj hz).1
          | cons e z =>
            obtain ⟨rfl, hrest⟩ := List.cons.inj hz
            rw [plain_append, plain_cons]
            obtain ⟨hx | ⟨x', d', hx, hd'⟩, hw⟩ := ih [] z c y hrest
            · rw [hx]
              exact ⟨.inr ⟨_, d, rfl, hd⟩, hw⟩
            · rw [hx]
              refine ⟨.inr ⟨plain (markFirst (seen before) before) ++ d :: x', d', ?_, hd'⟩, hw⟩
              rw [List.append_assoc, List.cons_append]
        · -- in the word in front of the blank
          cases z with
          | nil => cases (List.cons.inj hrest).1
          | cons e z =>
            obtain ⟨rfl, -⟩ := List.cons.inj hrest
            obtain ⟨rfl, hw⟩ := hword hz
            exact ⟨.inl rfl, hw⟩
      · exact ih _ x c y h
  exact hfrom []

end

end Marked
