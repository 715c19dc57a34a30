import Mathlib.Data.List.Basic

/-!
# Texts cut into lines and words

A line keeps its end apart from its content, so that the text can be put together again.  A word is
a run of characters that are no blanks.
-/

namespace Lines

def isBreak (c : Char) : Bool :=
  c ∈ ['\n', '\r', '\x0b', '\x0c', '\x1c', '\x1d', '\x1e', '\x85', '\u2028', '\u2029']

/-- A line: what stands in it, and what ends it. -/
structure Line where
  content : List Char
  ending : List Char
  deriving DecidableEq, Repr

def Line.text (line : Line) : List Char := line.content ++ line.ending

def linesFrom (before : List Char) : List Char → List Line
  | [] => if before = [] then [] else [⟨before, []⟩]
  | '\r' :: '\n' :: rest => ⟨before, ['\r', '\n']⟩ :: linesFrom [] rest
  | c :: rest =>
    if isBreak c then ⟨before, [c]⟩ :: linesFrom [] rest else linesFrom (before ++ [c]) rest

def lines (text : List Char) : List Line := linesFrom [] text

theorem flatten_linesFrom (before text : List Char) :
    (linesFrom before text).flatMap Line.text = before ++ text := by
  induction before, text using linesFrom.induct with
  | case1 => rfl
  | case2 before hne =>
    rw [linesFrom, if_neg hne]
    simp [Line.text]
  | case3 before rest ih =>
    rw [linesFrom, List.flatMap_cons, ih]
    simp [Line.text]
  | case4 before c rest hother hbreak ih =>
    rw [linesFrom, if_pos hbreak, List.flatMap_cons, ih]
    · simp [Line.text]
    · exact hother
  | case5 before c rest hother hbreak ih =>
    rw [linesFrom, if_neg hbreak, ih]
    · simp
    · exact hother

theorem flatten_lines (text : List Char) : (lines text).flatMap Line.text = text :=
  flatten_linesFrom [] text

/-! ## Cutting a text -/

theorem cut_induction {α : Type*} (sep : α → Bool) {P : List α → Prop}
    (whole : ∀ x, (∀ c ∈ x, sep c = false) → P x)
    (cut : ∀ x c y, (∀ d ∈ x, sep d = false) → sep c = true → P y → P (x ++ c :: y))
    (text : List α) : P text := by
  have hfrom : ∀ x, (∀ c ∈ x, sep c = false) → P (x ++ text) := by
    induction text with
    | nil =>
      intro x hx
      rw [List.append_nil]
      exact whole x hx
    | cons c text ih =>
      intro x hx
      by_cases hc : sep c = true
      · exact cut x c text hx hc (ih [] (List.forall_mem_nil _))
      · rw [List.append_cons]
        apply ih
        intro d hd
        rcases List.mem_append.mp hd with hd | hd
        · exact hx d hd
        · rw [List.mem_singleton.mp hd]
          exact Bool.eq_false_iff.mpr hc
  exact hfrom [] (List.forall_mem_nil _)

theorem linesFrom_cons {before text : List Char} {c : Char} (hc : isBreak c = false) :
    linesFrom before (c :: text) = linesFrom (before ++ [c]) text := by
  rw [linesFrom, if_neg (Bool.eq_false_iff.mp hc)]
  rintro rest rfl
  cases hc

theorem linesFrom_append {x : List Char} (hx : ∀ c ∈ x, isBreak c = false) (before text : List Char) :
    linesFrom before (x ++ text) = linesFrom (before ++ x) text := by
  induction x generalizing before with
  | nil => rw [List.append_nil, List.nil_append]
  | cons c x ih =>
    obtain ⟨hc, hx⟩ := List.forall_mem_cons.mp hx
    rw [List.cons_append, linesFrom_cons hc, ih hx, ← List.append_cons]

theorem lines_whole {x : List Char} (hx : ∀ c ∈ x, isBreak c = false) :
    lines x = if x = [] then [] else [⟨x, []⟩] := by
  have happend := linesFrom_append hx [] []
  rw [List.append_nil] at happend
  exact happend

theorem lines_cut {x y : List Char} {c : Char} (hx : ∀ d ∈ x, isBreak d = false)
    (hc : isBreak c = true) :
    lines (x ++ c :: y) = ⟨x, [c]⟩ :: lines y ∨
      ∃ rest, c = '\r' ∧ y = '\n' :: rest ∧ lines (x ++ c :: y) = ⟨x, ['\r', '\n']⟩ :: lines rest := by
  have hlines : lines (x ++ c :: y) = linesFrom x (c :: y) := linesFrom_append hx [] (c :: y)
  rw [hlines]
  by_cases hpair : c = '\r' ∧ ∃ rest, y = '\n' :: rest
  · obtain ⟨rfl, rest, rfl⟩ := hpair
    exact .inr ⟨rest, rfl, rfl, rfl⟩
  · left
    rw [linesFrom, if_pos hc]
    · rfl
    · rintro rest rfl rfl
      exact hpair ⟨rfl, rest, rfl⟩

/-! ## Words -/

variable {α : Type*} (blank : α → Bool)
variable {text x y part : List α} {c : α}

def words (text : List α) : List (List α) := (text.splitOnP blank).filter fun w ↦ !w.isEmpty

variable {blank}

theorem words_eq_nil_iff : words blank text = [] ↔ text.all blank = true := by
  unfold words
  induction text with
  | nil => simp [List.splitOnP_nil]
  | cons c text ih =>
    rw [List.splitOnP_cons_eq_if_modifyHead]
    cases hc : blank c with
    | true => simpa [hc] using ih
    | false =>
      -- The character is in a word, whatever follows it.
      obtain ⟨w, ws, hsplit⟩ := List.exists_cons_of_ne_nil (List.splitOnP_ne_nil blank text)
      rw [hsplit]
      simp [hc]

theorem words_append_blank (hc : blank c = true) (x y : List α) :
    words blank (x ++ c :: y) = words blank x ++ words blank y := by
  unfold words
  rw [List.splitOnP_append_cons x y hc, List.filter_append]

theorem words_singleton {w : List α} (hw : ∀ c ∈ w, blank c = false) :
    words blank w = if w = [] then [] else [w] := by
  unfold words
  rw [List.splitOnP_eq_singleton hw, List.filter_singleton]
  cases w <;> rfl

variable (blank)

/-- The text with a word in front, every word replaced and the blanks kept. -/
def mapWordsFrom (f : List α → List α) (before : List α) : List α → List α
  | [] => if before = [] then [] else f before
  | c :: rest =>
    if blank c then (if before = [] then [] else f before) ++ c :: mapWordsFrom f [] rest
    else mapWordsFrom f (before ++ [c]) rest

def mapWords (f : List α → List α) (text : List α) : List α := mapWordsFrom blank f [] text

variable {blank} {f g : List α → List α}

theorem words_mapWordsFrom (hf : ∀ w, w ≠ [] → (∀ c ∈ w, blank c = false) →
      f w ≠ [] ∧ ∀ c ∈ f w, blank c = false) {before : List α}
    (hbefore : ∀ c ∈ before, blank c = false) (text : List α) :
    words blank (mapWordsFrom blank f before text) = (words blank (before ++ text)).map f := by
  have hword : ∀ w : List α, (∀ c ∈ w, blank c = false) →
      words blank (if w = [] then [] else f w) = (words blank w).map f := by
    intro w hw
    rw [words_singleton hw]
    split
    · exact words_singleton nofun
    · rename_i hne
      obtain ⟨hfne, hfw⟩ := hf w hne hw
      rw [words_singleton hfw, if_neg hfne]
      rfl
  induction text generalizing before with
  | nil =>
    rw [mapWordsFrom, List.append_nil]
    exact hword before hbefore
  | cons c text ih =>
    rw [mapWordsFrom]
    by_cases hc : blank c = true
    · rw [if_pos hc, words_append_blank hc, words_append_blank hc, ih (List.forall_mem_nil _),
        List.map_append, hword before hbefore]
      rfl
    · rw [if_neg hc, ih, List.append_assoc]
      · rfl
      · intro d hd
        rcases List.mem_append.mp hd with hd | hd
        · exact hbefore d hd
        · rw [List.mem_singleton.mp hd]
          exact Bool.eq_false_iff.mpr hc

theorem mapWords_id (text : List α) : mapWords blank id text = text := by
  have hfrom : ∀ before, mapWordsFrom blank id before text = before ++ text := by
    induction text with
    | nil =>
      intro before
      rw [mapWordsFrom, List.append_nil]
      cases before <;> rfl
    | cons c text ih =>
      intro before
      rw [mapWordsFrom, ih, ih]
      split
      · cases before <;> rfl
      · rw [List.append_assoc]
        rfl
  exact hfrom []

/-! ## Parts of a text -/

theorem prefix_append_cons (hc : c ∉ part) (h : part <+: x ++ c :: y) : part <+: x := by
  induction x generalizing part with
  | nil =>
    cases part with
    | nil => exact List.nil_prefix
    | cons d part =>
      rw [List.nil_append, List.cons_prefix_cons] at h
      exact (hc (h.1 ▸ List.mem_cons_self)).elim
  | cons d x ih =>
    cases part with
    | nil => exact List.nil_prefix
    | cons e part =>
      rw [List.cons_append, List.cons_prefix_cons] at h
      rw [List.cons_prefix_cons]
      exact ⟨h.1, ih (fun hmem => hc (List.mem_cons_of_mem _ hmem)) h.2⟩

theorem infix_append_cons_iff (hc : c ∉ part) :
    part <:+: x ++ c :: y ↔ part <:+: x ∨ part <:+: y := by
  induction x with
  | nil =>
    rw [List.nil_append, List.infix_cons_iff, List.infix_nil]
    apply or_congr_left
    constructor
    · exact fun h => List.prefix_nil.mp (prefix_append_cons (x := []) hc h)
    · rintro rfl
      exact List.nil_prefix
  | cons d x ih =>
    rw [List.cons_append, List.infix_cons_iff, ih, List.infix_cons_iff, or_assoc]
    apply or_congr_left
    rw [← List.cons_append]
    constructor
    · exact prefix_append_cons hc
    · exact fun h => h.trans (List.prefix_append _ _)

theorem append_cons_inj {x' y' : List α} (hx : c ∉ x) (hx' : c ∉ x')
    (h : x ++ c :: y = x' ++ c :: y') : x = x' ∧ y = y' := by
  rcases List.append_eq_append_iff.mp h with ⟨m, rfl, hm⟩ | ⟨m, rfl, hm⟩
  · cases m with
    | nil => exact ⟨(List.append_nil x).symm, (List.cons.inj hm).2⟩
    | cons d m =>
      rw [List.cons_append] at hm
      exact (hx' (List.mem_append_right _ ((List.cons.inj hm).1 ▸ List.mem_cons_self))).elim
  · cases m with
    | nil => exact ⟨List.append_nil x', ((List.cons.inj hm).2).symm⟩
    | cons d m =>
      rw [List.cons_append] at hm
      exact (hx (List.mem_append_right _ ((List.cons.inj hm).1 ▸ List.mem_cons_self))).elim

/-- A part with a separator lies behind the first one, if it does not end what stands in front. -/
theorem infix_behind_iff {front back : List α} (hx : c ∉ x) (hfront : c ∉ front)
    (hends : ¬ front <:+ x) :
    front ++ c :: back <:+: x ++ c :: y ↔ front ++ c :: back <:+: y := by
  constructor
  · rintro ⟨s, t, h⟩
    have hassoc : s ++ (front ++ c :: back) ++ t = (s ++ front) ++ c :: (back ++ t) := by
      simp only [List.append_assoc, List.cons_append]
    rw [hassoc] at h
    by_cases hs : c ∈ s
    · obtain ⟨s', s'', rfl, hs'⟩ := List.eq_append_cons_of_mem hs
      have hfirst : s' ++ c :: (s'' ++ front ++ c :: (back ++ t)) = x ++ c :: y := by
        rw [← h]
        simp only [List.append_assoc, List.cons_append]
      obtain ⟨-, rfl⟩ := append_cons_inj hs' hx hfirst
      exact ⟨s'', t, by simp only [List.append_assoc, List.cons_append]⟩
    · have hmem : c ∉ s ++ front := by
        rw [List.mem_append]
        exact not_or_intro hs hfront
      obtain ⟨rfl, -⟩ := append_cons_inj hmem hx h
      exact (hends (List.suffix_append s front)).elim
  · intro h
    exact h.trans ((List.suffix_cons c y).trans (List.suffix_append x (c :: y))).isInfix

theorem infix_iff_word (hpart : ∀ c ∈ part, blank c = false) (hne : part ≠ []) :
    part <:+: text ↔ ∃ w ∈ words blank text, part <:+: w := by
  induction text using cut_induction blank with
  | whole x hx =>
    rw [words_singleton hx]
    by_cases hnil : x = []
    · rw [if_pos hnil, hnil, List.infix_nil]
      refine iff_of_false hne ?_
      rintro ⟨w, hw, -⟩
      cases hw
    · rw [if_neg hnil]
      simp only [List.mem_singleton, exists_eq_left]
  | cut x c y hx hc ih =>
    have hmem : c ∉ part := by
      intro hmem
      rw [hpart c hmem] at hc
      cases hc
    rw [infix_append_cons_iff hmem, ih, words_append_blank hc, words_singleton hx]
    by_cases hnil : x = []
    · rw [if_pos hnil, hnil, List.infix_nil, or_iff_right hne]
      rfl
    · rw [if_neg hnil]
      simp only [List.singleton_append, List.mem_cons, exists_eq_or_imp]

end Lines
