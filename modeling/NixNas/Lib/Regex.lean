import Mathlib.Data.List.Basic

/-!
# A part of RE2

Patterns of literals, character classes, starred classes, groups, alternatives and anchors, read
one character at a time.  A match starts anywhere in the text.
-/

namespace Regex

inductive Item where
  | char (c : Char)
  | space
  deriving DecidableEq, Repr

/-- `[[:space:]]`. -/
def isSpace (c : Char) : Bool := c ∈ ['\t', '\n', '\x0b', '\x0c', '\r', ' ']

def Item.has : Item → Char → Bool
  | .char d, c => c = d
  | .space, c => isSpace c

def has (items : List Item) (c : Char) : Bool := items.any (·.has c)

inductive Re where
  | empty
  | cls (items : List Item)
  | star (items : List Item)
  | start
  | stop
  | cat (a b : Re)
  | alt (a b : Re)
  deriving DecidableEq, Repr

/-! ## Syntax -/

/-- An open group: the alternatives before the last bar, and what follows it. -/
structure Frame where
  alts : Option Re
  seq : Re
  deriving DecidableEq, Repr

def Frame.new : Frame := ⟨none, .empty⟩

def Frame.push (f : Frame) (r : Re) : Frame := { f with seq := .cat f.seq r }

def Frame.close (f : Frame) : Re :=
  match f.alts with
  | none => f.seq
  | some r => .alt r f.seq

inductive Mode where
  | plain
  | escaped
  /-- Inside a class. -/
  | inClass (items : List Item)
  /-- Inside a class, after an opening bracket. -/
  | named (items : List Item)
  /-- Inside the name of a class. -/
  | name (items : List Item) (read : List Char)
  /-- After the name of a class. -/
  | nameEnd (items : List Item) (read : List Char)
  deriving DecidableEq, Repr

structure State where
  mode : Mode
  top : Frame
  below : List Frame
  deriving DecidableEq, Repr

def State.push (s : State) (r : Re) : State := ⟨.plain, s.top.push r, s.below⟩

def isPunct (c : Char) : Bool :=
  33 ≤ c.toNat && c.toNat ≤ 47 || 58 ≤ c.toNat && c.toNat ≤ 64 || 91 ≤ c.toNat && c.toNat ≤ 96 ||
    123 ≤ c.toNat && c.toNat ≤ 126

/-- One character of a pattern; `none` where the pattern is wrong or outside this part of RE2. -/
def step (s : State) (c : Char) : Option State :=
  match s.mode with
  | .plain =>
    if c = '(' then some ⟨.plain, .new, s.top :: s.below⟩
    else if c = ')' then
      match s.below with
      | [] => none
      | f :: below => some ⟨.plain, f.push s.top.close, below⟩
    else if c = '|' then some ⟨.plain, ⟨some s.top.close, .empty⟩, s.below⟩
    else if c = '^' then some (s.push .start)
    else if c = '$' then some (s.push .stop)
    else if c = '[' then some { s with mode := .inClass [] }
    else if c = '\\' then some { s with mode := .escaped }
    else if c = '*' then
      match s.top.seq with
      | .cat r (.cls items) => some ⟨.plain, ⟨s.top.alts, .cat r (.star items)⟩, s.below⟩
      | _ => none
    else if c ∈ ['.', '+', '?', '{'] then none
    else some (s.push (.cls [.char c]))
  | .escaped => if isPunct c then some (s.push (.cls [.char c])) else none
  | .inClass items =>
    if c = ']' then if items = [] then none else some (s.push (.cls items))
    else if c = '[' then some { s with mode := .named items }
    else if c ∈ ['\\', '-', '^'] then none
    else some { s with mode := .inClass (items ++ [.char c]) }
  | .named items => if c = ':' then some { s with mode := .name items [] } else none
  | .name items read =>
    if c = ':' then some { s with mode := .nameEnd items read }
    else some { s with mode := .name items (read ++ [c]) }
  | .nameEnd items read =>
    if c = ']' && read = ['s', 'p', 'a', 'c', 'e'] then
      some { s with mode := .inClass (items ++ [.space]) }
    else none

def parse (pattern : List Char) : Option Re :=
  match pattern.foldlM step ⟨.plain, .new, []⟩ with
  | some ⟨.plain, top, []⟩ => some top.close
  | _ => none

/-- A sequence of literals after `r`. -/
def literal (r : Re) (w : List Char) : Re := w.foldl (fun r c ↦ .cat r (.cls [.char c])) r

/-! ## Matching -/

/-- A position: whether it is the start of the text, and what follows. -/
abbrev Pos := Bool × List Char

def starEnds (items : List Item) : List Char → List Pos
  | [] => []
  | c :: t => if has items c then (false, t) :: starEnds items t else []

/-- Where a match that begins at a position may end. -/
def ends : Re → Pos → List Pos
  | .empty, p => [p]
  | .cls _, (_, []) => []
  | .cls items, (_, c :: t) => if has items c then [(false, t)] else []
  | .star items, (b, t) => (b, t) :: starEnds items t
  | .start, (b, t) => if b then [(b, t)] else []
  | .stop, (b, t) => if t = [] then [(b, t)] else []
  | .cat r s, p => (ends r p).flatMap (ends s)
  | .alt r s, p => ends r p ++ ends s p

def later : List Char → List Pos
  | [] => []
  | _ :: t => (false, t) :: later t

def search (r : Re) (t : List Char) : Bool := ((true, t) :: later t).any fun p ↦ ends r p ≠ []

/-- Whether a pattern matches somewhere in a text; `none` for a pattern that is not understood. -/
def matchString (pattern t : List Char) : Option Bool := (parse pattern).map (search · t)

section

variable {r s : Re} {b b' : Bool} {t t' : List Char} {items : List Item} {p q : Pos}

theorem mem_ends_cls :
    (b', t') ∈ ends (.cls items) (b, t) ↔ ∃ c, has items c = true ∧ t = c :: t' ∧ b' = false := by
  cases t with
  | nil => simp [ends]
  | cons c t =>
    unfold ends
    by_cases h : has items c = true
    · rw [if_pos h, List.mem_singleton, Prod.mk.injEq]
      constructor
      · rintro ⟨rfl, rfl⟩
        exact ⟨c, h, rfl, rfl⟩
      · rintro ⟨d, -, heq, rfl⟩
        exact ⟨rfl, (List.cons.inj heq).2.symm⟩
    · rw [if_neg h]
      simp only [List.not_mem_nil, false_iff, not_exists, not_and]
      intro d hd heq
      exact absurd ((List.cons.inj heq).1 ▸ hd) h

theorem mem_starEnds :
    (b', t') ∈ starEnds items t ↔
      ∃ u, u ≠ [] ∧ (∀ c ∈ u, has items c = true) ∧ t = u ++ t' ∧ b' = false := by
  induction t with
  | nil => simp [starEnds]
  | cons c t ih =>
    unfold starEnds
    by_cases h : has items c = true
    · rw [if_pos h, List.mem_cons, ih, Prod.mk.injEq]
      constructor
      · rintro (⟨rfl, rfl⟩ | ⟨u, -, hu, rfl, rfl⟩)
        · exact ⟨[c], List.cons_ne_nil _ _, by simpa using h, rfl, rfl⟩
        · exact ⟨c :: u, List.cons_ne_nil _ _, by simpa [h] using hu, rfl, rfl⟩
      · rintro ⟨u, hne, hu, heq, rfl⟩
        obtain ⟨d, u, rfl⟩ := List.exists_cons_of_ne_nil hne
        obtain ⟨rfl, rfl⟩ := List.cons.inj heq
        by_cases hnil : u = []
        · exact .inl ⟨rfl, by rw [hnil]; rfl⟩
        · exact .inr ⟨u, hnil, fun c hc => hu c (List.mem_cons_of_mem _ hc), rfl, rfl⟩
    · rw [if_neg h]
      simp only [List.not_mem_nil, false_iff, not_exists, not_and]
      intro u hne hu heq
      obtain ⟨d, u, rfl⟩ := List.exists_cons_of_ne_nil hne
      obtain ⟨rfl, -⟩ := List.cons.inj heq
      exact absurd (hu c List.mem_cons_self) h

theorem mem_ends_star :
    (b', t') ∈ ends (.star items) (b, t) ↔
      ∃ u, (∀ c ∈ u, has items c = true) ∧ t = u ++ t' ∧ b' = (b && decide (u = [])) := by
  unfold ends
  rw [List.mem_cons, mem_starEnds, Prod.mk.injEq]
  constructor
  · rintro (⟨rfl, rfl⟩ | ⟨u, hne, hu, rfl, rfl⟩)
    · exact ⟨[], nofun, rfl, by simp⟩
    · exact ⟨u, hu, rfl, by simp [hne]⟩
  · rintro ⟨u, hu, rfl, rfl⟩
    by_cases hnil : u = []
    · exact .inl ⟨by simp [hnil], by rw [hnil, List.nil_append]⟩
    · exact .inr ⟨u, hnil, hu, rfl, by simp [hnil]⟩

theorem mem_ends_start : p ∈ ends .start q ↔ q.1 = true ∧ p = q := by
  obtain ⟨b, t⟩ := q
  unfold ends
  cases b <;> simp

theorem mem_ends_stop : p ∈ ends .stop q ↔ q.2 = [] ∧ p = q := by
  obtain ⟨b, t⟩ := q
  unfold ends
  by_cases h : t = [] <;> simp [h]

theorem mem_ends_empty : p ∈ ends .empty q ↔ p = q := List.mem_singleton

theorem mem_ends_cat : p ∈ ends (.cat r s) q ↔ ∃ m ∈ ends r q, p ∈ ends s m := List.mem_flatMap

theorem mem_ends_alt : p ∈ ends (.alt r s) q ↔ p ∈ ends r q ∨ p ∈ ends s q := List.mem_append

theorem mem_ends_literal {w : List Char} :
    (b', t') ∈ ends (literal r w) q ↔
      ∃ b, (b, w ++ t') ∈ ends r q ∧ b' = (b && decide (w = [])) := by
  induction w generalizing r with
  | nil => simp [literal]
  | cons c w ih =>
    change _ ∈ ends (literal (.cat r (.cls [.char c])) w) q ↔ _
    rw [ih]
    simp only [mem_ends_cat, Prod.exists, mem_ends_cls]
    constructor
    · rintro ⟨b₁, ⟨b, t, hmem, d, hd, rfl, rfl⟩, rfl⟩
      have hdc : d = c := by simpa [has, Item.has] using hd
      exact ⟨b, hdc ▸ hmem, by simp⟩
    · rintro ⟨b, hmem, rfl⟩
      exact ⟨false, ⟨b, _, hmem, c, by simp [has, Item.has], rfl, rfl⟩, by simp⟩

theorem mem_later : p ∈ later t ↔ ∃ u, u ≠ [] ∧ t = u ++ p.2 ∧ p.1 = false := by
  induction t with
  | nil => simp [later]
  | cons c t ih =>
    unfold later
    rw [List.mem_cons, ih]
    constructor
    · rintro (rfl | ⟨u, -, rfl, hb⟩)
      · exact ⟨[c], List.cons_ne_nil _ _, rfl, rfl⟩
      · exact ⟨c :: u, List.cons_ne_nil _ _, rfl, hb⟩
    · rintro ⟨u, hne, heq, hb⟩
      obtain ⟨d, u, rfl⟩ := List.exists_cons_of_ne_nil hne
      obtain ⟨rfl, rfl⟩ := List.cons.inj heq
      by_cases hnil : u = []
      · exact .inl (Prod.ext hb (by rw [hnil]; rfl))
      · exact .inr ⟨u, hnil, rfl, hb⟩

theorem search_iff :
    search r t = true ↔ ∃ u v e, t = u ++ v ∧ e ∈ ends r (decide (u = []), v) := by
  unfold search
  simp only [List.any_cons, Bool.or_eq_true, List.any_eq_true, decide_eq_true_eq]
  constructor
  · rintro (h | ⟨p, hp, h⟩)
    · obtain ⟨e, he⟩ := List.exists_mem_of_ne_nil _ h
      exact ⟨[], t, e, rfl, he⟩
    · obtain ⟨u, hne, rfl, hb⟩ := mem_later.mp hp
      obtain ⟨e, he⟩ := List.exists_mem_of_ne_nil _ h
      refine ⟨u, p.2, e, rfl, ?_⟩
      rw [show (decide (u = []), p.2) = p from Prod.ext (by simp [hne, hb]) rfl]
      exact he
  · rintro ⟨u, v, e, rfl, he⟩
    by_cases hnil : u = []
    · rw [hnil] at he ⊢
      exact .inl (List.ne_nil_of_mem (by simpa using he))
    · refine .inr ⟨(false, v), mem_later.mpr ⟨u, hnil, rfl, rfl⟩, List.ne_nil_of_mem (a := e) ?_⟩
      simpa [hnil] using he

end

/-! ## Reading literals -/

def isPlain (c : Char) : Bool := c ∉ "()|^$[\\*.+?\x7b".toList

theorem step_plain {s : State} {c : Char} (hs : s.mode = .plain) (hc : isPlain c = true) :
    step s c = some (s.push (.cls [.char c])) := by
  have hne : ∀ d ∈ "()|^$[\\*.+?\x7b".toList, c ≠ d := by
    rintro d hd rfl
    exact of_decide_eq_true hc hd
  unfold step
  rw [hs]
  simp only [hne _ (by decide : '(' ∈ _), hne _ (by decide : ')' ∈ _),
    hne _ (by decide : '|' ∈ _), hne _ (by decide : '^' ∈ _), hne _ (by decide : '$' ∈ _),
    hne _ (by decide : '[' ∈ _), hne _ (by decide : '\\' ∈ _), hne _ (by decide : '*' ∈ _),
    hne _ (by decide : '.' ∈ _), hne _ (by decide : '+' ∈ _), hne _ (by decide : '?' ∈ _),
    hne _ (by decide : '\x7b' ∈ _), if_false, List.mem_cons, List.not_mem_nil, or_false]

end Regex
