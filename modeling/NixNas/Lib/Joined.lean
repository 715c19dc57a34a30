import Mathlib.Data.List.Basic

/-!
# Words joined by a separator

When two joined texts are the same, one of the first words continues the other across a separator,
unless the words are the same.  A text with a fixed end is split at that end.
-/

namespace Joined

universe u

variable {α : Type u} {sep : α} {a b c d : List α}

theorem join_eq_iff : a ++ sep :: b = c ++ sep :: d ↔
    (a = c ∧ b = d) ∨ (∃ r, c = a ++ sep :: r ∧ b = r ++ sep :: d) ∨
      ∃ r, a = c ++ sep :: r ∧ d = r ++ sep :: b := by
  constructor
  · intro h
    rcases List.append_eq_append_iff.mp h with ⟨r, hc, hb⟩ | ⟨r, ha, hd⟩
    · cases r with
      | nil =>
        rw [List.append_nil] at hc
        exact .inl ⟨hc.symm, (List.cons.inj hb).2⟩
      | cons x r =>
        -- the separator after the shorter word is the first letter of the rest
        rcases List.cons.inj hb with ⟨rfl, hrest⟩
        exact .inr (.inl ⟨r, hc, hrest⟩)
    · cases r with
      | nil =>
        rw [List.append_nil] at ha
        exact .inl ⟨ha, (List.cons.inj hd).2.symm⟩
      | cons x r =>
        rcases List.cons.inj hd with ⟨rfl, hrest⟩
        exact .inr (.inr ⟨r, ha, hrest⟩)
  · rintro (⟨rfl, rfl⟩ | ⟨r, rfl, rfl⟩ | ⟨r, rfl, rfl⟩)
    · rfl
    · rw [List.append_assoc, List.cons_append]
    · rw [List.append_assoc, List.cons_append]

theorem join_inj (ha : sep ∉ a) (hc : sep ∉ c) : a ++ sep :: b = c ++ sep :: d ↔ a = c ∧ b = d := by
  rw [join_eq_iff]
  constructor
  · rintro (h | ⟨r, rfl, _⟩ | ⟨r, rfl, _⟩)
    · exact h
    · exact (hc (by simp)).elim
    · exact (ha (by simp)).elim
  · exact .inl

theorem join_inj_right (hb : sep ∉ b) (hd : sep ∉ d) :
    a ++ sep :: b = c ++ sep :: d ↔ a = c ∧ b = d := by
  rw [join_eq_iff]
  constructor
  · rintro (h | ⟨r, _, rfl⟩ | ⟨r, _, rfl⟩)
    · exact h
    · exact (hb (by simp)).elim
    · exact (hd (by simp)).elim
  · exact .inl

/-- The words are the same, or one continues the other across a separator. -/
def Nested (sep : α) (a b : List α) : Prop :=
  a = b ∨ (∃ r, b = a ++ sep :: r) ∨ ∃ r, a = b ++ sep :: r

def Continues (sep : α) (a b : List α) : Prop := ∃ r, r ≠ [] ∧ b = a ++ sep :: r

theorem nested_of_join_eq (h : a ++ sep :: b = c ++ sep :: d) : Nested sep a c := by
  rcases join_eq_iff.mp h with ⟨heq, _⟩ | ⟨r, hr, _⟩ | ⟨r, hr, _⟩
  · exact .inl heq
  · exact .inr (.inl ⟨r, hr⟩)
  · exact .inr (.inr ⟨r, hr⟩)

theorem join_eq_of_nested (h : Nested sep a c) (t : List α) : ∃ x y, (x = [] ∨ y = []) ∧
    a ++ sep :: (x ++ t) = c ++ sep :: (y ++ t) ∧ (∀ z ∈ x, z = sep ∨ z ∈ c) ∧
      ∀ z ∈ y, z = sep ∨ z ∈ a := by
  rcases h with rfl | ⟨r, rfl⟩ | ⟨r, rfl⟩
  · exact ⟨[], [], .inl rfl, rfl, nofun, nofun⟩
  · refine ⟨r ++ [sep], [], .inr rfl, by simp, ?_, nofun⟩
    intro z hz
    rcases List.mem_append.mp hz with hz | hz
    · exact .inr (List.mem_append_right _ (List.mem_cons_of_mem _ hz))
    · exact .inl (List.mem_singleton.mp hz)
  · refine ⟨[], r ++ [sep], .inl rfl, by simp, nofun, ?_⟩
    intro z hz
    rcases List.mem_append.mp hz with hz | hz
    · exact .inr (List.mem_append_right _ (List.mem_cons_of_mem _ hz))
    · exact .inl (List.mem_singleton.mp hz)

theorem join_eq_word_iff (ha : sep ∉ a) : c ++ sep :: d = a ++ sep :: b ↔
    (c = a ∧ d = b) ∨ ∃ r, c = a ++ sep :: r ∧ b = r ++ sep :: d := by
  rw [join_eq_iff]
  constructor
  · rintro (h | ⟨r, rfl, _⟩ | h)
    · exact .inl h
    · exact (ha (by simp)).elim
    · exact .inr h
  · rintro (h | h)
    · exact .inl h
    · exact .inr (.inr h)

section

variable [BEq α] [LawfulBEq α] {l first last : List α}

theorem dropPrefix?_eq_some : l.dropPrefix? first = some b ↔ l = first ++ b := by
  rw [List.dropPrefix?_eq_some_iff]
  constructor
  · rintro ⟨p, hl, hp⟩
    rw [hl, eq_of_beq hp]
  · intro hl
    exact ⟨first, hl, beq_self_eq_true first⟩

theorem dropSuffix?_eq_some : l.dropSuffix? last = some a ↔ l = a ++ last := by
  rw [List.dropSuffix?_eq_some_iff]
  constructor
  · rintro ⟨s, hl, hs⟩
    rw [hl, eq_of_beq hs]
  · intro hl
    exact ⟨last, hl, beq_self_eq_true last⟩

theorem dropSuffix?_join [DecidableEq α] (hb : sep ∉ b) (hd : sep ∉ d) :
    (a ++ sep :: b).dropSuffix? (sep :: d) = if b = d then some a else none := by
  ext r
  rw [dropSuffix?_eq_some, join_inj_right hb hd]
  split
  · rename_i heq
    rw [Option.some.injEq, and_iff_left heq]
  · rename_i hne
    constructor
    · exact fun h => (hne h.2).elim
    · nofun

end

end Joined
