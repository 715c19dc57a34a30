import Mathlib.Data.List.Basic

/-!
# Streams of items without lengths

An item is a head and a body. A head says where it ends, and nothing says where a body ends.
-/

namespace NixNas.Framing

variable {H β : Type*}

structure Item (H β : Type*) where
  head : H
  body : List β

/-- How heads are written, which of them a body follows, and which sequences of heads there are. -/
structure Grammar (H β : Type*) where
  enc : H → List β
  bodied : H → Bool
  admits : List H → Prop

/-- Heads are read off the front of what follows, and a sequence may end earlier. -/
structure Grammar.Lawful (g : Grammar H β) : Prop where
  ne_nil : ∀ h, g.enc h ≠ []
  read : ∀ {hs hs' : List H} {h h' : H} {x x' : List β}, g.admits hs → g.admits hs' → h ∈ hs →
    h' ∈ hs' → g.enc h ++ x = g.enc h' ++ x' → h = h' ∧ x = x'
  shorter : ∀ {hs hs' : List H}, hs ≠ [] → g.admits (hs ++ hs') → g.admits hs

structure Grammar.Valid (g : Grammar H β) (items : List (Item H β)) : Prop where
  heads : g.admits (items.map Item.head)
  bodies : ∀ item ∈ items, g.bodied item.head = false → item.body = []

def Grammar.stream (g : Grammar H β) (items : List (Item H β)) : List β :=
  items.flatMap fun item ↦ g.enc item.head ++ item.body

/-- Nothing follows a body, and no end of a body reads as further items. -/
structure Grammar.Framed (g : Grammar H β) (items : List (Item H β)) : Prop where
  last : ∀ front item next rest, items = front ++ item :: next :: rest → g.bodied item.head = false
  whole : ∀ front item, items = front ++ [item] → g.bodied item.head = true →
    ∀ body rest, rest ≠ [] → g.Valid (front ++ ⟨item.head, body⟩ :: rest) →
      item.body ≠ body ++ g.stream rest

variable {g : Grammar H β} {items items' : List (Item H β)}

@[simp]
theorem stream_nil : g.stream [] = [] := rfl

@[simp]
theorem stream_cons (item : Item H β) :
    g.stream (item :: items) = g.enc item.head ++ (item.body ++ g.stream items) := by
  rw [Grammar.stream, List.flatMap_cons, List.append_assoc]
  rfl

@[simp]
theorem stream_append : g.stream (items ++ items') = g.stream items ++ g.stream items' :=
  List.flatMap_append

theorem stream_eq_nil_iff (hg : g.Lawful) : g.stream items = [] ↔ items = [] := by
  cases items with
  | nil => exact iff_of_true rfl rfl
  | cons item rest =>
    rw [stream_cons, List.append_eq_nil_iff]
    exact iff_of_false (fun h => hg.ne_nil _ h.1) (List.cons_ne_nil _ _)

/-- A sequence may end at any of its items, with any body there. -/
theorem Grammar.Valid.cut (hg : g.Lawful) {front rest : List (Item H β)} {item : Item H β}
    (h : g.Valid (front ++ item :: rest)) (hbodied : g.bodied item.head = true) (body : List β) :
    g.Valid (front ++ [⟨item.head, body⟩]) where
  heads := by
    have hheads := h.heads
    rw [List.map_append, List.map_cons, List.append_cons] at hheads
    have hcut := hg.shorter (List.concat_ne_nil _ _) hheads
    rwa [List.map_append, List.map_singleton]
  bodies other hother hplain := by
    rcases List.mem_append.mp hother with hfront | hlast
    · exact h.bodies other (List.mem_append_left _ hfront) hplain
    · rw [List.mem_singleton.mp hlast] at hplain
      exact absurd hplain (by rw [hbodied]; decide)

/-- What follows a body is taken into it without a trace. -/
theorem framed_of_unique (hg : g.Lawful) (h : g.Valid items)
    (hunique : ∀ items', g.Valid items' → g.stream items' = g.stream items → items' = items) :
    g.Framed items where
  last front item next rest heq := by
    by_contra hbodied
    rw [Bool.not_eq_false] at hbodied
    subst heq
    have hsame := hunique _ (h.cut hg hbodied (item.body ++ g.stream (next :: rest))) (by simp)
    have hlength := congrArg List.length hsame
    simp at hlength
  whole front item heq hbodied body rest hrest hvalid hbody := by
    subst heq
    have hsame := hunique _ hvalid (by simp [hbody])
    have hlength := congrArg List.length hsame
    rw [List.length_append, List.length_append, List.length_cons, List.length_singleton] at hlength
    have hzero : rest.length = 0 := by omega
    exact hrest (List.length_eq_zero_iff.mp hzero)

/-- Reading goes on item by item as long as no body has come. -/
theorem unique_of_framed (hg : g.Lawful) (front : List (Item H β)) {rest rest' : List (Item H β)}
    (h : g.Valid (front ++ rest)) (hframed : g.Framed (front ++ rest))
    (h' : g.Valid (front ++ rest')) (hstream : g.stream rest' = g.stream rest) : rest' = rest := by
  induction rest generalizing front rest' with
  | nil => exact (stream_eq_nil_iff hg).mp hstream
  | cons item rest ih =>
    cases rest' with
    | nil => exact ((stream_eq_nil_iff hg).mp hstream.symm).symm
    | cons item' rest' =>
      rw [stream_cons, stream_cons] at hstream
      obtain ⟨hhead, htail⟩ := hg.read h'.heads h.heads
        (List.mem_map.mpr ⟨item', by simp, rfl⟩) (List.mem_map.mpr ⟨item, by simp, rfl⟩) hstream
      cases hbodied : g.bodied item.head with
      | false =>
        -- neither item has a body, and the rest is read as before
        have hbody : item.body = [] := h.bodies item (by simp) hbodied
        have hbody' : item'.body = [] := h'.bodies item' (by simp) (by rw [hhead, hbodied])
        have hitem : item' = item := by
          cases item'
          cases item
          cases hhead
          cases hbody
          cases hbody'
          rfl
        rw [hbody, hbody', List.nil_append, List.nil_append] at htail
        subst hitem
        rw [List.append_cons] at h hframed h'
        rw [ih _ h hframed h' htail]
      | true =>
        -- the body is the last one, and the other sequence may not go on inside it
        cases rest with
        | cons next rest =>
          have hlast := hframed.last front item next rest rfl
          rw [hbodied] at hlast
          exact absurd hlast (by decide)
        | nil =>
          rw [stream_nil, List.append_nil] at htail
          by_cases hrest : rest' = []
          · subst hrest
            rw [stream_nil, List.append_nil] at htail
            cases item'
            cases item
            cases hhead
            cases htail
            rfl
          · have hvalid : g.Valid (front ++ ⟨item.head, item'.body⟩ :: rest') := by
              rw [← hhead]
              exact h'
            exact absurd htail.symm (hframed.whole front item rfl hbodied _ _ hrest hvalid)

theorem unique_iff (hg : g.Lawful) (h : g.Valid items) :
    (∀ items', g.Valid items' → g.stream items' = g.stream items → items' = items) ↔
      g.Framed items := by
  constructor
  · exact framed_of_unique hg h
  · intro hframed items' h' hstream
    exact unique_of_framed hg [] h hframed h' hstream

end NixNas.Framing
