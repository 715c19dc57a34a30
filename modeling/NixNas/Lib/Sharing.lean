import Mathlib.Data.List.Basic
import Mathlib.Data.List.Dedup
import Mathlib.Data.List.Induction
import Mathlib.Logic.Function.Basic

/-!
# Graphs of shared mappings

A node may stand in several places of a document, and a mapping may take over the entries of others.
A walk reads the document from its root.  An assignment is made in one node and is seen from every
place that reads its entry.
-/

namespace Sharing

variable {Addr Key Scalar : Type}
variable {V : Type}

inductive Value (Addr Scalar : Type) where
  | scalar (value : Scalar)
  | ref (a : Addr)
  deriving DecidableEq

/-- The mappings merged into one stand in the order of their precedence, each before those that are
merged into it. -/
inductive Node (Addr Key Scalar : Type) where
  | sequence (items : List (Value Addr Scalar))
  | mapping (own : List (Key × Value Addr Scalar)) (merged : List Addr)

structure Graph (Addr Key Scalar : Type) where
  node : Addr → Node Addr Key Scalar
  root : Value Addr Scalar

variable (g : Graph Addr Key Scalar)
variable {v : Value Addr Scalar}

def items (a : Addr) : List (Value Addr Scalar) :=
  match g.node a with
  | .sequence items => items
  | .mapping _ _ => []

def own (a : Addr) : List (Key × Value Addr Scalar) :=
  match g.node a with
  | .sequence _ => []
  | .mapping own _ => own

/-- The mappings that give a mapping its entries, the first one first. -/
def chain (a : Addr) : List Addr :=
  match g.node a with
  | .sequence _ => [a]
  | .mapping _ merged => a :: merged

def IsMapping (a : Addr) : Prop := ∃ own merged, g.node a = .mapping own merged

inductive Shape (Scalar : Type) where
  | scalar (value : Scalar)
  | sequence (length : ℕ)
  | mapping
  deriving DecidableEq

def Node.shape : Node Addr Key Scalar → Shape Scalar
  | .sequence items => .sequence items.length
  | .mapping _ _ => .mapping

def shape : Value Addr Scalar → Shape Scalar
  | .scalar value => .scalar value
  | .ref a => (g.node a).shape

section Lookup

variable [DecidableEq Key]

def get (a : Addr) (k : Key) : Option (Value Addr Scalar) :=
  (chain g a).findSome? fun m ↦ (own g m).lookup k

def keys (a : Addr) : List Key :=
  ((chain g a).flatMap fun m ↦ ((own g m).map Prod.fst).reverse).dedup.reverse

def entries (a : Addr) : List (Key × Value Addr Scalar) :=
  (keys g a).filterMap fun k ↦ (get g a k).map (k, ·)

inductive Step (Key : Type) where
  | key (k : Key)
  | index (i : ℕ)
  deriving DecidableEq

def step : Step Key → Value Addr Scalar → Option (Value Addr Scalar)
  | _, .scalar _ => none
  | .key k, .ref a => get g a k
  | .index i, .ref a => (items g a)[i]?

def walk : List (Step Key) → Value Addr Scalar → Option (Value Addr Scalar)
  | [], v => some v
  | s :: path, v => step g s v >>= walk path

def view (path : List (Step Key)) : Option (Shape Scalar) := (walk g path g.root).map (shape g)

end Lookup

/-! ## Assignments -/

structure Assignment (Addr Key Scalar : Type) where
  node : Addr
  key : Key
  value : Scalar

section Assign

variable [DecidableEq Addr] [DecidableEq Key]

/-- An old key keeps its position. -/
def setEntry (k : Key) (v : Value Addr Scalar) (own : List (Key × Value Addr Scalar)) :
    List (Key × Value Addr Scalar) :=
  if k ∈ own.map Prod.fst then own.map fun e ↦ if e.1 = k then (k, v) else e else own ++ [(k, v)]

def Assignment.put (w : Assignment Addr Key Scalar) : Node Addr Key Scalar → Node Addr Key Scalar
  | .sequence items => .sequence items
  | .mapping own merged => .mapping (setEntry w.key (.scalar w.value) own) merged

def assign (w : Assignment Addr Key Scalar) : Graph Addr Key Scalar where
  node := Function.update g.node w.node (w.put (g.node w.node))
  root := g.root

def assignAll (ws : List (Assignment Addr Key Scalar)) : Graph Addr Key Scalar :=
  ws.foldl (fun g w ↦ assign g w) g

end Assign

def Assigned (ws : List (Assignment Addr Key Scalar)) (a : Addr) (k : Key) : Prop :=
  ∃ w ∈ ws, w.node = a ∧ w.key = k

def Agree (ws : List (Assignment Addr Key Scalar)) : Prop :=
  ∀ w ∈ ws, ∀ w' ∈ ws, w.node = w'.node → w.key = w'.key → w.value = w'.value

section Frame

variable [DecidableEq Key]

/-- Where the mapping at `a` reads the entry that `w` assigns: nothing before it has the key. -/
def Shows (ws : List (Assignment Addr Key Scalar)) (a : Addr) (w : Assignment Addr Key Scalar) :
    Prop :=
  ∃ before after, chain g a = before ++ w.node :: after ∧
    ∀ m ∈ before, (own g m).lookup w.key = none ∧ ¬ Assigned ws m w.key

/-- Outside the edited places every place that shows an assignment has its value already. -/
def Untouched (ws : List (Assignment Addr Key Scalar)) (edited : List (Step Key) → Prop) : Prop :=
  ∀ path a, ∀ w ∈ ws, walk g path g.root = some (.ref a) → Shows g ws a w →
    ¬ edited (path ++ [.key w.key]) → get g a w.key = some (.scalar w.value)

end Frame

/-! ## Entries, places and walks -/

variable {g} [DecidableEq Key] {w : Assignment Addr Key Scalar}
  {ws : List (Assignment Addr Key Scalar)} {a : Addr} {k : Key}

theorem lookup_cons_if (k : Key) (e : Key × V) (entries : List (Key × V)) :
    (e :: entries).lookup k = if k = e.1 then some e.2 else entries.lookup k := by
  rw [List.lookup_cons]
  by_cases h : k = e.1
  · rw [if_pos h, h, beq_self_eq_true]
  · rw [if_neg h, beq_false_of_ne h]

theorem lookup_filterMap_keys {f : Key → Option V} (k : Key) (ks : List Key) :
    (ks.filterMap fun k ↦ (f k).map (k, ·)).lookup k = if k ∈ ks then f k else none := by
  induction ks with
  | nil => rfl
  | cons k' ks ih =>
    rw [List.filterMap_cons]
    by_cases hk : k = k'
    · subst hk
      rw [if_pos List.mem_cons_self]
      cases hf : f k with
      | none =>
        show (ks.filterMap _).lookup k = none
        rw [ih, hf, ite_self]
      | some v =>
        show ((k, v) :: ks.filterMap _).lookup k = some v
        rw [lookup_cons_if, if_pos rfl]
    · have hmem : k ∈ k' :: ks ↔ k ∈ ks := by
        rw [List.mem_cons, or_iff_right hk]
      rw [if_congr hmem rfl rfl, ← ih]
      cases f k' with
      | none => rfl
      | some v =>
        show ((k', v) :: ks.filterMap _).lookup k = _
        rw [lookup_cons_if, if_neg hk]

theorem mem_keys_of_get (h : get g a k = some v) : k ∈ keys g a := by
  obtain ⟨m, hm, hlookup⟩ := List.exists_of_findSome?_eq_some h
  unfold keys
  rw [List.mem_reverse, List.mem_dedup, List.mem_flatMap]
  refine ⟨m, hm, List.mem_reverse.mpr ?_⟩
  by_contra hnot
  have hnone : (own g m).lookup k = none := by
    rw [List.lookup_eq_none_iff]
    intro e he
    rw [bne_iff_ne]
    exact fun heq => hnot (heq ▸ List.mem_map_of_mem he)
  cases hnone.symm.trans hlookup

theorem get_sequence {items : List (Value Addr Scalar)} (h : g.node a = .sequence items) :
    get g a k = none := by
  have hchain : chain g a = [a] := by
    unfold chain
    rw [h]
  have hown : own g a = [] := by
    unfold own
    rw [h]
  unfold get
  rw [hchain, List.findSome?_cons, hown]
  rfl

theorem lookup_entries (a : Addr) (k : Key) : (entries g a).lookup k = get g a k := by
  unfold entries
  rw [lookup_filterMap_keys]
  split
  · rfl
  · rename_i hnot
    cases hget : get g a k with
    | none => rfl
    | some v => exact absurd (mem_keys_of_get hget) hnot

theorem nodup_keys_entries (a : Addr) : ((entries g a).map Prod.fst).Nodup := by
  have hsub : ∀ ks : List Key,
      List.Sublist ((ks.filterMap fun k ↦ (get g a k).map (k, ·)).map Prod.fst) ks := by
    intro ks
    induction ks with
    | nil => exact .slnil
    | cons k ks ih =>
      rw [List.filterMap_cons]
      cases get g a k with
      | none => exact ih.cons k
      | some v => exact ih.cons_cons k
  apply (hsub (keys g a)).nodup
  exact List.nodup_reverse.mpr (List.nodup_dedup _)

theorem lookup_replaced {entries : List (Key × Value Addr Scalar)}
    (hmem : k ∈ entries.map Prod.fst) (k' : Key) :
    (entries.map fun e ↦ if e.1 = k then (k, v) else e).lookup k' =
      if k' = k then some v else entries.lookup k' := by
  -- the other keys find what they found
  have hother : k' ≠ k → ∀ entries : List (Key × Value Addr Scalar),
      (entries.map fun e ↦ if e.1 = k then (k, v) else e).lookup k' = entries.lookup k' := by
    intro hk entries
    induction entries with
    | nil => rfl
    | cons e entries ih =>
      rw [List.map_cons, lookup_cons_if, lookup_cons_if, ih]
      by_cases he : e.1 = k
      · rw [if_pos he, if_neg hk, if_neg fun heq => hk (heq.trans he)]
      · rw [if_neg he]
  by_cases hk : k' = k
  · subst hk
    rw [if_pos rfl]
    induction entries with
    | nil => cases hmem
    | cons e entries ih =>
      rw [List.map_cons, lookup_cons_if]
      by_cases he : e.1 = k'
      · rw [if_pos he, if_pos rfl]
      · have hne : k' ≠ e.1 := fun heq => he heq.symm
        rw [if_neg he, if_neg hne]
        rw [List.map_cons, List.mem_cons] at hmem
        exact ih (hmem.resolve_left hne)
  · rw [if_neg hk, hother hk]

theorem lookup_setEntry {entries : List (Key × Value Addr Scalar)} {k' : Key} :
    (setEntry k v entries).lookup k' = if k' = k then some v else entries.lookup k' := by
  unfold setEntry
  by_cases hmem : k ∈ entries.map Prod.fst
  · rw [if_pos hmem, lookup_replaced hmem]
  · rw [if_neg hmem, List.lookup_append, lookup_cons_if, List.lookup_nil]
    by_cases hk : k' = k
    · have hnone : entries.lookup k' = none := by
        rw [hk, List.lookup_eq_none_iff]
        intro e he
        rw [bne_iff_ne]
        exact fun heq => hmem (heq ▸ List.mem_map_of_mem he)
      rw [hnone, if_pos hk, Option.none_or]
    · rw [if_neg hk, if_neg hk, Option.or_none]

omit [DecidableEq Key] in
theorem isMapping_iff : IsMapping g a ↔ shape g (.ref a) = .mapping := by
  show IsMapping g a ↔ (g.node a).shape = .mapping
  unfold IsMapping
  cases g.node a with
  | sequence => exact iff_of_false nofun nofun
  | mapping own merged => exact iff_of_true ⟨own, merged, rfl⟩ rfl

theorem shows_cons {m : Addr} {before rest : List Addr} (hchain : chain g a = before ++ m :: rest)
    (hbefore : ∀ m ∈ before, (own g m).lookup k = none ∧ ¬ Assigned ws m k)
    (hw : w.node = m) (hkey : w.key = k) : Shows g ws a w :=
  ⟨before, rest, hw ▸ hchain, hkey ▸ hbefore⟩

theorem shows_self (hw : IsMapping g w.node) : Shows g ws w.node w := by
  obtain ⟨entries, merged, hnode⟩ := hw
  refine ⟨[], merged, ?_, nofun⟩
  unfold chain
  rw [hnode]
  rfl

theorem walk_append (path path' : List (Step Key)) (v : Value Addr Scalar) :
    walk g (path ++ path') v = walk g path v >>= walk g path' := by
  induction path generalizing v with
  | nil => rfl
  | cons s path ih =>
    show step g s v >>= walk g (path ++ path') = (step g s v >>= walk g path) >>= walk g path'
    cases step g s v with
    | none => rfl
    | some v' => exact ih v'

theorem walk_snoc (path : List (Step Key)) (s : Step Key) (v : Value Addr Scalar) :
    walk g (path ++ [s]) v = walk g path v >>= step g s := by
  rw [walk_append]
  congr 1
  funext v'
  show step g s v' >>= some = step g s v'
  exact bind_pure _

omit [DecidableEq Key] in
theorem shape_eq_scalar {value : Scalar} (h : shape g v = .scalar value) : v = .scalar value := by
  cases v with
  | scalar => cases h; rfl
  | ref a =>
    change (g.node a).shape = _ at h
    cases hnode : g.node a <;> rw [hnode] at h <;> cases h

/-! ## What an assignment leaves alone -/

variable [DecidableEq Addr]

@[simp] theorem node_assign_self : (assign g w).node w.node = w.put (g.node w.node) :=
  Function.update_self _ _ _

theorem node_assign : (assign g w).node a = g.node a ∨ a = w.node := by
  by_cases ha : a = w.node
  · exact .inr ha
  · exact .inl (Function.update_of_ne ha _ _)

theorem items_assign : items (assign g w) a = items g a := by
  by_cases ha : a = w.node
  · subst ha
    unfold items
    rw [node_assign_self]
    cases g.node w.node <;> rfl
  · unfold items
    rw [node_assign.resolve_right ha]

theorem chain_assign : chain (assign g w) a = chain g a := by
  by_cases ha : a = w.node
  · subst ha
    unfold chain
    rw [node_assign_self]
    cases g.node w.node <;> rfl
  · unfold chain
    rw [node_assign.resolve_right ha]

theorem shape_assign (v : Value Addr Scalar) : shape (assign g w) v = shape g v := by
  cases v with
  | scalar => rfl
  | ref a =>
    show ((assign g w).node a).shape = (g.node a).shape
    by_cases ha : a = w.node
    · subst ha
      rw [node_assign_self]
      cases g.node w.node <;> rfl
    · rw [node_assign.resolve_right ha]

theorem lookup_own_assign (hw : IsMapping g w.node) :
    (own (assign g w) a).lookup k =
      if a = w.node ∧ k = w.key then some (.scalar w.value) else (own g a).lookup k := by
  by_cases ha : a = w.node
  · subst ha
    obtain ⟨entries, merged, hnode⟩ := hw
    have hown : own (assign g w) w.node = setEntry w.key (.scalar w.value) (own g w.node) := by
      unfold own
      rw [node_assign_self, hnode]
      rfl
    rw [hown, lookup_setEntry]
    simp
  · rw [if_neg fun hboth => ha hboth.1]
    unfold own
    rw [node_assign.resolve_right ha]

theorem assignAll_cons : assignAll g (w :: ws) = assignAll (assign g w) ws := rfl

theorem assignAll_append {ws' : List (Assignment Addr Key Scalar)} :
    assignAll g (ws ++ ws') = assignAll (assignAll g ws) ws' := List.foldl_append

@[simp] theorem root_assignAll : (assignAll g ws).root = g.root := by
  induction ws generalizing g with
  | nil => rfl
  | cons w ws ih => exact ih

@[simp] theorem items_assignAll : items (assignAll g ws) a = items g a := by
  induction ws generalizing g with
  | nil => rfl
  | cons w ws ih => rw [assignAll_cons, ih, items_assign]

@[simp] theorem chain_assignAll : chain (assignAll g ws) a = chain g a := by
  induction ws generalizing g with
  | nil => rfl
  | cons w ws ih => rw [assignAll_cons, ih, chain_assign]

@[simp] theorem shape_assignAll (v : Value Addr Scalar) : shape (assignAll g ws) v = shape g v := by
  induction ws generalizing g with
  | nil => rfl
  | cons w ws ih => rw [assignAll_cons, ih, shape_assign]

theorem isMapping_assignAll : IsMapping (assignAll g ws) a ↔ IsMapping g a := by
  rw [isMapping_iff, isMapping_iff, shape_assignAll]

theorem lookup_own_assignAll (hws : ∀ w ∈ ws, IsMapping g w.node) (a : Addr) (k : Key) :
    (∃ w ∈ ws, w.node = a ∧ w.key = k ∧
        (own (assignAll g ws) a).lookup k = some (.scalar w.value)) ∨
      ¬ Assigned ws a k ∧ (own (assignAll g ws) a).lookup k = (own g a).lookup k := by
  induction ws generalizing g with
  | nil => exact .inr ⟨fun ⟨_, hw, _⟩ => absurd hw List.not_mem_nil, rfl⟩
  | cons w ws ih =>
    rw [List.forall_mem_cons] at hws
    have htail : ∀ w' ∈ ws, IsMapping (assign g w) w'.node := fun w' hw' =>
      show IsMapping (assignAll g [w]) w'.node from isMapping_assignAll.mpr (hws.2 w' hw')
    rw [assignAll_cons]
    obtain ⟨w', hw', hnode, hkey, hlookup⟩ | ⟨hnot, hlookup⟩ := ih htail
    · exact .inl ⟨w', List.mem_cons_of_mem w hw', hnode, hkey, hlookup⟩
    · rw [hlookup, lookup_own_assign hws.1]
      by_cases hhere : a = w.node ∧ k = w.key
      · rw [if_pos hhere]
        exact .inl ⟨w, List.mem_cons_self, hhere.1.symm, hhere.2.symm, rfl⟩
      · rw [if_neg hhere]
        refine .inr ⟨?_, rfl⟩
        rintro ⟨w', hw', hnode, hkey⟩
        obtain rfl | hw' := List.mem_cons.mp hw'
        · exact hhere ⟨hnode.symm, hkey.symm⟩
        · exact hnot ⟨w', hw', hnode, hkey⟩

theorem get_assignAll (hws : ∀ w ∈ ws, IsMapping g w.node) (a : Addr) (k : Key) :
    get (assignAll g ws) a k = get g a k ∨
      ∃ w ∈ ws, w.key = k ∧ Shows g ws a w ∧
        get (assignAll g ws) a k = some (.scalar w.value) := by
  -- the mappings already passed have no such key, before and after
  have hwalk : ∀ rest before : List Addr, chain g a = before ++ rest →
      (∀ m ∈ before, (own g m).lookup k = none ∧ ¬ Assigned ws m k) →
      (rest.findSome? (fun m ↦ (own (assignAll g ws) m).lookup k) =
          rest.findSome? fun m ↦ (own g m).lookup k) ∨
        ∃ w ∈ ws, w.key = k ∧ Shows g ws a w ∧
          rest.findSome? (fun m ↦ (own (assignAll g ws) m).lookup k) = some (.scalar w.value) := by
    intro rest
    induction rest with
    | nil => exact fun _ _ _ => .inl rfl
    | cons m rest ih =>
      intro before hchain hbefore
      rw [List.findSome?_cons, List.findSome?_cons]
      obtain ⟨w, hw, hnode, hkey, hlookup⟩ | ⟨hnot, hlookup⟩ := lookup_own_assignAll hws m k
      · rw [hlookup]
        exact .inr ⟨w, hw, hkey, shows_cons hchain hbefore hnode hkey, rfl⟩
      · rw [hlookup]
        cases hold : (own g m).lookup k with
        | some v => exact .inl rfl
        | none =>
          apply ih (before ++ [m])
          · rw [hchain, List.append_assoc, List.singleton_append]
          · intro m' hm'
            obtain hm' | hm' := List.mem_append.mp hm'
            · exact hbefore m' hm'
            · obtain rfl := List.mem_singleton.mp hm'
              exact ⟨hold, hnot⟩
  unfold get
  rw [chain_assignAll]
  exact hwalk (chain g a) [] rfl nofun

theorem get_of_shows (hws : ∀ w ∈ ws, IsMapping g w.node) (hagree : Agree ws) (hw : w ∈ ws)
    (hshows : Shows g ws a w) : get (assignAll g ws) a w.key = some (.scalar w.value) := by
  obtain ⟨before, after, hchain, hbefore⟩ := hshows
  have hnone : before.findSome? (fun m ↦ (own (assignAll g ws) m).lookup w.key) = none := by
    rw [List.findSome?_eq_none_iff]
    intro m hm
    obtain ⟨w', hw', hnode, hkey, -⟩ | ⟨-, hlookup⟩ := lookup_own_assignAll hws m w.key
    · exact absurd ⟨w', hw', hnode, hkey⟩ (hbefore m hm).2
    · rw [hlookup]
      exact (hbefore m hm).1
  unfold get
  rw [chain_assignAll, hchain, List.findSome?_append, hnone, Option.none_or, List.findSome?_cons]
  obtain ⟨w', hw', hnode, hkey, hlookup⟩ | ⟨hnot, -⟩ := lookup_own_assignAll hws w.node w.key
  · rw [hlookup, hagree w' hw' w hw hnode hkey]
  · exact absurd ⟨w, hw, rfl, rfl⟩ hnot

theorem get_assignAll_of_ne (hws : ∀ w ∈ ws, IsMapping g w.node) (hk : ∀ w ∈ ws, w.key ≠ k) :
    get (assignAll g ws) a k = get g a k := by
  obtain hsame | ⟨w, hw, hkey, -, -⟩ := get_assignAll hws a k
  · exact hsame
  · exact absurd hkey (hk w hw)

theorem get_assigned (hws : ∀ w ∈ ws, IsMapping g w.node) (h : Assigned ws a k) :
    ∃ w ∈ ws, w.node = a ∧ w.key = k ∧ get (assignAll g ws) a k = some (.scalar w.value) := by
  obtain ⟨w, hw, hnode, hkey, hlookup⟩ | ⟨hnot, -⟩ := lookup_own_assignAll hws a k
  · refine ⟨w, hw, hnode, hkey, ?_⟩
    obtain ⟨entries, merged, hmapping⟩ := hws w hw
    have hchain : chain g a = a :: merged := by
      unfold chain
      rw [← hnode, hmapping]
    unfold get
    rw [chain_assignAll, hchain, List.findSome?_cons, hlookup]
  · exact absurd h hnot

/-- A step differs only where an assignment is shown. -/
theorem step_assignAll (hws : ∀ w ∈ ws, IsMapping g w.node) (s : Step Key)
    (v : Value Addr Scalar) :
    step (assignAll g ws) s v = step g s v ∨
      ∃ w ∈ ws, ∃ a, s = .key w.key ∧ v = .ref a ∧ Shows g ws a w ∧
        step (assignAll g ws) s v = some (.scalar w.value) := by
  cases v with
  | scalar => cases s <;> exact .inl rfl
  | ref a =>
    cases s with
    | index i =>
      left
      show (items (assignAll g ws) a)[i]? = (items g a)[i]?
      rw [items_assignAll]
    | key k =>
      obtain hsame | ⟨w, hw, rfl, hshows, hget⟩ := get_assignAll hws a k
      · exact .inl hsame
      · exact .inr ⟨w, hw, a, rfl, rfl, hshows, hget⟩

variable {edited : List (Step Key) → Prop}

/-- A document that looks the same outside the edited places leads to the same values there. -/
theorem walk_eq_of_view (hws : ∀ w ∈ ws, IsMapping g w.node)
    (hclosed : ∀ path s, edited path → edited (path ++ [s]))
    (hview : ∀ path, ¬ edited path → view (assignAll g ws) path = view g path) :
    ∀ path, ¬ edited path → walk (assignAll g ws) path g.root = walk g path g.root := by
  intro path
  induction path using List.reverseRecOn with
  | nil => exact fun _ => rfl
  | append_singleton path s ih =>
    intro hpath
    have hbefore := ih fun hedited => hpath (hclosed path s hedited)
    have hsame := hview (path ++ [s]) hpath
    unfold view at hsame
    rw [root_assignAll] at hsame
    rw [walk_snoc, walk_snoc, hbefore] at hsame ⊢
    cases hv : walk g path g.root with
    | none => rfl
    | some v =>
      rw [hv] at hsame
      show step (assignAll g ws) s v = step g s v
      obtain hstep | ⟨w, -, a, -, -, -, hstep⟩ := step_assignAll hws s v
      · exact hstep
      · -- the assigned value is seen, so it was there before
        change (step (assignAll g ws) s v).map _ = (step g s v).map _ at hsame
        rw [hstep] at hsame ⊢
        obtain ⟨v', hv', hshape⟩ := Option.map_eq_some_iff.mp hsame.symm
        rw [hv', shape_eq_scalar hshape]

/-- What stands outside the edited places is unchanged exactly when the assignments are not seen
there, or have the value that is there. -/
theorem view_assignAll_iff (hws : ∀ w ∈ ws, IsMapping g w.node) (hagree : Agree ws)
    (hclosed : ∀ path s, edited path → edited (path ++ [s])) :
    (∀ path, ¬ edited path → view (assignAll g ws) path = view g path) ↔
      Untouched g ws edited := by
  constructor
  · intro hview path a w hw hwalk hshows hpath
    have hsame := walk_eq_of_view hws hclosed hview (path ++ [.key w.key]) hpath
    have hbefore := walk_eq_of_view hws hclosed hview path fun hedited => hpath (hclosed _ _ hedited)
    rw [walk_snoc, walk_snoc, hbefore, hwalk] at hsame
    change get (assignAll g ws) a w.key = get g a w.key at hsame
    rw [← hsame]
    exact get_of_shows hws hagree hw hshows
  · intro huntouched
    have hwalk : ∀ path, ¬ edited path → walk (assignAll g ws) path g.root = walk g path g.root := by
      intro path
      induction path using List.reverseRecOn with
      | nil => exact fun _ => rfl
      | append_singleton path s ih =>
        intro hpath
        have hbefore := ih fun hedited => hpath (hclosed path s hedited)
        rw [walk_snoc, walk_snoc, hbefore]
        cases hv : walk g path g.root with
        | none => rfl
        | some v =>
          show step (assignAll g ws) s v = step g s v
          obtain hstep | ⟨w, hw, a, rfl, rfl, hshows, hstep⟩ := step_assignAll hws s v
          · exact hstep
          · rw [hstep]
            exact (huntouched path a w hw hv hshows hpath).symm
    intro path hpath
    unfold view
    rw [root_assignAll, hwalk path hpath]
    congr 1
    funext v
    exact shape_assignAll v

end Sharing
