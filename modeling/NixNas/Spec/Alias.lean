import NixNas.Lib.Digraph
import NixNas.Spec.Equality

/-!
# Aliases (`_plain_bounded` of `services/nas_v2_spec.py`)

The loader makes one object of an anchor and all its aliases, so a document is a graph.  The calls of
`_plain_bounded` share the set of the ancestors and the count, which a call hands on.
-/

open Relation Fallible Digraph

namespace NixNas.Spec

/-- An object of the loader, with the objects that it holds. -/
inductive Cell (ι F : Type) where
  | scalar (value : Scalar F)
  | sequence (items : List ι)
  | mapping (entries : List (Text × ι))

structure ValueGraph (ι F : Type) where
  cell : ι → Cell ι F
  keys : ∀ i entries, cell i = .mapping entries → (entries.map Prod.fst).Nodup

variable {ι F : Type}
variable {path : List PathPart} {count n : Nat}

structure Expansion (ι : Type) where
  ancestors : Finset ι
  count : Nat

def aliasError (path : List PathPart) : SpecError :=
  ⟨"YAML alias cycle detected".toList, jsonPath path, "yaml-cycle".toList⟩

section Pass

variable [DecidableEq ι]

mutual

def ValueGraph.plainBounded (g : ValueGraph ι F) (path : List PathPart) (depth : Nat)
    (shared : Expansion ι) (i : ι) : Except SpecError (Plain F × Expansion ι) :=
  match g.cell i with
  | .scalar value => do
    let count ← countNode path shared.count
    let plain ← plainScalar value
    .ok (plain, { shared with count := count })
  | .sequence items =>
    if i ∈ shared.ancestors then .error (aliasError path)
    else if _h : maxYamlDepth < depth then .error (depthError path)
    else do
      let count ← countNode path shared.count
      let (plains, shared) ← g.plainItems path depth 0 ⟨insert i shared.ancestors, count⟩ items
      .ok (.array plains, { shared with ancestors := shared.ancestors.erase i })
  | .mapping entries =>
    if i ∈ shared.ancestors then .error (aliasError path)
    else if _h : maxYamlDepth < depth then .error (depthError path)
    else do
      let count ← countNode path shared.count
      let (plains, shared) ← g.plainEntries path depth [] ⟨insert i shared.ancestors, count⟩ entries
      .ok (.object plains, { shared with ancestors := shared.ancestors.erase i })
termination_by (maxYamlDepth + 1 - depth, 0)

def ValueGraph.plainItems (g : ValueGraph ι F) (path : List PathPart) (depth index : Nat)
    (shared : Expansion ι) : List ι → Except SpecError (List (Plain F) × Expansion ι)
  | [] => .ok ([], shared)
  | i :: items => do
    let (plain, shared) ← g.plainBounded (path ++ [.index index]) (depth + 1) shared i
    let (plains, shared) ← g.plainItems path depth (index + 1) shared items
    .ok (plain :: plains, shared)
termination_by items => (maxYamlDepth - depth, items.length + 1)

def ValueGraph.plainEntries (g : ValueGraph ι F) (path : List PathPart) (depth : Nat)
    (dict : List (Text × Plain F)) (shared : Expansion ι) :
    List (Text × ι) → Except SpecError (List (Text × Plain F) × Expansion ι)
  | [] => .ok (dict, shared)
  | (key, i) :: entries => do
    let (plain, shared) ← g.plainBounded (path ++ [.key key]) (depth + 1) shared i
    g.plainEntries path depth (setItem dict key plain) shared entries
termination_by entries => (maxYamlDepth - depth, entries.length + 1)

end

def ValueGraph.plain (g : ValueGraph ι F) (root : ι) : Except SpecError (Plain F) :=
  (g.plainBounded [] 0 ⟨∅, 0⟩ root).map Prod.fst

end Pass

/-! ## Unfoldings -/

def Contains (g : ValueGraph ι F) (i j : ι) : Prop :=
  (∃ items, g.cell i = .sequence items ∧ j ∈ items) ∨
    ∃ entries, g.cell i = .mapping entries ∧ ∃ key, (key, j) ∈ entries

mutual

def UnfoldsTo (g : ValueGraph ι F) : Plain F → ι → Prop
  | .scalar value, i => g.cell i = .scalar value
  | .array plains, i => ∃ items, g.cell i = .sequence items ∧ ItemsUnfoldTo g plains items
  | .object plains, i => ∃ entries, g.cell i = .mapping entries ∧ EntriesUnfoldTo g plains entries

def ItemsUnfoldTo (g : ValueGraph ι F) : List (Plain F) → List ι → Prop
  | [], items => items = []
  | plain :: plains, items =>
    ∃ i rest, items = i :: rest ∧ UnfoldsTo g plain i ∧ ItemsUnfoldTo g plains rest

def EntriesUnfoldTo (g : ValueGraph ι F) : List (Text × Plain F) → List (Text × ι) → Prop
  | [], entries => entries = []
  | (key, plain) :: plains, entries =>
    ∃ i rest, entries = (key, i) :: rest ∧ UnfoldsTo g plain i ∧ EntriesUnfoldTo g plains rest

end

mutual

def levels : Plain F → Nat
  | .scalar _ => 0
  | .array plains => levelsItems plains + 1
  | .object plains => levelsEntries plains + 1

def levelsItems : List (Plain F) → Nat
  | [] => 0
  | plain :: plains => max (levels plain) (levelsItems plains)

def levelsEntries : List (Text × Plain F) → Nat
  | [] => 0
  | (_, plain) :: plains => max (levels plain) (levelsEntries plains)

end

def containerDepth (tree : Plain F) : Nat := levels tree - 1

mutual

def nodes : Plain F → Nat
  | .scalar _ => 1
  | .array plains => nodesItems plains + 1
  | .object plains => nodesEntries plains + 1

def nodesItems : List (Plain F) → Nat
  | [] => 0
  | plain :: plains => nodes plain + nodesItems plains

def nodesEntries : List (Text × Plain F) → Nat
  | [] => 0
  | (_, plain) :: plains => nodes plain + nodesEntries plains

end

/-- JSON has values of the type. -/
def JsonCompatible : Scalar F → Prop
  | .other _ => False
  | _ => True

mutual

def JsonScalars : Plain F → Prop
  | .scalar value => JsonCompatible value
  | .array plains => JsonItems plains
  | .object plains => JsonEntries plains

def JsonItems : List (Plain F) → Prop
  | [] => True
  | plain :: plains => JsonScalars plain ∧ JsonItems plains

def JsonEntries : List (Text × Plain F) → Prop
  | [] => True
  | (_, plain) :: plains => JsonScalars plain ∧ JsonEntries plains

end

mutual

/-- The tree as the loader makes it of a document without aliases. -/
def asTree : Plain F → Tree F
  | .scalar value => .scalar value
  | .array plains => .sequence (asTreeItems plains)
  | .object plains => .mapping (asTreeEntries plains)

def asTreeItems : List (Plain F) → List (Tree F)
  | [] => []
  | plain :: plains => asTree plain :: asTreeItems plains

def asTreeEntries : List (Text × Plain F) → List (Key F × Tree F)
  | [] => []
  | (key, plain) :: plains => (.string key, asTree plain) :: asTreeEntries plains

end

/-! ## Trees -/

theorem countNode_ok : countNode path count = .ok n ↔ n = count + 1 ∧ count + 1 ≤ maxYamlNodes := by
  unfold countNode
  rw [guard_ok_iff, Except.ok.injEq, not_lt, and_comm, eq_comm]

theorem countContainer_ok {depth : Nat} :
    countContainer path depth count = .ok n ↔
      depth ≤ maxYamlDepth ∧ n = count + 1 ∧ count + 1 ≤ maxYamlNodes := by
  unfold countContainer
  rw [guard_ok_iff, countNode_ok, not_lt]

theorem plainScalar_ok {value : Scalar F} {result : Plain F} :
    plainScalar value = .ok result ↔ result = .scalar value ∧ JsonCompatible value := by
  cases value with
  | other typeName => exact ⟨nofun, fun h => h.2.elim⟩
  | _ =>
    constructor
    · rintro ⟨⟩
      exact ⟨rfl, trivial⟩
    · rintro ⟨rfl, -⟩
      rfl

section Tree

variable (repr : F → Text)

mutual

theorem plainBounded_ok_iff : ∀ (tree : Plain F) {path : List PathPart} {depth count n : Nat}
    {result : Plain F}, Dict tree → depth ≤ maxYamlDepth + 1 →
    (Spec.plainBounded repr path depth count (asTree tree) = .ok (result, n) ↔
      result = tree ∧ n = count + nodes tree ∧ levels tree + depth ≤ maxYamlDepth + 1 ∧
        n ≤ maxYamlNodes ∧ JsonScalars tree)
  | .scalar value, path, depth, count, n, result, _, hdepth => by
    rw [asTree, Spec.plainBounded, bind_ok_iff]
    simp only [bind_ok_iff, countNode_ok, plainScalar_ok, Except.ok.injEq, Prod.mk.injEq, levels,
      nodes, JsonScalars]
    constructor
    · rintro ⟨_, ⟨rfl, hcount⟩, _, ⟨rfl, hjson⟩, rfl, rfl⟩
      exact ⟨rfl, rfl, by omega, hcount, hjson⟩
    · rintro ⟨rfl, rfl, -, hcount, hjson⟩
      exact ⟨_, ⟨rfl, hcount⟩, _, ⟨rfl, hjson⟩, rfl, rfl⟩
  | .array plains, path, depth, count, n, result, hdict, hdepth => by
    rw [asTree, Spec.plainBounded, bind_ok_iff]
    simp only [bind_ok_iff, countContainer_ok, Except.ok.injEq, Prod.mk.injEq, Prod.exists, levels,
      nodes, JsonScalars]
    constructor
    · rintro ⟨_, ⟨hle, rfl, hcount⟩, _, _, hitems, rfl, rfl⟩
      obtain ⟨rfl, rfl, hlevels, hn, hjson⟩ := (plainItems_ok_iff plains hdict hle hcount).mp hitems
      exact ⟨rfl, by omega, by omega, hn, hjson⟩
    · rintro ⟨rfl, rfl, hlevels, hn, hjson⟩
      have hle : depth ≤ maxYamlDepth := by omega
      have hcount : count + 1 ≤ maxYamlNodes := by omega
      refine ⟨_, ⟨hle, rfl, hcount⟩, _, _, (plainItems_ok_iff plains hdict hle hcount).mpr
        ⟨rfl, rfl, by omega, by omega, hjson⟩, rfl, by omega⟩
  | .object plains, path, depth, count, n, result, hdict, hdepth => by
    rw [asTree, Spec.plainBounded, bind_ok_iff]
    simp only [bind_ok_iff, countContainer_ok, Except.ok.injEq, Prod.mk.injEq, Prod.exists, levels,
      nodes, JsonScalars]
    have hfresh : ∀ e ∈ plains, e.1 ∉ ([] : Object F).map Prod.fst := fun _ _ => List.not_mem_nil
    constructor
    · rintro ⟨_, ⟨hle, rfl, hcount⟩, _, _, hentries, rfl, rfl⟩
      obtain ⟨rfl, rfl, hlevels, hn, hjson⟩ :=
        (plainEntries_ok_iff plains hdict.1 hfresh hdict.2 hle hcount).mp hentries
      exact ⟨rfl, by omega, by omega, hn, hjson⟩
    · rintro ⟨rfl, rfl, hlevels, hn, hjson⟩
      have hle : depth ≤ maxYamlDepth := by omega
      have hcount : count + 1 ≤ maxYamlNodes := by omega
      refine ⟨_, ⟨hle, rfl, hcount⟩, _, _, (plainEntries_ok_iff plains hdict.1 hfresh hdict.2 hle
        hcount).mpr ⟨rfl, rfl, by omega, by omega, hjson⟩, rfl, by omega⟩

theorem plainItems_ok_iff : ∀ (plains : List (Plain F)) {path : List PathPart}
    {depth count index n : Nat} {results : List (Plain F)}, DictItems plains →
    depth ≤ maxYamlDepth → count ≤ maxYamlNodes →
    (Spec.plainItems repr path depth count index (asTreeItems plains) = .ok (results, n) ↔
      results = plains ∧ n = count + nodesItems plains ∧
        levelsItems plains + (depth + 1) ≤ maxYamlDepth + 1 ∧ n ≤ maxYamlNodes ∧ JsonItems plains)
  | [], path, depth, count, index, n, results, _, hdepth, hcount => by
    rw [asTreeItems, Spec.plainItems]
    simp only [Except.ok.injEq, Prod.mk.injEq, levelsItems, nodesItems, JsonItems]
    constructor
    · rintro ⟨rfl, rfl⟩
      exact ⟨rfl, rfl, by omega, hcount, trivial⟩
    · rintro ⟨rfl, rfl, -⟩
      exact ⟨rfl, rfl⟩
  | plain :: plains, path, depth, count, index, n, results, hdict, hdepth, hcount => by
    rw [asTreeItems, Spec.plainItems, bind_ok_iff]
    simp only [bind_ok_iff, Except.ok.injEq, Prod.mk.injEq, Prod.exists, levelsItems, nodesItems,
      JsonItems, plainBounded_ok_iff plain hdict.1 (Nat.succ_le_succ hdepth)]
    constructor
    · rintro ⟨_, _, ⟨rfl, rfl, hlevel, hone, hjson⟩, _, _, hrest, rfl, rfl⟩
      obtain ⟨rfl, rfl, hlevels, hn, hjsons⟩ := (plainItems_ok_iff plains hdict.2 hdepth hone).mp hrest
      exact ⟨rfl, by omega, by omega, hn, hjson, hjsons⟩
    · rintro ⟨rfl, rfl, hlevels, hn, hjson, hjsons⟩
      refine ⟨_, _, ⟨rfl, rfl, by omega, by omega, hjson⟩, _, _,
        (plainItems_ok_iff plains hdict.2 hdepth (by omega)).mpr
          ⟨rfl, rfl, by omega, by omega, hjsons⟩, rfl, by omega⟩

theorem plainEntries_ok_iff : ∀ (plains : Object F) {path : List PathPart}
    {depth count n : Nat} {dict results : Object F}, (plains.map Prod.fst).Nodup →
    (∀ e ∈ plains, e.1 ∉ dict.map Prod.fst) → DictEntries plains →
    depth ≤ maxYamlDepth → count ≤ maxYamlNodes →
    (Spec.plainEntries repr path depth count dict (asTreeEntries plains) = .ok (results, n) ↔
      results = dict ++ plains ∧ n = count + nodesEntries plains ∧
        levelsEntries plains + (depth + 1) ≤ maxYamlDepth + 1 ∧ n ≤ maxYamlNodes ∧
        JsonEntries plains)
  | [], path, depth, count, n, dict, results, _, _, _, hdepth, hcount => by
    rw [asTreeEntries, Spec.plainEntries]
    simp only [Except.ok.injEq, Prod.mk.injEq, levelsEntries, nodesEntries, JsonEntries,
      List.append_nil]
    constructor
    · rintro ⟨rfl, rfl⟩
      exact ⟨rfl, rfl, by omega, hcount, trivial⟩
    · rintro ⟨rfl, rfl, -⟩
      exact ⟨rfl, rfl⟩
  | (key, plain) :: plains, path, depth, count, n, dict, results, hnodup, hfresh, hdict, hdepth,
      hcount => by
    rw [List.map_cons, List.nodup_cons] at hnodup
    rw [List.forall_mem_cons] at hfresh
    -- the key is new, so the assignment appends
    have hset : setItem dict key plain = dict ++ [(key, plain)] := by
      unfold setItem
      rw [if_neg hfresh.1]
    have hfresh' : ∀ e ∈ plains, e.1 ∉ (dict ++ [(key, plain)]).map Prod.fst := by
      intro e he hmem
      rw [List.map_append, List.mem_append] at hmem
      rcases hmem with hmem | hmem
      · exact hfresh.2 e he hmem
      · apply hnodup.1
        rw [← List.mem_singleton.mp hmem]
        exact List.mem_map_of_mem he
    rw [asTreeEntries, Spec.plainEntries, bind_ok_iff]
    simp only [Prod.exists, levelsEntries, nodesEntries, JsonEntries, keyText,
      plainBounded_ok_iff plain hdict.1 (Nat.succ_le_succ hdepth)]
    constructor
    · rintro ⟨_, _, ⟨rfl, rfl, hlevel, hone, hjson⟩, hrest⟩
      rw [hset] at hrest
      obtain ⟨rfl, rfl, hlevels, hn, hjsons⟩ :=
        (plainEntries_ok_iff plains hnodup.2 hfresh' hdict.2 hdepth hone).mp hrest
      exact ⟨List.append_cons _ _ _ ▸ rfl, by omega, by omega, hn, hjson, hjsons⟩
    · rintro ⟨rfl, rfl, hlevels, hn, hjson, hjsons⟩
      refine ⟨_, _, ⟨rfl, rfl, by omega, by omega, hjson⟩, ?_⟩
      rw [hset]
      exact (plainEntries_ok_iff plains hnodup.2 hfresh' hdict.2 hdepth (by omega)).mpr
        ⟨by rw [List.append_assoc]; rfl, by omega, by omega, by omega, hjsons⟩

end

end Tree

/-! ## Graphs that unfold -/

section Graph

variable {g : ValueGraph ι F} {i j : ι}
variable {tree : Plain F}

theorem contains_sequence {items : List ι} (h : g.cell i = .sequence items) :
    Contains g i j ↔ j ∈ items := by
  unfold Contains
  rw [h]
  constructor
  · rintro (⟨_, ⟨⟩, hj⟩ | ⟨_, ⟨⟩, -⟩)
    exact hj
  · intro hj
    exact .inl ⟨items, rfl, hj⟩

theorem contains_mapping {entries : List (Text × ι)} (h : g.cell i = .mapping entries) :
    Contains g i j ↔ ∃ key, (key, j) ∈ entries := by
  unfold Contains
  rw [h]
  constructor
  · rintro (⟨_, ⟨⟩, -⟩ | ⟨_, ⟨⟩, hj⟩)
    exact hj
  · intro hj
    exact .inr ⟨entries, rfl, hj⟩

theorem not_contains_scalar {value : Scalar F} (h : g.cell i = .scalar value) :
    ¬ Contains g i j := by
  unfold Contains
  rw [h]
  rintro (⟨_, ⟨⟩, -⟩ | ⟨_, ⟨⟩, -⟩)

theorem keys_of_unfold : ∀ {plains : Object F} {entries : List (Text × ι)},
    EntriesUnfoldTo g plains entries → plains.map Prod.fst = entries.map Prod.fst
  | [], entries, h => by
    rw [EntriesUnfoldTo] at h
    rw [h]
    rfl
  | (key, plain) :: plains, entries, h => by
    rw [EntriesUnfoldTo] at h
    obtain ⟨j, rest, rfl, -, hrest⟩ := h
    rw [List.map_cons, List.map_cons, keys_of_unfold hrest]

mutual

theorem dict_of_unfold : ∀ (tree : Plain F) {i : ι}, UnfoldsTo g tree i → Dict tree
  | .scalar _, _, _ => trivial
  | .array plains, _, h => by
    rw [UnfoldsTo] at h
    obtain ⟨items, -, hitems⟩ := h
    exact dictItems_of_unfold plains hitems
  | .object plains, i, h => by
    rw [UnfoldsTo] at h
    obtain ⟨entries, hcell, hentries⟩ := h
    refine ⟨?_, dictEntries_of_unfold plains hentries⟩
    rw [keys_of_unfold hentries]
    exact g.keys i entries hcell

theorem dictItems_of_unfold : ∀ (plains : List (Plain F)) {items : List ι},
    ItemsUnfoldTo g plains items → DictItems plains
  | [], _, _ => trivial
  | plain :: plains, _, h => by
    rw [ItemsUnfoldTo] at h
    obtain ⟨i, rest, -, hplain, hrest⟩ := h
    exact ⟨dict_of_unfold plain hplain, dictItems_of_unfold plains hrest⟩

theorem dictEntries_of_unfold : ∀ (plains : Object F) {entries : List (Text × ι)},
    EntriesUnfoldTo g plains entries → DictEntries plains
  | [], _, _ => trivial
  | (_, plain) :: plains, _, h => by
    rw [EntriesUnfoldTo] at h
    obtain ⟨i, rest, -, hplain, hrest⟩ := h
    exact ⟨dict_of_unfold plain hplain, dictEntries_of_unfold plains hrest⟩

end

mutual

theorem unfold_unique : ∀ (tree tree' : Plain F) {i : ι}, UnfoldsTo g tree i → UnfoldsTo g tree' i →
    tree = tree'
  | .scalar value, tree', i, h, h' => by
    rw [UnfoldsTo] at h
    cases tree' with
    | scalar value' =>
      rw [UnfoldsTo, h, Cell.scalar.injEq] at h'
      rw [h']
    | array plains' =>
      rw [UnfoldsTo, h] at h'
      obtain ⟨_, ⟨⟩, -⟩ := h'
    | object plains' =>
      rw [UnfoldsTo, h] at h'
      obtain ⟨_, ⟨⟩, -⟩ := h'
  | .array plains, tree', i, h, h' => by
    rw [UnfoldsTo] at h
    obtain ⟨items, hcell, hitems⟩ := h
    cases tree' with
    | scalar value' =>
      rw [UnfoldsTo, hcell] at h'
      cases h'
    | array plains' =>
      rw [UnfoldsTo, hcell] at h'
      obtain ⟨_, ⟨⟩, hitems'⟩ := h'
      rw [itemsUnfold_unique plains plains' hitems hitems']
    | object plains' =>
      rw [UnfoldsTo, hcell] at h'
      obtain ⟨_, ⟨⟩, -⟩ := h'
  | .object plains, tree', i, h, h' => by
    rw [UnfoldsTo] at h
    obtain ⟨entries, hcell, hentries⟩ := h
    cases tree' with
    | scalar value' =>
      rw [UnfoldsTo, hcell] at h'
      cases h'
    | array plains' =>
      rw [UnfoldsTo, hcell] at h'
      obtain ⟨_, ⟨⟩, -⟩ := h'
    | object plains' =>
      rw [UnfoldsTo, hcell] at h'
      obtain ⟨_, ⟨⟩, hentries'⟩ := h'
      rw [entriesUnfold_unique plains plains' hentries hentries']

theorem itemsUnfold_unique : ∀ (plains plains' : List (Plain F)) {items : List ι},
    ItemsUnfoldTo g plains items → ItemsUnfoldTo g plains' items → plains = plains'
  | [], plains', items, h, h' => by
    rw [ItemsUnfoldTo] at h
    subst h
    cases plains' with
    | nil => rfl
    | cons plain' plains' =>
      rw [ItemsUnfoldTo] at h'
      obtain ⟨_, _, ⟨⟩, -⟩ := h'
  | plain :: plains, plains', items, h, h' => by
    rw [ItemsUnfoldTo] at h
    obtain ⟨i, rest, rfl, hplain, hrest⟩ := h
    cases plains' with
    | nil =>
      rw [ItemsUnfoldTo] at h'
      cases h'
    | cons plain' plains' =>
      rw [ItemsUnfoldTo] at h'
      obtain ⟨_, _, ⟨⟩, hplain', hrest'⟩ := h'
      rw [unfold_unique plain plain' hplain hplain', itemsUnfold_unique plains plains' hrest hrest']

theorem entriesUnfold_unique : ∀ (plains plains' : Object F) {entries : List (Text × ι)},
    EntriesUnfoldTo g plains entries → EntriesUnfoldTo g plains' entries → plains = plains'
  | [], plains', entries, h, h' => by
    rw [EntriesUnfoldTo] at h
    subst h
    cases plains' with
    | nil => rfl
    | cons plain' plains' =>
      rw [EntriesUnfoldTo] at h'
      obtain ⟨_, _, ⟨⟩, -⟩ := h'
  | (key, plain) :: plains, plains', entries, h, h' => by
    rw [EntriesUnfoldTo] at h
    obtain ⟨i, rest, rfl, hplain, hrest⟩ := h
    cases plains' with
    | nil =>
      rw [EntriesUnfoldTo] at h'
      cases h'
    | cons plain' plains' =>
      rw [EntriesUnfoldTo] at h'
      obtain ⟨_, _, ⟨⟩, hplain', hrest'⟩ := h'
      rw [unfold_unique plain plain'.2 hplain hplain',
        entriesUnfold_unique plains plains' hrest hrest']

end

theorem unfold_item : ∀ {plains : List (Plain F)} {items : List ι}, ItemsUnfoldTo g plains items →
    j ∈ items → ∃ tree, UnfoldsTo g tree j ∧ nodes tree ≤ nodesItems plains
  | [], items, h, hj => by
    rw [ItemsUnfoldTo] at h
    rw [h] at hj
    cases hj
  | plain :: plains, items, h, hj => by
    rw [ItemsUnfoldTo] at h
    obtain ⟨i, rest, rfl, hplain, hrest⟩ := h
    rw [nodesItems]
    rcases List.mem_cons.mp hj with rfl | hj
    · exact ⟨plain, hplain, by omega⟩
    · obtain ⟨tree, htree, hle⟩ := unfold_item hrest hj
      exact ⟨tree, htree, by omega⟩

theorem unfold_entry {key : Text} : ∀ {plains : Object F} {entries : List (Text × ι)},
    EntriesUnfoldTo g plains entries → (key, j) ∈ entries →
    ∃ tree, UnfoldsTo g tree j ∧ nodes tree ≤ nodesEntries plains
  | [], entries, h, hj => by
    rw [EntriesUnfoldTo] at h
    rw [h] at hj
    cases hj
  | (_, plain) :: plains, entries, h, hj => by
    rw [EntriesUnfoldTo] at h
    obtain ⟨i, rest, rfl, hplain, hrest⟩ := h
    rw [nodesEntries]
    rcases List.mem_cons.mp hj with heq | hj
    · rw [Prod.mk.injEq] at heq
      exact ⟨plain, heq.2 ▸ hplain, by omega⟩
    · obtain ⟨tree, htree, hle⟩ := unfold_entry hrest hj
      exact ⟨tree, htree, by omega⟩

theorem unfold_contained (h : UnfoldsTo g tree i) (hij : Contains g i j) :
    ∃ tree', UnfoldsTo g tree' j ∧ nodes tree' < nodes tree := by
  cases tree with
  | scalar value =>
    rw [UnfoldsTo] at h
    exact (not_contains_scalar h hij).elim
  | array plains =>
    rw [UnfoldsTo] at h
    obtain ⟨items, hcell, hitems⟩ := h
    obtain ⟨tree', htree', hle⟩ := unfold_item hitems ((contains_sequence hcell).mp hij)
    exact ⟨tree', htree', Nat.lt_succ_of_le hle⟩
  | object plains =>
    rw [UnfoldsTo] at h
    obtain ⟨entries, hcell, hentries⟩ := h
    obtain ⟨key, hj⟩ := (contains_mapping hcell).mp hij
    obtain ⟨tree', htree', hle⟩ := unfold_entry hentries hj
    exact ⟨tree', htree', Nat.lt_succ_of_le hle⟩

theorem unfold_below (h : UnfoldsTo g tree i) (hij : TransGen (Contains g) i j) :
    ∃ tree', UnfoldsTo g tree' j ∧ nodes tree' < nodes tree := by
  induction hij with
  | single hedge => exact unfold_contained h hedge
  | tail _ hedge ih =>
    obtain ⟨tree', htree', hlt⟩ := ih
    obtain ⟨tree'', htree'', hlt'⟩ := unfold_contained htree' hedge
    exact ⟨tree'', htree'', hlt'.trans hlt⟩

theorem acyclicFrom_of_unfold (h : UnfoldsTo g tree i) : AcyclicFrom (Contains g) i := by
  intro j hij hcycle
  have hj : ∃ tree', UnfoldsTo g tree' j := by
    rcases reflTransGen_iff_eq_or_transGen.mp hij with rfl | hij
    · exact ⟨tree, h⟩
    · obtain ⟨tree', htree', -⟩ := unfold_below h hij
      exact ⟨tree', htree'⟩
  obtain ⟨tree', htree'⟩ := hj
  obtain ⟨tree'', htree'', hlt⟩ := unfold_below htree' hcycle
  rw [unfold_unique tree'' tree' htree'' htree'] at hlt
  exact Nat.lt_irrefl _ hlt

theorem exists_itemsUnfold : ∀ {items : List ι}, (∀ j ∈ items, ∃ tree, UnfoldsTo g tree j) →
    ∃ plains, ItemsUnfoldTo g plains items
  | [], _ => ⟨[], by rw [ItemsUnfoldTo]⟩
  | i :: items, h => by
    rw [List.forall_mem_cons] at h
    obtain ⟨tree, htree⟩ := h.1
    obtain ⟨plains, hplains⟩ := exists_itemsUnfold h.2
    refine ⟨tree :: plains, ?_⟩
    rw [ItemsUnfoldTo]
    exact ⟨i, items, rfl, htree, hplains⟩

theorem exists_entriesUnfold : ∀ {entries : List (Text × ι)},
    (∀ e ∈ entries, ∃ tree, UnfoldsTo g tree e.2) → ∃ plains, EntriesUnfoldTo g plains entries
  | [], _ => ⟨[], by rw [EntriesUnfoldTo]⟩
  | (key, i) :: entries, h => by
    rw [List.forall_mem_cons] at h
    obtain ⟨tree, htree⟩ := h.1
    obtain ⟨plains, hplains⟩ := exists_entriesUnfold h.2
    refine ⟨(key, tree) :: plains, ?_⟩
    rw [EntriesUnfoldTo]
    exact ⟨i, entries, rfl, htree, hplains⟩

theorem exists_unfold (h : ∀ j, Contains g i j → ∃ tree, UnfoldsTo g tree j) :
    ∃ tree, UnfoldsTo g tree i := by
  cases hcell : g.cell i with
  | scalar value =>
    refine ⟨.scalar value, ?_⟩
    rw [UnfoldsTo, hcell]
  | sequence items =>
    obtain ⟨plains, hplains⟩ :=
      exists_itemsUnfold fun j hj => h j ((contains_sequence hcell).mpr hj)
    refine ⟨.array plains, ?_⟩
    rw [UnfoldsTo]
    exact ⟨items, hcell, hplains⟩
  | mapping entries =>
    obtain ⟨plains, hplains⟩ :=
      exists_entriesUnfold fun e he => h e.2 ((contains_mapping hcell).mpr ⟨e.1, he⟩)
    refine ⟨.object plains, ?_⟩
    rw [UnfoldsTo]
    exact ⟨entries, hcell, hplains⟩

theorem exists_unfold_iff [Finite ι] :
    (∃ tree, UnfoldsTo g tree i) ↔ AcyclicFrom (Contains g) i := by
  constructor
  · rintro ⟨tree, htree⟩
    exact acyclicFrom_of_unfold htree
  · exact AcyclicFrom.induction fun i _ hbelow => exists_unfold hbelow

end Graph

/-! ## The pass over a graph -/

section Graph

variable [DecidableEq ι] {g : ValueGraph ι F} {i j : ι} (repr : F → Text)
variable {ancestors : Finset ι} {tree : Plain F} {depth : Nat} {shared : Expansion ι}
  {r : Plain F × Expansion ι}

/-- What the pass over a tree hands on, with the ancestors left as they are. -/
def share {α : Type} (ancestors : Finset ι) (r : α × Nat) : α × Expansion ι :=
  (r.1, ⟨ancestors, r.2⟩)

/-- No container that is being expanded lies below the object. -/
def Apart (g : ValueGraph ι F) (ancestors : Finset ι) (i : ι) : Prop :=
  ∀ a ∈ ancestors, ¬ ReflTransGen (Contains g) i a

theorem Apart.contained (h : Apart g ancestors i)
    (hacyclic : AcyclicFrom (Contains g) i) (hij : Contains g i j) :
    Apart g (insert i ancestors) j := by
  intro a ha hja
  rcases Finset.mem_insert.mp ha with rfl | ha
  · exact hacyclic a .refl (.head' hij hja)
  · exact h a ha (.head hij hja)

theorem erase_shared {α : Type} (hi : i ∉ ancestors) {β : Type} (f : α → β)
    (r : α × Nat) : (f (share (insert i ancestors) r).1,
      { (share (insert i ancestors) r).2 with
        ancestors := (share (insert i ancestors) r).2.ancestors.erase i }) =
      share ancestors (f r.1, r.2) := by
  unfold share
  dsimp only
  rw [Finset.erase_insert hi]

mutual

theorem plainBounded_of_unfold : ∀ (tree : Plain F) {path : List PathPart} {depth count : Nat}
    {ancestors : Finset ι} {i : ι}, UnfoldsTo g tree i → Apart g ancestors i →
    g.plainBounded path depth ⟨ancestors, count⟩ i =
      (Spec.plainBounded repr path depth count (asTree tree)).map (share ancestors)
  | .scalar value, path, depth, count, ancestors, i, h, _ => by
    rw [UnfoldsTo] at h
    rw [ValueGraph.plainBounded, h, asTree, Spec.plainBounded]
    dsimp only
    cases countNode path count with
    | error err => rfl
    | ok n =>
      show (plainScalar value >>= _) = Except.map (share ancestors) (plainScalar value >>= _)
      cases plainScalar value <;> rfl
  | .array plains, path, depth, count, ancestors, i, h, hapart => by
    have hacyclic := acyclicFrom_of_unfold h
    rw [UnfoldsTo] at h
    obtain ⟨items, hcell, hitems⟩ := h
    have hi : i ∉ ancestors := fun hmem => hapart i hmem .refl
    rw [ValueGraph.plainBounded, hcell, asTree, Spec.plainBounded]
    unfold countContainer
    dsimp only
    rw [if_neg hi]
    split
    · rfl
    cases countNode path count with
    | error err => rfl
    | ok n =>
      have hpass : g.plainItems path depth 0 ⟨insert i ancestors, n⟩ items =
          (Spec.plainItems repr path depth n 0 (asTreeItems plains)).map
            (share (insert i ancestors)) :=
        plainItems_of_unfold plains hitems
          fun j hj => hapart.contained hacyclic ((contains_sequence hcell).mpr hj)
      show (g.plainItems path depth 0 ⟨insert i ancestors, n⟩ items >>= _) = _
      rw [hpass, Fallible.bind_map]
      show _ = Except.map (share ancestors) (Spec.plainItems repr path depth n 0 _ >>= _)
      cases Spec.plainItems repr path depth n 0 (asTreeItems plains) with
      | error err => rfl
      | ok r => exact congrArg Except.ok (erase_shared hi Plain.array r)
  | .object plains, path, depth, count, ancestors, i, h, hapart => by
    have hacyclic := acyclicFrom_of_unfold h
    rw [UnfoldsTo] at h
    obtain ⟨entries, hcell, hentries⟩ := h
    have hi : i ∉ ancestors := fun hmem => hapart i hmem .refl
    rw [ValueGraph.plainBounded, hcell, asTree, Spec.plainBounded]
    unfold countContainer
    dsimp only
    rw [if_neg hi]
    split
    · rfl
    cases countNode path count with
    | error err => rfl
    | ok n =>
      have hpass : g.plainEntries path depth [] ⟨insert i ancestors, n⟩ entries =
          (Spec.plainEntries repr path depth n [] (asTreeEntries plains)).map
            (share (insert i ancestors)) :=
        plainEntries_of_unfold plains hentries
          fun e he => hapart.contained hacyclic ((contains_mapping hcell).mpr ⟨e.1, he⟩)
      show (g.plainEntries path depth [] ⟨insert i ancestors, n⟩ entries >>= _) = _
      rw [hpass, Fallible.bind_map]
      show _ = Except.map (share ancestors) (Spec.plainEntries repr path depth n [] _ >>= _)
      cases Spec.plainEntries repr path depth n [] (asTreeEntries plains) with
      | error err => rfl
      | ok r => exact congrArg Except.ok (erase_shared hi Plain.object r)

theorem plainItems_of_unfold : ∀ (plains : List (Plain F)) {path : List PathPart}
    {depth count index : Nat} {ancestors : Finset ι} {items : List ι}, ItemsUnfoldTo g plains items →
    (∀ j ∈ items, Apart g ancestors j) →
    g.plainItems path depth index ⟨ancestors, count⟩ items =
      (Spec.plainItems repr path depth count index (asTreeItems plains)).map (share ancestors)
  | [], path, depth, count, index, ancestors, items, h, _ => by
    rw [ItemsUnfoldTo] at h
    rw [h, ValueGraph.plainItems, asTreeItems, Spec.plainItems]
    rfl
  | plain :: plains, path, depth, count, index, ancestors, items, h, hapart => by
    rw [ItemsUnfoldTo] at h
    obtain ⟨i, rest, rfl, hplain, hrest⟩ := h
    rw [List.forall_mem_cons] at hapart
    rw [ValueGraph.plainItems, asTreeItems, Spec.plainItems,
      plainBounded_of_unfold plain hplain hapart.1]
    cases Spec.plainBounded repr (path ++ [.index index]) (depth + 1) count (asTree plain) with
    | error err => rfl
    | ok r =>
      have hpass : g.plainItems path depth (index + 1) ⟨ancestors, r.2⟩ rest =
          (Spec.plainItems repr path depth r.2 (index + 1) (asTreeItems plains)).map
            (share ancestors) :=
        plainItems_of_unfold plains hrest hapart.2
      show (g.plainItems path depth (index + 1) ⟨ancestors, r.2⟩ rest >>= _) = _
      rw [hpass, Fallible.bind_map]
      show _ = Except.map (share ancestors) (Spec.plainItems repr path depth r.2 (index + 1) _ >>= _)
      cases Spec.plainItems repr path depth r.2 (index + 1) (asTreeItems plains) <;> rfl

theorem plainEntries_of_unfold : ∀ (plains : Object F) {path : List PathPart} {depth count : Nat}
    {dict : Object F} {ancestors : Finset ι} {entries : List (Text × ι)},
    EntriesUnfoldTo g plains entries → (∀ e ∈ entries, Apart g ancestors e.2) →
    g.plainEntries path depth dict ⟨ancestors, count⟩ entries =
      (Spec.plainEntries repr path depth count dict (asTreeEntries plains)).map (share ancestors)
  | [], path, depth, count, dict, ancestors, entries, h, _ => by
    rw [EntriesUnfoldTo] at h
    rw [h, ValueGraph.plainEntries, asTreeEntries, Spec.plainEntries]
    rfl
  | (key, plain) :: plains, path, depth, count, dict, ancestors, entries, h, hapart => by
    rw [EntriesUnfoldTo] at h
    obtain ⟨i, rest, rfl, hplain, hrest⟩ := h
    rw [List.forall_mem_cons] at hapart
    rw [ValueGraph.plainEntries, asTreeEntries, Spec.plainEntries,
      plainBounded_of_unfold plain hplain hapart.1, keyText]
    cases Spec.plainBounded repr (path ++ [.key key]) (depth + 1) count (asTree plain) with
    | error err => rfl
    | ok r => exact plainEntries_of_unfold plains hrest hapart.2

end

theorem plain_of_unfold (h : UnfoldsTo g tree i) : g.plain i = Spec.plain repr (asTree tree) := by
  unfold ValueGraph.plain Spec.plain
  rw [plainBounded_of_unfold repr tree h fun a ha => (Finset.notMem_empty a ha).elim]
  cases Spec.plainBounded repr [] 0 0 (asTree tree) <;> rfl

theorem plain_asTree_iff {result : Plain F} (hdict : Dict tree) :
    Spec.plain repr (asTree tree) = .ok result ↔
      result = tree ∧ containerDepth tree ≤ maxYamlDepth ∧ nodes tree ≤ maxYamlNodes ∧
        JsonScalars tree := by
  have hbounded : ∀ n, Spec.plainBounded repr [] 0 0 (asTree tree) = .ok (result, n) ↔
      result = tree ∧ n = 0 + nodes tree ∧ levels tree + 0 ≤ maxYamlDepth + 1 ∧
        n ≤ maxYamlNodes ∧ JsonScalars tree := fun n =>
    plainBounded_ok_iff repr tree hdict (Nat.zero_le _)
  unfold Spec.plain containerDepth
  constructor
  · intro h
    obtain ⟨⟨_, n⟩, hrun, rfl⟩ := map_ok h
    obtain ⟨hresult, rfl, hlevels, hnodes, hjson⟩ := (hbounded n).mp hrun
    exact ⟨hresult, by omega, by omega, hjson⟩
  · rintro ⟨hresult, hlevels, hnodes, hjson⟩
    rw [(hbounded (nodes tree)).mpr ⟨hresult, by omega, by omega, hnodes, hjson⟩]
    rfl

/-! ## Graphs the pass goes through -/

theorem plainItems_contained {items : List ι} {index : Nat} {r : List (Plain F) × Expansion ι}
    (h : g.plainItems path depth index shared items = .ok r) :
    ∀ j ∈ items, ∃ path' shared' r', g.plainBounded path' (depth + 1) shared' j = .ok r' := by
  induction items generalizing index shared r with
  | nil => exact List.forall_mem_nil _
  | cons i items ih =>
    rw [ValueGraph.plainItems] at h
    obtain ⟨one, hone, h⟩ := bind_ok h
    obtain ⟨rest, hrest, -⟩ := bind_ok h
    rw [List.forall_mem_cons]
    exact ⟨⟨_, _, _, hone⟩, ih hrest⟩

theorem plainEntries_contained {entries : List (Text × ι)}
    {dict : Object F} {r : Object F × Expansion ι}
    (h : g.plainEntries path depth dict shared entries = .ok r) :
    ∀ e ∈ entries, ∃ path' shared' r', g.plainBounded path' (depth + 1) shared' e.2 = .ok r' := by
  induction entries generalizing dict shared r with
  | nil => exact List.forall_mem_nil _
  | cons e entries ih =>
    obtain ⟨key, i⟩ := e
    rw [ValueGraph.plainEntries] at h
    obtain ⟨one, hone, hrest⟩ := bind_ok h
    rw [List.forall_mem_cons]
    exact ⟨⟨_, _, _, hone⟩, ih hrest⟩

theorem plainBounded_contained (h : g.plainBounded path depth shared i = .ok r)
    (hij : Contains g i j) :
    depth ≤ maxYamlDepth ∧
      ∃ path' shared' r', g.plainBounded path' (depth + 1) shared' j = .ok r' := by
  rw [ValueGraph.plainBounded] at h
  cases hcell : g.cell i with
  | scalar value => exact (not_contains_scalar hcell hij).elim
  | sequence items =>
    rw [hcell] at h
    obtain ⟨-, h⟩ := guard_ok h
    split at h
    · cases h
    rename_i hdepth
    obtain ⟨count, -, h⟩ := bind_ok h
    obtain ⟨rest, hrest, -⟩ := bind_ok h
    exact ⟨not_lt.mp hdepth, plainItems_contained hrest j ((contains_sequence hcell).mp hij)⟩
  | mapping entries =>
    rw [hcell] at h
    obtain ⟨-, h⟩ := guard_ok h
    split at h
    · cases h
    rename_i hdepth
    obtain ⟨count, -, h⟩ := bind_ok h
    obtain ⟨rest, hrest, -⟩ := bind_ok h
    obtain ⟨key, hj⟩ := (contains_mapping hcell).mp hij
    exact ⟨not_lt.mp hdepth, plainEntries_contained hrest (key, j) hj⟩

theorem exists_unfold_of_ok (h : g.plainBounded path depth shared i = .ok r) :
    ∃ tree, UnfoldsTo g tree i := by
  induction hleft : maxYamlDepth + 1 - depth using Nat.strong_induction_on
    generalizing path depth shared i r with
  | h left ih =>
    apply exists_unfold
    intro j hij
    obtain ⟨hdepth, _, _, _, hj⟩ := plainBounded_contained h hij
    exact ih (maxYamlDepth + 1 - (depth + 1)) (by omega) hj rfl

/-- The expansion of aliases ends on every graph.  It goes through exactly if the graph has no cycle
and its unfolding keeps to the bounds, and what comes out is the unfolding. -/
theorem aliases_expanded [Fintype ι] (g : ValueGraph ι F) (root : ι) :
    (∀ result, g.plain root = .ok result ↔
        AcyclicFrom (Contains g) root ∧ UnfoldsTo g result root ∧
          containerDepth result ≤ maxYamlDepth ∧ nodes result ≤ maxYamlNodes ∧
          JsonScalars result) ∧
      (AcyclicFrom (Contains g) root → ∃! tree, UnfoldsTo g tree root) ∧
      ((∃ error, g.plain root = .error error) ↔
        ¬ (AcyclicFrom (Contains g) root ∧ ∃ tree, UnfoldsTo g tree root ∧
          containerDepth tree ≤ maxYamlDepth ∧ nodes tree ≤ maxYamlNodes ∧ JsonScalars tree)) := by
  have hok : ∀ result, g.plain root = .ok result ↔
      AcyclicFrom (Contains g) root ∧ UnfoldsTo g result root ∧
        containerDepth result ≤ maxYamlDepth ∧ nodes result ≤ maxYamlNodes ∧
        JsonScalars result := by
    intro result
    constructor
    · intro h
      obtain ⟨r, hrun, -⟩ := map_ok h
      obtain ⟨tree, htree⟩ := exists_unfold_of_ok hrun
      rw [plain_of_unfold (fun _ ↦ []) htree, plain_asTree_iff _ (dict_of_unfold tree htree)] at h
      obtain ⟨rfl, hbounds⟩ := h
      exact ⟨acyclicFrom_of_unfold htree, htree, hbounds⟩
    · rintro ⟨-, htree, hbounds⟩
      rw [plain_of_unfold (fun _ ↦ []) htree, plain_asTree_iff _ (dict_of_unfold result htree)]
      exact ⟨rfl, hbounds⟩
  refine ⟨hok, ?_, ?_⟩
  · intro hacyclic
    obtain ⟨tree, htree⟩ := exists_unfold_iff.mpr hacyclic
    exact ⟨tree, htree, fun tree' htree' => unfold_unique tree' tree htree' htree⟩
  · constructor
    · rintro ⟨error, herror⟩ ⟨hacyclic, tree, hbounds⟩
      rw [(hok tree).mpr ⟨hacyclic, hbounds⟩] at herror
      cases herror
    · intro hnot
      cases hrun : g.plain root with
      | error error => exact ⟨error, rfl⟩
      | ok result =>
        obtain ⟨hacyclic, hbounds⟩ := (hok result).mp hrun
        exact (hnot ⟨hacyclic, result, hbounds⟩).elim

end Graph

end NixNas.Spec
