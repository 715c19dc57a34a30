import NixNas.Editor.Status
import NixNas.Lib.Sharing

/-!
# The YAML document as an object graph

Both loaders give an anchored node one object, however many aliases it has.  The parser takes the
objects apart by value.  A key stands as its text.
-/

open Fallible

namespace NixNas.Editor

open Sharing (Value Graph Shape Step get entries walk step shape view)
open Spec

variable {F : Type}
variable {depth : ℕ} {trees : List (Key F × Spec.Tree F)} {plains : Object F} {d : Plain F}

abbrev YamlValue (F : Type) := Value ℕ (Scalar F)

abbrev YamlGraph (F : Type) := Graph ℕ Text (Scalar F)

def cycleError : SpecError := ⟨"YAML alias cycle detected".toList, ['$'], "yaml-cycle".toList⟩

/-- The tree that a value stands for, down to a depth. -/
def unfoldValue (g : YamlGraph F) : ℕ → YamlValue F → Except SpecError (Spec.Tree F)
  | _, .scalar value => .ok (.scalar value)
  | 0, .ref _ => .error cycleError
  | depth + 1, .ref a =>
    match g.node a with
    | .sequence items => (items.mapM (unfoldValue g depth)).map .sequence
    | .mapping _ _ =>
      ((entries g a).mapM fun e ↦
        (unfoldValue g depth e.2).map (Key.string e.1, ·)).map .mapping

/-- A cycle goes deeper than any bound; `_plain_bounded` refuses it, and what is nested deeper than
`maxYamlDepth`. -/
def unfoldDocument (g : YamlGraph F) : Except SpecError (Spec.Tree F) :=
  unfoldValue g (maxYamlDepth + 1) g.root

/-- The YAML library: `compose` is what the loaders make of a text, `dump` writes an object. -/
structure Yaml (F : Type) where
  compose : Text → Except SpecError (YamlGraph F)
  dump : YamlGraph F → Text

def Yaml.load (y : Yaml F) (text : Text) : Except SpecError (Spec.Tree F) :=
  y.compose text >>= unfoldDocument

/-- A dumped document has the line ends of the platform and is loaded as it was. -/
structure Yaml.RoundTrips (y : Yaml F) : Prop where
  lines : ∀ g, '\r' ∉ y.dump g
  compose : ∀ g g', y.compose (y.dump g) = .ok g' → unfoldDocument g' = unfoldDocument g

def plainShape : Plain F → Shape (Scalar F)
  | .scalar value => .scalar value
  | .array items => .sequence items.length
  | .object _ => .mapping

def plainStep : Step Text → Plain F → Option (Plain F)
  | .key k, .object o => find k o
  | .index i, .array items => items[i]?
  | _, _ => none

def plainWalk : List (Step Text) → Plain F → Option (Plain F)
  | [], value => some value
  | s :: path, value => plainStep s value >>= plainWalk path

def plainView (path : List (Step Text)) (value : Plain F) : Option (Shape (Scalar F)) :=
  (plainWalk path value).map plainShape

variable {g : YamlGraph F} {repr : F → Text}
variable {es : List (Text × YamlValue F)} {v : YamlValue F} {vs : List (YamlValue F)}
  {R : YamlValue F → Plain F → Prop}

theorem textsDistinctItems_iff {items : List (Spec.Tree F)} :
    TextsDistinctItems repr items ↔ ∀ item ∈ items, TextsDistinct repr item := by
  induction items with
  | nil => simp [TextsDistinctItems]
  | cons item items ih => rw [TextsDistinctItems, ih, List.forall_mem_cons]

theorem textsDistinctEntries_iff {entries : List (Key F × Spec.Tree F)} :
    TextsDistinctEntries repr entries ↔ ∀ e ∈ entries, TextsDistinct repr e.2 := by
  induction entries with
  | nil => simp [TextsDistinctEntries]
  | cons e entries ih =>
    obtain ⟨key, item⟩ := e
    rw [TextsDistinctEntries, ih, List.forall_mem_cons]

theorem keys_of_unfolded (h : List.Forall₂ (fun e t ↦
      (unfoldValue g depth e.2).map (Key.string e.1, ·) = .ok t) es trees) :
    (trees.map fun e ↦ keyText repr e.1) = es.map Prod.fst := by
  induction h with
  | nil => rfl
  | cons hentry _ ih =>
    obtain ⟨tree, -, rfl⟩ := map_ok hentry
    rw [List.map_cons, List.map_cons, ih]
    rfl

theorem textsDistinct_unfoldValue {tree : Spec.Tree F}
    (h : unfoldValue g depth v = .ok tree) : TextsDistinct repr tree := by
  induction depth generalizing v tree with
  | zero =>
    cases v with
    | scalar =>
      cases h
      trivial
    | ref => cases h
  | succ depth ih =>
    cases v with
    | scalar =>
      cases h
      trivial
    | ref a =>
      unfold unfoldValue at h
      cases hnode : g.node a with
      | sequence items =>
        simp only [hnode] at h
        obtain ⟨trees, htrees, rfl⟩ := map_ok h
        rw [TextsDistinct, textsDistinctItems_iff]
        intro tree htree
        obtain ⟨v, -, hv⟩ := exists_left (mapM_ok htrees) htree
        exact ih hv
      | mapping own merged =>
        simp only [hnode] at h
        obtain ⟨trees, htrees, rfl⟩ := map_ok h
        have hentries := mapM_ok htrees
        rw [TextsDistinct, textsDistinctEntries_iff, keys_of_unfolded hentries]
        refine ⟨Sharing.nodup_keys_entries a, ?_⟩
        intro e he
        obtain ⟨e', -, he'⟩ := exists_left hentries he
        obtain ⟨tree, htree, rfl⟩ := map_ok he'
        exact ih htree

def Stands (repr : F → Text) (g : YamlGraph F) (v : YamlValue F) (d : Plain F) : Prop :=
  ∃ depth tree, unfoldValue g depth v = .ok tree ∧ Kept repr tree d

theorem stands_entries (h : List.Forall₂ (fun e t ↦
      (unfoldValue g depth e.2).map (Key.string e.1, ·) = .ok t) es trees)
    (hkept : KeptEntries repr trees plains) :
    List.Forall₂ (fun e q ↦ q.1 = e.1 ∧ Stands repr g e.2 q.2) es plains := by
  induction h generalizing plains with
  | nil =>
    cases plains with
    | nil => exact .nil
    | cons => exact hkept.elim
  | cons hentry _ ih =>
    obtain ⟨tree, htree, rfl⟩ := map_ok hentry
    cases plains with
    | nil => exact hkept.elim
    | cons q plains =>
      obtain ⟨htext, hitem, hrest⟩ := hkept
      exact .cons ⟨htext, depth, tree, htree, hitem⟩ (ih hrest)

theorem stands_items {trees : List (Spec.Tree F)}
    (h : List.Forall₂ (fun v t ↦ unfoldValue g depth v = .ok t) vs trees) {plains : List (Plain F)}
    (hkept : KeptItems repr trees plains) : List.Forall₂ (Stands repr g) vs plains := by
  induction h generalizing plains with
  | nil =>
    cases plains with
    | nil => exact .nil
    | cons => exact hkept.elim
  | cons hitem _ ih =>
    cases plains with
    | nil => exact hkept.elim
    | cons plain plains => exact .cons ⟨depth, _, hitem, hkept.1⟩ (ih hkept.2)

theorem lookup_of_forall₂
    (h : List.Forall₂ (fun e q ↦ q.1 = e.1 ∧ R e.2 q.2) es plains) (k : Text) :
    Option.Rel R (@List.lookup _ _ instBEqOfDecidableEq k es) (find k plains) := by
  induction h with
  | nil => exact .none
  | cons hentry _ ih =>
    rw [Sharing.lookup_cons_if, find_cons, hentry.1]
    split
    · exact .some hentry.2
    · exact ih

theorem getElem?_of_forall₂ {plains : List (Plain F)} (h : List.Forall₂ R vs plains) (i : ℕ) :
    Option.Rel R vs[i]? plains[i]? := by
  induction h generalizing i with
  | nil => exact .none
  | cons hitem _ ih =>
    cases i with
    | zero => exact .some hitem
    | succ i => exact ih i

theorem Stands.step (h : Stands repr g v d) (s : Step Text) :
    Option.Rel (Stands repr g) (Sharing.step g s v) (plainStep s d) ∧
      plainShape d = shape g v := by
  obtain ⟨depth, tree, hunfold, hkept⟩ := h
  cases v with
  | scalar value =>
    have htree : tree = .scalar value := by
      cases depth <;> cases hunfold <;> rfl
    subst htree
    cases d with
    | scalar value' =>
      cases (show value' = value from hkept)
      exact ⟨by cases s <;> exact .none, rfl⟩
    | array => exact hkept.elim
    | object => exact hkept.elim
  | ref a =>
    cases depth with
    | zero => cases hunfold
    | succ depth =>
      unfold unfoldValue at hunfold
      cases hnode : g.node a with
      | sequence items =>
        simp only [hnode] at hunfold
        obtain ⟨trees, htrees, rfl⟩ := map_ok hunfold
        cases d with
        | scalar => exact hkept.elim
        | object => exact hkept.elim
        | array plains =>
          have hitems := stands_items (mapM_ok htrees) hkept
          constructor
          · cases s with
            | key k =>
              have hnone : get g a k = none := Sharing.get_sequence hnode
              show Option.Rel _ (get g a k) none
              rw [hnone]
              exact .none
            | index i =>
              have hread : Sharing.items g a = items := by
                unfold Sharing.items
                rw [hnode]
              show Option.Rel _ (Sharing.items g a)[i]? plains[i]?
              rw [hread]
              exact getElem?_of_forall₂ hitems i
          · show Shape.sequence plains.length = (g.node a).shape
            rw [hnode, ← hitems.length_eq]
            rfl
      | mapping own merged =>
        simp only [hnode] at hunfold
        obtain ⟨trees, htrees, rfl⟩ := map_ok hunfold
        cases d with
        | scalar => exact hkept.elim
        | array => exact hkept.elim
        | object plains =>
          have hentries := stands_entries (mapM_ok htrees) hkept
          constructor
          · cases s with
            | key k =>
              show Option.Rel _ (get g a k) (find k plains)
              rw [← Sharing.lookup_entries]
              exact lookup_of_forall₂ hentries k
            | index i =>
              have hread : Sharing.items g a = [] := by
                unfold Sharing.items
                rw [hnode]
              show Option.Rel _ (Sharing.items g a)[i]? none
              rw [hread]
              exact .none
          · show Shape.mapping = (g.node a).shape
            rw [hnode]
            rfl

theorem Stands.walk (h : Stands repr g v d) (path : List (Step Text)) :
    Option.Rel (Stands repr g) (Sharing.walk g path v) (plainWalk path d) := by
  induction path generalizing v d with
  | nil => exact .some h
  | cons s path ih =>
    show Option.Rel _ (Sharing.step g s v >>= Sharing.walk g path) (plainStep s d >>= plainWalk path)
    have hstep := (h.step s).1
    generalize Sharing.step g s v = v' at hstep
    generalize plainStep s d = d' at hstep
    cases hstep with
    | none => exact .none
    | some hnext => exact ih hnext

theorem Stands.view (h : Stands repr g g.root d) (path : List (Step Text)) :
    plainView path d = Sharing.view g path := by
  unfold plainView Sharing.view
  have hwalk := h.walk path
  generalize Sharing.walk g path g.root = v at hwalk
  generalize plainWalk path d = d' at hwalk
  cases hwalk with
  | none => rfl
  | some hplace =>
    rw [Option.map_some, Option.map_some, (hplace.step (.index 0)).2]

theorem stands_of_parseLoaded {document : Object F}
    (h : unfoldDocument g >>= parseLoaded repr = .ok document) :
    Stands repr g g.root (.object document) := by
  obtain ⟨tree, htree, hparse⟩ := bind_ok h
  unfold parseLoaded at hparse
  split at hparse
  · cases hparse
  · obtain ⟨value, hvalue, hparse⟩ := bind_ok hparse
    cases value with
    | scalar => cases hparse
    | array => cases hparse
    | object entries =>
      cases hparse
      obtain ⟨⟨value, n⟩, hbounded, heq⟩ := map_ok hvalue
      cases heq
      exact ⟨_, tree, htree,
        (kept_iff_of_converts tree _ ⟨_, _, _, _, hbounded⟩).mpr (textsDistinct_unfoldValue htree)⟩

end NixNas.Editor
