import Mathlib.Data.Finset.Card
import Mathlib.Data.Fintype.Basic
import NixNas.Compose.Bundle
import NixNas.Lib.Digraph
import NixNas.Lib.Loop

/-!
# The structure of a Compose source (`_validate_source_structure`)

Aliases make a graph of the containers of a source.  The check walks through it with a stack, and
notes how high the expansion of each container is, so that none is walked through twice.
-/

open Fallible Relation

namespace NixNas.Compose.Structure

open Network

/-! ## The walk -/

/-- A value by the identity of its container; strings are the scalars that are looked at. -/
inductive Value (ι : Type) where
  | container (identity : ι)
  | string (text : Text)
  | scalar

/-- A dictionary, or what has items only: a list, a tuple or a set. -/
inductive Container (ι : Type) where
  | mapping (items : List (Value ι × Value ι))
  | sequence (items : List (Value ι))

variable {ι : Type}
variable {i : ι} {height : ℕ} {heights : ι → Option ℕ}

def Container.children : Container ι → List (Value ι)
  | .mapping items => items.flatMap fun item ↦ [item.1, item.2]
  | .sequence items => items

def Value.identity? : Value ι → Option ι
  | .container identity => some identity
  | _ => none

def maxCanonicalDepth : ℕ := 128

inductive StructureError where
  /-- `contains a recursive YAML alias` -/
  | recursive
  /-- `nests aliases or containers deeper than …` -/
  | tooDeep
  | rejected (text : Text)
  /-- The `KeyError` of a height that is not known. -/
  | missingHeight
  deriving DecidableEq, Repr

/-- A value to walk into, or a container that is left. -/
inductive Frame (ι : Type) where
  | enter (value : Value ι) (depth : ℕ)
  | leave (identity : ι) (depth : ℕ)

structure Walk (ι : Type) where
  heights : ι → Option ℕ
  active : Finset ι
  stack : List (Frame ι)

/-- `heights[identity]`. -/
def lookupHeight (heights : ι → Option ℕ) (identity : ι) : Except StructureError ℕ :=
  match heights identity with
  | some height => .ok height
  | none => .error .missingHeight

def heightOf (heights : ι → Option ℕ) (children : List (Value ι)) : Except StructureError ℕ := do
  let nested ← (children.filterMap Value.identity?).mapM (lookupHeight heights)
  .ok (nested.max?.elim 0 (1 + ·))

section

variable [DecidableEq ι] (heap : ι → Container ι) (reject : Text → Bool)

/-- One turn of the loop. -/
def step (walk : Walk ι) : Loop.Next (Walk ι) StructureError :=
  match walk.stack with
  | [] => .done
  | .leave identity _ :: rest =>
    match heightOf walk.heights (heap identity).children with
    | .error e => .failed e
    | .ok height =>
      .next ⟨Function.update walk.heights identity (some height), walk.active.erase identity, rest⟩
  | .enter (.string text) _ :: rest =>
    if reject text then .failed (.rejected text) else .next { walk with stack := rest }
  | .enter .scalar _ :: rest => .next { walk with stack := rest }
  | .enter (.container identity) depth :: rest =>
    if identity ∈ walk.active then .failed .recursive
    else
      match walk.heights identity with
      | some known =>
        if maxCanonicalDepth < depth + known then .failed .tooDeep
        else .next { walk with stack := rest }
      | none =>
        if maxCanonicalDepth < depth then .failed .tooDeep
        else
          .next ⟨walk.heights, insert identity walk.active,
            ((heap identity).children.map fun child ↦ Frame.enter child (depth + 1)).reverse ++
              .leave identity depth :: rest⟩

end

def startWalk (root : Value ι) : Walk ι := ⟨fun _ ↦ none, ∅, [.enter root 0]⟩

/-- `_validate_source_structure` with some fuel. -/
def validateSourceStructure [DecidableEq ι] (heap : ι → Container ι) (reject : Text → Bool)
    (root : Value ι) (fuel : ℕ) : Option (Except StructureError Unit) :=
  Loop.run (step heap reject) fuel (startWalk root)

/-! ## The expansion -/

section

variable (heap : ι → Container ι) (reject : Text → Bool)

def Contains (i j : ι) : Prop := .container j ∈ (heap i).children

/-- The value stands in the expansion of the root, that many levels below it. -/
inductive Expands (root : Value ι) : ℕ → Value ι → Prop where
  | root : Expands root 0 root
  | child {depth : ℕ} {i : ι} {value : Value ι} (h : Expands root depth (.container i))
    (hchild : value ∈ (heap i).children) : Expands root (depth + 1) value

/-- What the check is for. -/
structure Sound (root : Value ι) : Prop where
  acyclic : ∀ i, root = .container i → Digraph.AcyclicFrom (Contains heap) i
  bounded : ∀ depth i, Expands heap root depth (.container i) → depth ≤ maxCanonicalDepth
  strings : ∀ depth text, Expands heap root depth (.string text) → reject text = false

/-- The height of the container is known, and no string below it is rejected. -/
structure Measured (i : ι) (height : ℕ) : Prop where
  attained : ∃ j, Expands heap (.container i) height (.container j)
  highest : ∀ depth j, Expands heap (.container i) depth (.container j) → depth ≤ height
  strings : ∀ depth text, Expands heap (.container i) depth (.string text) → reject text = false

end

variable {heap : ι → Container ι} {reject : Text → Bool} {root value : Value ι} {depth : ℕ}

theorem Expands.trans (h : Expands heap root depth (.container i)) {depth' : ℕ}
    (hbelow : Expands heap (.container i) depth' value) :
    Expands heap root (depth + depth') value := by
  induction hbelow with
  | root => exact h
  | child _ hchild ih => exact .child ih hchild

theorem Expands.of_child {child : Value ι} (hchild : child ∈ (heap i).children)
    (h : Expands heap child depth value) : Expands heap (.container i) (depth + 1) value := by
  induction h with
  | root => exact .child .root hchild
  | child _ hmem ih => exact .child ih hmem

theorem Expands.exists_child (h : Expands heap (.container i) (depth + 1) value) :
    ∃ child ∈ (heap i).children, Expands heap child depth value := by
  induction depth generalizing value with
  | zero =>
    cases h with
    | child h hchild =>
      cases h
      exact ⟨value, hchild, .root⟩
  | succ depth ih =>
    cases h with
    | child h hchild =>
      obtain ⟨child, hmem, hbelow⟩ := ih h
      exact ⟨child, hmem, .child hbelow hchild⟩

theorem Expands.reaches (h : Expands heap root depth (.container i)) :
    ∃ r, root = .container r ∧ ReflTransGen (Contains heap) r i := by
  induction depth generalizing i with
  | zero =>
    cases h
    exact ⟨i, rfl, .refl⟩
  | succ depth ih =>
    cases h with
    | child h hchild =>
      obtain ⟨r, hr, hreach⟩ := ih h
      exact ⟨r, hr, hreach.tail hchild⟩

theorem expands_of_transGen {j : ι} (h : TransGen (Contains heap) i j) :
    ∃ depth, Expands heap (.container i) (depth + 1) (.container j) := by
  induction h with
  | single hedge => exact ⟨0, .child .root hedge⟩
  | tail _ hedge ih =>
    obtain ⟨depth, hexpands⟩ := ih
    exact ⟨depth + 1, .child hexpands hedge⟩

theorem Measured.acyclic (h : Measured heap reject i height) :
    Digraph.AcyclicFrom (Contains heap) i := by
  intro j hreach hcycle
  have hroot : ∃ depth, Expands heap (.container i) depth (.container j) := by
    rcases reflTransGen_iff_eq_or_transGen.mp hreach with rfl | htrans
    · exact ⟨0, .root⟩
    · obtain ⟨depth, hexpands⟩ := expands_of_transGen htrans
      exact ⟨depth + 1, hexpands⟩
  obtain ⟨turn, hturn⟩ := expands_of_transGen hcycle
  have hdeep : ∀ n, ∃ depth, n ≤ depth ∧ Expands heap (.container i) depth (.container j) := by
    intro n
    induction n with
    | zero =>
      obtain ⟨depth, hexpands⟩ := hroot
      exact ⟨depth, Nat.zero_le depth, hexpands⟩
    | succ n ih =>
      obtain ⟨depth, hle, hexpands⟩ := ih
      exact ⟨depth + (turn + 1), by omega, hexpands.trans hturn⟩
  obtain ⟨depth, hle, hexpands⟩ := hdeep (height + 1)
  have hbound := h.highest depth j hexpands
  omega

/-! ## Heights -/

def Done (reject : Text → Bool) (heights : ι → Option ℕ) (depth : ℕ) : Value ι → Prop
  | .container i => ∃ height, heights i = some height ∧ depth + height ≤ maxCanonicalDepth
  | .string text => reject text = false
  | .scalar => True

def Right (heap : ι → Container ι) (reject : Text → Bool) (heights : ι → Option ℕ) : Prop :=
  ∀ i height, heights i = some height → Measured heap reject i height

def Grows (heights heights' : ι → Option ℕ) : Prop :=
  ∀ i height, heights i = some height → heights' i = some height

theorem Done.grows {heights' : ι → Option ℕ} (h : Done reject heights depth value)
    (hgrows : Grows heights heights') : Done reject heights' depth value := by
  cases value with
  | container i =>
    obtain ⟨height, hheight, hle⟩ := h
    exact ⟨height, hgrows i height hheight, hle⟩
  | string text => exact h
  | scalar => trivial

variable {children : List (Value ι)}

theorem mem_filterMap_identity :
    i ∈ children.filterMap Value.identity? ↔ .container i ∈ children := by
  rw [List.mem_filterMap]
  constructor
  · rintro ⟨value, hmem, hvalue⟩
    cases value with
    | container j =>
      cases hvalue
      exact hmem
    | string text => cases hvalue
    | scalar => cases hvalue
  · exact fun hmem => ⟨.container i, hmem, rfl⟩

theorem lookupHeight_ok : lookupHeight heights i = .ok height ↔ heights i = some height := by
  unfold lookupHeight
  cases heights i with
  | none => exact iff_of_false nofun nofun
  | some known => rw [Except.ok.injEq, Option.some_inj]

theorem heightOf_ok (hdone : ∀ child ∈ children, Done reject heights depth child) :
    ∃ nested : List ℕ, heightOf heights children = .ok (nested.max?.elim 0 (1 + ·)) ∧
      (∀ i, .container i ∈ children → ∃ height ∈ nested, heights i = some height) ∧
      ∀ height ∈ nested, ∃ i, .container i ∈ children ∧ heights i = some height := by
  have hlookup : ∀ i ∈ children.filterMap Value.identity?,
      ∃ height, lookupHeight heights i = .ok height := by
    intro i hi
    obtain ⟨height, hheight, -⟩ := hdone _ (mem_filterMap_identity.mp hi)
    exact ⟨height, lookupHeight_ok.mpr hheight⟩
  obtain ⟨nested, hnested⟩ := mapM_succeeds hlookup
  have hall := mapM_ok hnested
  refine ⟨nested, ?_, ?_, ?_⟩
  · unfold heightOf
    rw [hnested]
    rfl
  · intro i hi
    obtain ⟨height, hmem, hheight⟩ := exists_right hall (mem_filterMap_identity.mpr hi)
    exact ⟨height, hmem, lookupHeight_ok.mp hheight⟩
  · intro height hmem
    obtain ⟨i, hi, hheight⟩ := exists_left hall hmem
    exact ⟨i, mem_filterMap_identity.mp hi, lookupHeight_ok.mp hheight⟩

theorem heightOf_measured (hright : Right heap reject heights) (hdepth : depth ≤ maxCanonicalDepth)
    (hdone : ∀ child ∈ (heap i).children, Done reject heights (depth + 1) child) :
    ∃ height, heightOf heights (heap i).children = .ok height ∧ Measured heap reject i height ∧
      depth + height ≤ maxCanonicalDepth := by
  obtain ⟨nested, hheight, hchildren, hnested⟩ := heightOf_ok hdone
  have hstrings : ∀ depth text, Expands heap (.container i) depth (.string text) →
      reject text = false := by
    intro depth text h
    cases depth with
    | zero => cases h
    | succ depth =>
      obtain ⟨child, hchild, hbelow⟩ := h.exists_child
      cases child with
      | container j =>
        obtain ⟨height, hj, -⟩ := hdone _ hchild
        exact (hright j height hj).strings depth text hbelow
      | string t =>
        cases hbelow with
        | root => exact hdone _ hchild
        | child habove _ =>
          obtain ⟨r, hr, -⟩ := habove.reaches
          cases hr
      | scalar =>
        cases hbelow with
        | child habove _ =>
          obtain ⟨r, hr, -⟩ := habove.reaches
          cases hr
  have hbelow : ∀ depth j, Expands heap (.container i) (depth + 1) (.container j) →
      ∃ height ∈ nested, depth ≤ height := by
    intro depth j h
    obtain ⟨child, hchild, hbelow⟩ := h.exists_child
    obtain ⟨k, rfl, -⟩ := hbelow.reaches
    obtain ⟨height, hmem, hk⟩ := hchildren k hchild
    exact ⟨height, hmem, (hright k height hk).highest depth j hbelow⟩
  refine ⟨_, hheight, ?_⟩
  cases hmax : nested.max? with
  | none =>
    rw [List.max?_eq_none_iff] at hmax
    refine ⟨⟨⟨i, .root⟩, ?_, hstrings⟩, hdepth⟩
    intro depth j h
    cases depth with
    | zero => exact le_rfl
    | succ depth =>
      obtain ⟨height, hmem, -⟩ := hbelow depth j h
      rw [hmax] at hmem
      cases hmem
  | some highest =>
    rw [List.max?_eq_some_iff] at hmax
    obtain ⟨k, hchild, hk⟩ := hnested highest hmax.1
    have hmeasured := hright k highest hk
    obtain ⟨known, hknown, hle⟩ := hdone _ hchild
    rw [hk] at hknown
    cases hknown
    show Measured heap reject i (1 + highest) ∧ depth + (1 + highest) ≤ maxCanonicalDepth
    refine ⟨⟨?_, ?_, hstrings⟩, by omega⟩
    · obtain ⟨j, hj⟩ := hmeasured.attained
      refine ⟨j, ?_⟩
      rw [Nat.add_comm]
      exact .of_child hchild hj
    · intro depth j h
      cases depth with
      | zero => omega
      | succ depth =>
        obtain ⟨height, hmem, hheight⟩ := hbelow depth j h
        have hhighest := hmax.2 height hmem
        omega

theorem step_leave [DecidableEq ι] {walk : Walk ι} {rest : List (Frame ι)}
    (hstack : walk.stack = .leave i depth :: rest) (hright : Right heap reject walk.heights)
    (hdepth : depth ≤ maxCanonicalDepth)
    (hdone : ∀ child ∈ (heap i).children, Done reject walk.heights (depth + 1) child) :
    ∃ height, step heap reject walk = .next
        ⟨Function.update walk.heights i (some height), walk.active.erase i, rest⟩ ∧
      Right heap reject (Function.update walk.heights i (some height)) ∧
      Done reject (Function.update walk.heights i (some height)) depth (.container i) := by
  obtain ⟨height, hheight, hmeasured, hle⟩ := heightOf_measured hright hdepth hdone
  refine ⟨height, ?_, ?_, height, Function.update_self .., hle⟩
  · unfold step
    rw [hstack]
    dsimp only
    rw [hheight]
  · intro j known hj
    by_cases h : j = i
    · rw [h, Function.update_self] at hj
      cases hj
      rw [h]
      exact hmeasured
    · rw [Function.update_of_ne h] at hj
      exact hright j known hj

theorem sound_of_done (hright : Right heap reject heights)
    (hdone : Done reject heights 0 root) : Sound heap reject root := by
  cases root with
  | container r =>
    obtain ⟨height, hheight, hle⟩ := hdone
    have hmeasured := hright r height hheight
    refine ⟨?_, ?_, hmeasured.strings⟩
    · rintro i heq
      cases heq
      exact hmeasured.acyclic
    · intro depth i h
      have hbound := hmeasured.highest depth i h
      omega
  | string text =>
    refine ⟨nofun, ?_, ?_⟩
    · intro depth i h
      obtain ⟨r, hr, -⟩ := h.reaches
      cases hr
    · intro depth t h
      cases h with
      | root => exact hdone
      | child h _ =>
        obtain ⟨r, hr, -⟩ := h.reaches
        cases hr
  | scalar =>
    refine ⟨nofun, ?_, ?_⟩
    · intro depth i h
      obtain ⟨r, hr, -⟩ := h.reaches
      cases hr
    · intro depth t h
      cases h with
      | child h _ =>
        obtain ⟨r, hr, -⟩ := h.reaches
        cases hr

/-! ## Walking through a value -/

section

variable [Fintype ι] [DecidableEq ι]

def unseen (walk : Walk ι) : Finset ι :=
  Finset.univ.filter fun i ↦ i ∉ walk.active ∧ walk.heights i = none

/-- What the walk looks like when it has walked through what was on the stack. -/
structure Walked (heap : ι → Container ι) (reject : Text → Bool) (walk : Walk ι)
    (rest : List (Frame ι)) (after : Walk ι) : Prop where
  stack : after.stack = rest
  active : after.active = walk.active
  grows : Grows walk.heights after.heights
  right : Right heap reject after.heights

def Justified (heap : ι → Container ι) (reject : Text → Bool) (root : Value ι)
    (error : StructureError) : Prop :=
  error ≠ .missingHeight ∧ ¬ Sound heap reject root

variable {walk : Walk ι} {rest : List (Frame ι)}

theorem Walked.unseen_subset {after : Walk ι}
    (h : Walked heap reject walk rest after) : unseen after ⊆ unseen walk := by
  intro i hi
  unfold unseen at hi ⊢
  rw [Finset.mem_filter, h.active] at hi
  rw [Finset.mem_filter]
  refine ⟨hi.1, hi.2.1, ?_⟩
  cases hheight : walk.heights i with
  | none => rfl
  | some height =>
    rw [h.grows i height hheight] at hi
    exact hi.2.2

structure Entered (heap : ι → Container ι) (reject : Text → Bool) (root : Value ι) (walk : Walk ι)
    (depth : ℕ) (value : Value ι) : Prop where
  right : Right heap reject walk.heights
  expands : Expands heap root depth value
  /-- The value stands below every container that is being walked through. -/
  below : ∀ a ∈ walk.active, ∀ i, value = .container i → TransGen (Contains heap) a i

def WalksThrough (heap : ι → Container ι) (reject : Text → Bool) (root : Value ι) (walk : Walk ι)
    (rest : List (Frame ι)) (P : (ι → Option ℕ) → Prop) : Prop :=
  Loop.Comes (step heap reject)
    (fun after ↦ Walked heap reject walk rest after ∧ P after.heights)
    (Justified heap reject root) walk

theorem walksThrough_list {n : ℕ}
    (henter : ∀ (walk : Walk ι) value rest, walk.stack = .enter value depth :: rest →
      (unseen walk).card < n → Entered heap reject root walk depth value →
      WalksThrough heap reject root walk rest fun heights ↦ Done reject heights depth value)
    (values : List (Value ι))
    (hstack : walk.stack = values.map (Frame.enter · depth) ++ rest) (hn : (unseen walk).card < n)
    (hright : Right heap reject walk.heights)
    (hentered : ∀ value ∈ values, Entered heap reject root walk depth value) :
    WalksThrough heap reject root walk rest
      fun heights ↦ ∀ value ∈ values, Done reject heights depth value := by
  induction values generalizing walk with
  | nil => exact .here ⟨⟨hstack, rfl, fun _ _ h => h, hright⟩, List.forall_mem_nil _⟩
  | cons value values ih =>
    have hfirst := henter walk value _ hstack hn (hentered value List.mem_cons_self)
    apply Loop.Comes.bind hfirst
    rintro after ⟨hwalked, hdone⟩
    have hrest := ih hwalked.stack
      ((Finset.card_le_card hwalked.unseen_subset).trans_lt hn) hwalked.right fun v hv => by
        have hv := hentered v (List.mem_cons_of_mem _ hv)
        refine ⟨hwalked.right, hv.expands, ?_⟩
        rw [hwalked.active]
        exact hv.below
    apply Loop.Comes.bind hrest
    rintro last ⟨hlast, hall⟩
    refine .here ⟨⟨hlast.stack, hlast.active.trans hwalked.active, ?_, hlast.right⟩, ?_⟩
    · exact fun i height hi => hlast.grows i height (hwalked.grows i height hi)
    · exact List.forall_mem_cons.mpr ⟨hdone.grows hlast.grows, hall⟩

theorem unseen_enter {i : ι} (hactive : i ∉ walk.active)
    (hheight : walk.heights i = none) (stack : List (Frame ι)) :
    (unseen ⟨walk.heights, insert i walk.active, stack⟩).card < (unseen walk).card := by
  apply Finset.card_lt_card
  rw [Finset.ssubset_iff_of_subset]
  · refine ⟨i, ?_, ?_⟩
    · unfold unseen
      rw [Finset.mem_filter]
      exact ⟨Finset.mem_univ i, hactive, hheight⟩
    · unfold unseen
      rw [Finset.mem_filter]
      exact fun h => h.2.1 (Finset.mem_insert_self i _)
  · intro j hj
    unfold unseen at hj ⊢
    rw [Finset.mem_filter] at hj ⊢
    exact ⟨hj.1, fun h => hj.2.1 (Finset.mem_insert_of_mem h), hj.2.2⟩

theorem walksThrough_enter (n : ℕ)
    (hstack : walk.stack = .enter value depth :: rest) (hn : (unseen walk).card < n)
    (h : Entered heap reject root walk depth value) :
    WalksThrough heap reject root walk rest fun heights ↦ Done reject heights depth value := by
  induction n generalizing walk value depth rest with
  | zero => cases hn
  | succ n ih =>
    have hkept : Walked heap reject walk rest { walk with stack := rest } :=
      ⟨rfl, rfl, fun _ _ h => h, h.right⟩
    cases value with
    | scalar =>
      have hstep : step heap reject walk = .next { walk with stack := rest } := by
        unfold step
        rw [hstack]
      exact .next hstep (.here ⟨hkept, trivial⟩)
    | string text =>
      by_cases hreject : reject text = true
      · have hstep : step heap reject walk = .failed (.rejected text) := by
          unfold step
          rw [hstack]
          exact if_pos hreject
        refine .failed hstep ⟨nofun, fun hsound => ?_⟩
        rw [hsound.strings depth text h.expands] at hreject
        cases hreject
      · have hstep : step heap reject walk = .next { walk with stack := rest } := by
          unfold step
          rw [hstack]
          exact if_neg hreject
        exact .next hstep (.here ⟨hkept, Bool.eq_false_iff.mpr hreject⟩)
    | container i =>
      by_cases hactive : i ∈ walk.active
      · have hstep : step heap reject walk = .failed .recursive := by
          unfold step
          rw [hstack]
          exact if_pos hactive
        refine .failed hstep ⟨nofun, fun hsound => ?_⟩
        obtain ⟨r, hr, hreach⟩ := h.expands.reaches
        exact hsound.acyclic r hr i hreach (h.below i hactive i rfl)
      cases hheight : walk.heights i with
      | some known =>
        by_cases hdeep : maxCanonicalDepth < depth + known
        · have hstep : step heap reject walk = .failed .tooDeep := by
            unfold step
            rw [hstack]
            dsimp only
            rw [if_neg hactive, hheight]
            exact if_pos hdeep
          refine .failed hstep ⟨nofun, fun hsound => ?_⟩
          obtain ⟨j, hj⟩ := (h.right i known hheight).attained
          have hbound := hsound.bounded (depth + known) j (h.expands.trans hj)
          omega
        · have hstep : step heap reject walk = .next { walk with stack := rest } := by
            unfold step
            rw [hstack]
            dsimp only
            rw [if_neg hactive, hheight]
            exact if_neg hdeep
          exact .next hstep (.here ⟨hkept, known, hheight, not_lt.mp hdeep⟩)
      | none =>
        by_cases hdeep : maxCanonicalDepth < depth
        · have hstep : step heap reject walk = .failed .tooDeep := by
            unfold step
            rw [hstack]
            dsimp only
            rw [if_neg hactive, hheight]
            exact if_pos hdeep
          refine .failed hstep ⟨nofun, fun hsound => ?_⟩
          have hbound := hsound.bounded depth i h.expands
          omega
        have hstep : step heap reject walk = .next ⟨walk.heights, insert i walk.active,
            ((heap i).children.map fun child ↦ Frame.enter child (depth + 1)).reverse ++
              .leave i depth :: rest⟩ := by
          unfold step
          rw [hstack]
          dsimp only
          rw [if_neg hactive, hheight]
          exact if_neg hdeep
        apply Loop.Comes.next hstep
        -- The children are walked through from the last one on.
        have hchildren : WalksThrough heap reject root
            ⟨walk.heights, insert i walk.active,
              ((heap i).children.map fun child ↦ Frame.enter child (depth + 1)).reverse ++
                .leave i depth :: rest⟩
            (.leave i depth :: rest)
            fun heights ↦ ∀ child ∈ (heap i).children.reverse,
              Done reject heights (depth + 1) child := by
          apply walksThrough_list (fun walk value rest hstack hn h => ih hstack hn h)
          · rw [List.map_reverse]
          · exact lt_of_lt_of_le (unseen_enter hactive hheight _) (Nat.le_of_lt_succ hn)
          · exact h.right
          · intro child hchild
            rw [List.mem_reverse] at hchild
            refine ⟨h.right, .child h.expands hchild, ?_⟩
            rintro a ha j rfl
            rcases Finset.mem_insert.mp ha with rfl | ha
            · exact .single hchild
            · exact (h.below a ha i rfl).tail hchild
        apply Loop.Comes.bind hchildren
        rintro after ⟨hwalked, hdone⟩
        obtain ⟨height, hleave, hright, hfound⟩ := step_leave hwalked.stack hwalked.right
          (not_lt.mp hdeep) fun child hchild => hdone child (List.mem_reverse.mpr hchild)
        refine .next hleave (.here ⟨⟨rfl, ?_, ?_, hright⟩, hfound⟩)
        · show after.active.erase i = walk.active
          rw [hwalked.active]
          exact Finset.erase_insert hactive
        · intro j known hj
          have hne : j ≠ i := by
            rintro rfl
            rw [hheight] at hj
            cases hj
          show Function.update after.heights i (some height) j = some known
          rw [Function.update_of_ne hne]
          exact hwalked.grows j known hj

/-- The check ends on every graph, never misses a height, and accepts exactly what is sound. -/
theorem validateSourceStructure_iff (heap : ι → Container ι) (reject : Text → Bool)
    (root : Value ι) :
    ∃ result, (∃ fuel, ∀ more,
        validateSourceStructure heap reject root (fuel + more) = some result) ∧
      result ≠ .error .missingHeight ∧ (result = .ok () ↔ Sound heap reject root) := by
  have hentered : Entered heap reject root (startWalk root) 0 root := by
    refine ⟨nofun, .root, ?_⟩
    intro a ha
    cases ha
  have hcomes := walksThrough_enter _ rfl (Nat.lt_succ_self _) hentered
  have hends : Loop.Comes (step heap reject)
      (fun after ↦ step heap reject after = .done ∧ Sound heap reject root)
      (Justified heap reject root) (startWalk root) := by
    apply Loop.Comes.bind hcomes
    rintro after ⟨hwalked, hdone⟩
    refine .here ⟨?_, sound_of_done hwalked.right hdone⟩
    unfold step
    rw [hwalked.stack]
  rcases hends.ends with ⟨hok, _, hsound⟩ | ⟨error, herror, hmissing, hunsound⟩
  · exact ⟨.ok (), hok, nofun, iff_of_true rfl hsound⟩
  · refine ⟨.error error, herror, ?_, iff_of_false nofun hunsound⟩
    intro heq
    exact hmissing (Except.error.inj heq)

end

end NixNas.Compose.Structure
