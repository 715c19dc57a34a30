import NixNas.Lib.Fallible
import NixNas.Names

/-!
# From YAML to JSON values (`services/nas_v2_spec.py`)

`_plain` rebuilds the tree of the YAML loader with the text of every key.  Aliases are expanded by
value; a tree has no cycle, so the check for one never fires.
-/

open Fallible

namespace NixNas.Spec

/-- `ManagedServicesV2Error`. -/
structure SpecError where
  message : Text
  path : Text
  code : Text
  deriving DecidableEq, Repr

inductive PathPart where
  | key (name : Text)
  | index (i : Nat)
  deriving DecidableEq, Repr

def jsonPath (parts : List PathPart) : Text :=
  parts.foldl (fun rendered part ↦
    match part with
    | .key name => rendered ++ '.' :: name
    | .index i => rendered ++ '[' :: (Nat.repr i).toList ++ [']']) ['$']

def maxYamlDepth : Nat := 200

def maxYamlNodes : Nat := 200000

/-! ## Trees -/

/-- A key of a mapping; the floats are a parameter with their `repr`. -/
inductive Key (F : Type) where
  | string (value : Text)
  | integer (value : Int)
  | boolean (value : Bool)
  | null
  | float (value : F)
  deriving DecidableEq, Repr

/-- `other` is a value of a type that JSON does not have, such as a date. -/
inductive Scalar (F : Type) where
  | string (value : Text)
  | integer (value : Int)
  | boolean (value : Bool)
  | null
  | float (value : F)
  | other (typeName : Text)
  deriving DecidableEq, Repr

/-- What the safe loader makes of a document. -/
inductive Tree (F : Type) where
  | scalar (value : Scalar F)
  | sequence (items : List (Tree F))
  | mapping (entries : List (Key F × Tree F))

inductive Plain (F : Type) where
  | scalar (value : Scalar F)
  | array (items : List (Plain F))
  | object (entries : List (Text × Plain F))

variable {F : Type} (repr : F → Text)
variable {path : List PathPart} {depth count n : Nat} {dict out : List (Text × Plain F)}
  {entries : List (Key F × Tree F)}

/-- `str(key)`. -/
def keyText : Key F → Text
  | .string value => value
  | .integer value => (Int.repr value).toList
  | .boolean true => "True".toList
  | .boolean false => "False".toList
  | .null => "None".toList
  | .float value => repr value

/-- An assignment in a dictionary: an old key keeps its position. -/
def setItem {α : Type} (entries : List (Text × α)) (key : Text) (value : α) : List (Text × α) :=
  if key ∈ entries.map Prod.fst then
    entries.map fun e ↦ if e.1 = key then (key, value) else e
  else entries ++ [(key, value)]

/-! ## `_plain` -/

def depthError (path : List PathPart) : SpecError :=
  ⟨"YAML document exceeds maximum depth of 200".toList, jsonPath path, "yaml-depth".toList⟩

def nodesError (path : List PathPart) : SpecError :=
  ⟨"YAML document exceeds maximum of 200000 nodes".toList, jsonPath path, "yaml-nodes".toList⟩

def typeError (typeName : Text) : SpecError :=
  ⟨"YAML value of type ".toList ++ typeName ++ " is not JSON-compatible".toList, ['$'],
    "yaml-type".toList⟩

def countNode (path : List PathPart) (count : Nat) : Except SpecError Nat :=
  if maxYamlNodes < count + 1 then .error (nodesError path) else .ok (count + 1)

def countContainer (path : List PathPart) (depth count : Nat) : Except SpecError Nat :=
  if maxYamlDepth < depth then .error (depthError path) else countNode path count

def plainScalar : Scalar F → Except SpecError (Plain F)
  | .other typeName => .error (typeError typeName)
  | value => .ok (.scalar value)

mutual

/-- `_plain_bounded`, with the nodes counted so far. -/
def plainBounded (path : List PathPart) (depth count : Nat) :
    Tree F → Except SpecError (Plain F × Nat)
  | .scalar value => do
    let count ← countNode path count
    let plain ← plainScalar value
    .ok (plain, count)
  | .sequence items => do
    let count ← countContainer path depth count
    let (plains, count) ← plainItems path depth count 0 items
    .ok (.array plains, count)
  | .mapping entries => do
    let count ← countContainer path depth count
    let (plains, count) ← plainEntries path depth count [] entries
    .ok (.object plains, count)

def plainItems (path : List PathPart) (depth count index : Nat) :
    List (Tree F) → Except SpecError (List (Plain F) × Nat)
  | [] => .ok ([], count)
  | item :: items => do
    let (plain, count) ← plainBounded (path ++ [.index index]) (depth + 1) count item
    let (plains, count) ← plainItems path depth count (index + 1) items
    .ok (plain :: plains, count)

def plainEntries (path : List PathPart) (depth count : Nat) (dict : List (Text × Plain F)) :
    List (Key F × Tree F) → Except SpecError (List (Text × Plain F) × Nat)
  | [] => .ok (dict, count)
  | (key, item) :: entries => do
    let (plain, count) ←
      plainBounded (path ++ [.key (keyText repr key)]) (depth + 1) count item
    plainEntries path depth count (setItem dict (keyText repr key) plain) entries

end

def plain (tree : Tree F) : Except SpecError (Plain F) :=
  (plainBounded repr [] 0 0 tree).map Prod.fst

/-- `parse_yaml_text` after the loader, whose `None` stands for an empty document. -/
def parseLoaded (tree : Tree F) : Except SpecError (List (Text × Plain F)) :=
  match tree with
  | .scalar .null =>
    .error ⟨"Managed Services V2 desired state must not be empty (YAML null)".toList, ['$'],
      "yaml-empty".toList⟩
  | _ => do
    match ← plain repr tree with
    | .object entries => .ok entries
    | _ =>
      .error ⟨"Managed Services V2 desired state must be a mapping/object".toList, ['$'],
        "yaml-root".toList⟩

/-! ## What a conversion should keep -/

mutual

/-- The result has the entries of every mapping under their texts, with the same values in the same
order. -/
def Kept : Tree F → Plain F → Prop
  | .scalar value, .scalar value' => value' = value
  | .sequence items, .array plains => KeptItems items plains
  | .mapping entries, .object plains => KeptEntries entries plains
  | _, _ => False

def KeptItems : List (Tree F) → List (Plain F) → Prop
  | [], [] => True
  | item :: items, plain :: plains => Kept item plain ∧ KeptItems items plains
  | _, _ => False

def KeptEntries : List (Key F × Tree F) → List (Text × Plain F) → Prop
  | [], [] => True
  | (key, item) :: entries, (text, plain) :: plains =>
    text = keyText repr key ∧ Kept item plain ∧ KeptEntries entries plains
  | _, _ => False

end

mutual

/-- In no mapping of the tree two keys have the same text. -/
def TextsDistinct : Tree F → Prop
  | .scalar _ => True
  | .sequence items => TextsDistinctItems items
  | .mapping entries =>
    (entries.map fun e ↦ keyText repr e.1).Nodup ∧ TextsDistinctEntries entries

def TextsDistinctItems : List (Tree F) → Prop
  | [] => True
  | item :: items => TextsDistinct item ∧ TextsDistinctItems items

def TextsDistinctEntries : List (Key F × Tree F) → Prop
  | [] => True
  | (_, item) :: entries => TextsDistinct item ∧ TextsDistinctEntries entries

end

/-! ## Passes over sequences and mappings -/

variable {repr}

def Converts (repr : F → Text) (tree : Tree F) (result : Plain F) : Prop :=
  ∃ path depth count n, plainBounded repr path depth count tree = .ok (result, n)

theorem plainItems_ok {index : Nat} {items : List (Tree F)}
    {plains : List (Plain F)} (h : plainItems repr path depth count index items = .ok (plains, n)) :
    List.Forall₂ (Converts repr) items plains := by
  induction items generalizing count index plains with
  | nil =>
    rw [plainItems] at h
    cases h
    exact .nil
  | cons item items ih =>
    rw [plainItems] at h
    rcases bind_ok h with ⟨⟨result, c⟩, hitem, h⟩
    rcases bind_ok h with ⟨⟨results, c'⟩, hitems, h⟩
    cases h
    exact .cons ⟨_, _, _, _, hitem⟩ (ih hitems)

theorem length_setItem_le {α : Type} (dict : List (Text × α)) (key : Text) (value : α) :
    (setItem dict key value).length ≤ dict.length + 1 := by
  unfold setItem
  split
  · rw [List.length_map]
    omega
  · exact Nat.le_of_eq (List.length_append.trans (congrArg _ (List.length_singleton ..)))

theorem length_plainEntries_le
    (h : plainEntries repr path depth count dict entries = .ok (out, n)) :
    out.length ≤ dict.length + entries.length := by
  induction entries generalizing count dict with
  | nil =>
    rw [plainEntries] at h
    cases h
    exact Nat.le_refl _
  | cons e entries ih =>
    rcases e with ⟨key, item⟩
    rw [plainEntries] at h
    rcases bind_ok h with ⟨⟨result, c⟩, _, h⟩
    have hrest := ih h
    have hset := length_setItem_le dict (keyText repr key) result
    rw [List.length_cons]
    omega

def FreshTexts (repr : F → Text) (dict : List (Text × Plain F)) (entries : List (Key F × Tree F)) :
    Prop :=
  (entries.map fun e ↦ keyText repr e.1).Nodup ∧
    ∀ e ∈ entries, keyText repr e.1 ∉ dict.map Prod.fst

theorem plainEntries_ok (h : plainEntries repr path depth count dict entries = .ok (out, n)) :
    (FreshTexts repr dict entries ∧ ∃ plains, out = dict ++ plains ∧
        List.Forall₂ (fun e q ↦ q.1 = keyText repr e.1 ∧ Converts repr e.2 q.2) entries plains) ∨
      (¬ FreshTexts repr dict entries ∧ out.length < dict.length + entries.length) := by
  induction entries generalizing count dict with
  | nil =>
    rw [plainEntries] at h
    cases h
    exact .inl ⟨⟨.nil, by simp⟩, [], by simp, .nil⟩
  | cons e entries ih =>
    rcases e with ⟨key, item⟩
    rw [plainEntries] at h
    rcases bind_ok h with ⟨⟨result, c⟩, hitem, h⟩
    by_cases hold : keyText repr key ∈ dict.map Prod.fst
    · -- the assignment replaces a value, so the dictionary does not grow
      refine .inr ⟨fun hfresh => hfresh.2 (key, item) (.head entries) hold, ?_⟩
      have hrest := length_plainEntries_le h
      have hset : (setItem dict (keyText repr key) result).length = dict.length := by
        unfold setItem
        rw [if_pos hold, List.length_map]
      rw [List.length_cons]
      omega
    · have hset : setItem dict (keyText repr key) result =
          dict ++ [(keyText repr key, result)] := by
        unfold setItem
        rw [if_neg hold]
      have hfresh : FreshTexts repr dict ((key, item) :: entries) ↔
          FreshTexts repr (dict ++ [(keyText repr key, result)]) entries := by
        unfold FreshTexts
        simp only [List.map_cons, List.nodup_cons, List.mem_cons, List.map_append, List.mem_append,
          List.map_nil, List.not_mem_nil, or_false, not_or, forall_eq_or_imp, List.mem_map]
        constructor
        · rintro ⟨⟨hnot, hnodup⟩, _, hdict⟩
          exact ⟨hnodup, fun e he => ⟨by simpa using hdict e he, fun heq => hnot ⟨e, he, heq⟩⟩⟩
        · rintro ⟨hnodup, hdict⟩
          refine ⟨⟨?_, hnodup⟩, by simpa using hold, fun e he => by simpa using (hdict e he).1⟩
          rintro ⟨e, he, heq⟩
          exact (hdict e he).2 heq
      simp only at h
      rw [hset] at h
      rcases ih h with ⟨hf, plains, hout, hall⟩ | ⟨hf, hlength⟩
      · refine .inl ⟨hfresh.mpr hf, (keyText repr key, result) :: plains, ?_, ?_⟩
        · rw [hout, List.append_assoc]
          rfl
        · exact .cons ⟨rfl, _, _, _, _, hitem⟩ hall
      · refine .inr ⟨fun hf' => hf (hfresh.mp hf'), ?_⟩
        rw [List.length_append, List.length_singleton] at hlength
        rw [List.length_cons]
        omega

theorem length_of_keptEntries : ∀ {entries : List (Key F × Tree F)} {plains : List (Text × Plain F)},
    KeptEntries repr entries plains → plains.length = entries.length
  | [], [], _ => rfl
  | [], _ :: _, h => by
    rw [KeptEntries] at h
    exact h.elim
    all_goals simp
  | _ :: _, [], h => by
    rw [KeptEntries] at h
    exact h.elim
    all_goals simp
  | (_, _) :: entries, (_, _) :: plains, h => by
    rw [KeptEntries] at h
    rw [List.length_cons, List.length_cons, length_of_keptEntries h.2.2]

/-! ## The conversion -/

mutual

theorem kept_iff_of_converts : ∀ (tree : Tree F) (result : Plain F), Converts repr tree result →
    (Kept repr tree result ↔ TextsDistinct repr tree)
  | .scalar value, result, h => by
    rcases h with ⟨path, depth, count, n, h⟩
    rw [plainBounded] at h
    rcases bind_ok h with ⟨c, _, h⟩
    rcases bind_ok h with ⟨result', hscalar, h⟩
    cases h
    rw [TextsDistinct, iff_true]
    cases value with
    | other typeName => cases hscalar
    | _ =>
      cases hscalar
      rw [Kept]
  | .sequence items, result, h => by
    rcases h with ⟨path, depth, count, n, h⟩
    rw [plainBounded] at h
    rcases bind_ok h with ⟨c, _, h⟩
    rcases bind_ok h with ⟨⟨plains, c'⟩, hitems, h⟩
    cases h
    rw [Kept, TextsDistinct]
    exact keptItems_iff items plains (plainItems_ok hitems)
  | .mapping entries, result, h => by
    rcases h with ⟨path, depth, count, n, h⟩
    rw [plainBounded] at h
    rcases bind_ok h with ⟨c, _, h⟩
    rcases bind_ok h with ⟨⟨out, c'⟩, hentries, h⟩
    cases h
    rw [Kept, TextsDistinct]
    rcases plainEntries_ok hentries with ⟨hfresh, plains, hout, hall⟩ | ⟨hfresh, hlength⟩
    · rw [hout, List.nil_append, keptEntries_iff entries plains hall, and_iff_right hfresh.1]
    · constructor
      · intro hkept
        rw [length_of_keptEntries hkept, List.length_nil] at hlength
        omega
      · intro hdistinct
        exact (hfresh ⟨hdistinct.1, by simp⟩).elim

theorem keptItems_iff : ∀ (items : List (Tree F)) (plains : List (Plain F)),
    List.Forall₂ (Converts repr) items plains →
    (KeptItems repr items plains ↔ TextsDistinctItems repr items)
  | [], plains, h => by
    cases h
    rw [KeptItems, TextsDistinctItems]
  | item :: items, plains, h => by
    rcases List.forall₂_cons_left_iff.mp h with ⟨result, results, hitem, hitems, rfl⟩
    rw [KeptItems, TextsDistinctItems, kept_iff_of_converts item result hitem,
      keptItems_iff items results hitems]

theorem keptEntries_iff : ∀ (entries : List (Key F × Tree F)) (plains : List (Text × Plain F)),
    List.Forall₂ (fun e q ↦ q.1 = keyText repr e.1 ∧ Converts repr e.2 q.2) entries plains →
    (KeptEntries repr entries plains ↔ TextsDistinctEntries repr entries)
  | [], plains, h => by
    cases h
    rw [KeptEntries, TextsDistinctEntries]
  | (key, item) :: entries, plains, h => by
    rcases List.forall₂_cons_left_iff.mp h with ⟨⟨text, result⟩, results, ⟨htext, hitem⟩, hrest, rfl⟩
    rw [KeptEntries, TextsDistinctEntries, kept_iff_of_converts item result hitem,
      keptEntries_iff entries results hrest, and_iff_right htext]

end

/-- A conversion that succeeds keeps every declaration, and a document whose keys would become equal
is refused, exactly if no mapping of the document has two keys with the same text. -/
theorem kept_iff {tree : Tree F} {result : Plain F} (h : plain repr tree = .ok result) :
    (Kept repr tree result ∧
        ∀ entries, parseLoaded repr tree = .ok entries → TextsDistinct repr tree) ↔
      TextsDistinct repr tree := by
  rcases map_ok h with ⟨⟨result', n⟩, hbounded, rfl⟩
  have hkept := kept_iff_of_converts tree result' ⟨_, _, _, _, hbounded⟩
  constructor
  · intro hboth
    exact hkept.mp hboth.1
  · intro hdistinct
    exact ⟨hkept.mpr hdistinct, fun _ _ => hdistinct⟩

/-! ## Two services under one key -/

def noFloat : Empty → Text := fun x ↦ nomatch x

/-- The keys `1` and `"1"`. -/
def oneTwice : Tree Empty :=
  .mapping [(.integer 1, .scalar (.string "a".toList)), (.string "1".toList, .scalar (.boolean true))]

theorem not_kept_oneTwice :
    (Key.integer 1 : Key Empty) ≠ .string "1".toList ∧ ∃ entries,
      parseLoaded noFloat oneTwice = .ok entries ∧ entries.length = 1 ∧
        ¬ Kept noFloat oneTwice (.object entries) := by
  refine ⟨by simp, [("1".toList, .scalar (.boolean true))], by rfl, rfl, ?_⟩
  intro hkept
  rw [oneTwice, Kept] at hkept
  have hlength := length_of_keptEntries hkept
  cases hlength

theorem kept_iff_oneTwice :
    (Kept noFloat oneTwice (.object [("1".toList, .scalar (.boolean true))]) ∧
        ∀ entries, parseLoaded noFloat oneTwice = .ok entries → TextsDistinct noFloat oneTwice) ↔
      TextsDistinct noFloat oneTwice :=
  kept_iff (by rfl)

end NixNas.Spec
