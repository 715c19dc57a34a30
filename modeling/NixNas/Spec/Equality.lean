import Mathlib.Data.Char
import Mathlib.Data.List.Lex
import NixNas.Spec.Object

/-!
# Equality and storage of JSON values

Python's `==` on the values of a document, the same document written and read back, and the
values for which `==` holds of itself.
-/

namespace NixNas.Spec

/-- The comparisons of the floats with each other and with an integer; an integral one is no NaN. -/
structure FloatEq (F : Type) where
  eq : F → F → Bool
  eqInt : F → Int → Bool
  isInteger : F → Bool
  eq_of_isInteger : ∀ x, isInteger x = true → eq x x = true

def FloatEq.empty : FloatEq Empty := ⟨nofun, nofun, nofun, nofun⟩

variable {F : Type} (float : FloatEq F)
variable {o : Object F}

/-- A truth value compares as the integer it is. -/
def asInt : Scalar F → Option Int
  | .integer n => some n
  | .boolean b => some (if b then 1 else 0)
  | _ => none

def scalarEq (a b : Scalar F) : Bool :=
  match asInt a, asInt b with
  | some n, some m => n = m
  | some n, none => match b with
    | .float y => float.eqInt y n
    | _ => false
  | none, some m => match a with
    | .float x => float.eqInt x m
    | _ => false
  | none, none => match a, b with
    | .string s, .string t => s = t
    | .null, .null => true
    | .float x, .float y => float.eq x y
    | .other s, .other t => s = t
    | _, _ => false

mutual

/-- `a == b`. -/
def eq : Plain F → Plain F → Bool
  | .scalar a, .scalar b => scalarEq float a b
  | .array items, .array items' => eqItems items items'
  | .object o, .object o' => decide (o.length = o'.length) && eqEntries o o'
  | _, _ => false

def eqItems : List (Plain F) → List (Plain F) → Bool
  | [], [] => true
  | item :: items, item' :: items' => eq item item' && eqItems items items'
  | _, _ => false

def eqEntries : Object F → Object F → Bool
  | [], _ => true
  | (key, value) :: rest, o => (match find key o with
    | some value' => eq value value'
    | none => false) && eqEntries rest o

end

mutual

/-- `_contains_desired_value`. -/
def contains (effective : Plain F) : Plain F → Bool
  | .object desired => match effective with
    | .object o => containsEntries o desired
    | _ => false
  | desired => eq float effective desired

def containsEntries (o : Object F) : Object F → Bool
  | [] => true
  | (key, value) :: rest => (match find key o with
    | some effective => contains effective value
    | none => false) && containsEntries o rest

end

def insertEntry (e : Text × Plain F) : Object F → Object F
  | [] => [e]
  | e' :: rest => if e.1 ≤ e'.1 then e :: e' :: rest else e' :: insertEntry e rest

mutual

/-- The value that `json.loads` makes of `json.dumps(value, sort_keys=True)`. -/
def stored : Plain F → Plain F
  | .scalar value => .scalar value
  | .array items => .array (storedItems items)
  | .object entries => .object (storedEntries entries)

def storedItems : List (Plain F) → List (Plain F)
  | [] => []
  | item :: items => stored item :: storedItems items

def storedEntries : Object F → Object F
  | [] => []
  | (key, value) :: rest => insertEntry (key, stored value) (storedEntries rest)

end

variable {float}

theorem find_insertEntry (e : Text × Plain F) (o : Object F) (key : Text) :
    find key (insertEntry e o) = if key = e.1 then some e.2 else find key o := by
  induction o with
  | nil => rw [insertEntry, find_cons]
  | cons e' o ih =>
    rw [insertEntry]
    by_cases hle : e.1 ≤ e'.1
    · rw [if_pos hle, find_cons]
    · -- the entry goes behind one with another key
      rw [if_neg hle, find_cons, find_cons, ih]
      have hne : e.1 ≠ e'.1 := fun heq => hle (le_of_eq heq)
      by_cases he : key = e.1
      · rw [if_pos he, if_pos he, if_neg fun heq => hne (he.symm.trans heq)]
      · rw [if_neg he, if_neg he]

theorem find_storedEntries (o : Object F) (key : Text) :
    find key (storedEntries o) = (find key o).map stored := by
  induction o with
  | nil => rfl
  | cons e o ih =>
    rw [storedEntries, find_insertEntry, find_cons, ih]
    split <;> rfl

theorem length_insertEntry (e : Text × Plain F) (o : Object F) :
    (insertEntry e o).length = o.length + 1 := by
  induction o with
  | nil => rfl
  | cons e' o ih =>
    rw [insertEntry]
    split
    · rfl
    · rw [List.length_cons, ih, List.length_cons]

theorem length_storedEntries (o : Object F) : (storedEntries o).length = o.length := by
  induction o with
  | nil => rfl
  | cons e o ih => rw [storedEntries, length_insertEntry, ih, List.length_cons]

theorem eqEntries_iff {o' : Object F} : eqEntries float o o' = true ↔
    ∀ e ∈ o, ∃ value, find e.1 o' = some value ∧ eq float e.2 value = true := by
  induction o with
  | nil => simp [eqEntries]
  | cons e o ih =>
    rw [eqEntries, Bool.and_eq_true, ih, List.forall_mem_cons]
    refine and_congr_left fun _ => ?_
    cases find e.1 o' with
    | none => simp
    | some value => simp

theorem eqEntries_insertEntry (e : Text × Plain F) (o o' : Object F) :
    eqEntries float (insertEntry e o) o' = eqEntries float (e :: o) o' := by
  induction o with
  | nil => rfl
  | cons e' o ih =>
    rw [insertEntry]
    split
    · rfl
    · rw [eqEntries, ih, eqEntries, eqEntries, eqEntries, Bool.and_left_comm]

mutual

theorem eq_stored : ∀ value value' : Plain F,
    eq float (stored value) value' = eq float value value'
  | .scalar _, _ => rfl
  | .array items, .array items' => by
    rw [stored, eq, eq]
    exact eqItems_stored items items'
  | .array items, .scalar _ => by rw [stored, eq, eq] <;> simp
  | .array items, .object _ => by rw [stored, eq, eq] <;> simp
  | .object o, .object o' => by
    rw [stored, eq, eq, length_storedEntries, eqEntries_stored o o']
  | .object _, .scalar _ => by rw [stored, eq, eq] <;> simp
  | .object _, .array _ => by rw [stored, eq, eq] <;> simp

theorem eqItems_stored : ∀ items items' : List (Plain F),
    eqItems float (storedItems items) items' = eqItems float items items'
  | [], _ => rfl
  | item :: items, [] => rfl
  | item :: items, item' :: items' => by
    rw [storedItems, eqItems, eqItems, eq_stored item item', eqItems_stored items items']

theorem eqEntries_stored : ∀ o o' : Object F,
    eqEntries float (storedEntries o) o' = eqEntries float o o'
  | [], _ => rfl
  | (key, value) :: rest, o' => by
    rw [storedEntries, eqEntries_insertEntry, eqEntries, eqEntries, eqEntries_stored rest o']
    cases find key o' with
    | none => rfl
    | some value' =>
      show (eq float (stored value) value' && _) = (eq float value value' && _)
      rw [eq_stored value value']

end

theorem containsEntries_iff {desired : Object F} : containsEntries float o desired = true ↔
    ∀ e ∈ desired, ∃ value, find e.1 o = some value ∧ contains float value e.2 = true := by
  induction desired with
  | nil => simp [containsEntries]
  | cons e desired ih =>
    rw [containsEntries, Bool.and_eq_true, ih, List.forall_mem_cons]
    refine and_congr_left fun _ => ?_
    cases find e.1 o with
    | none => simp
    | some value => simp

mutual

theorem contains_stored : ∀ desired value : Plain F,
    contains float (stored value) desired = contains float value desired
  | .scalar _, value => eq_stored value _
  | .array _, value => eq_stored value _
  | .object _, .scalar _ => rfl
  | .object _, .array _ => rfl
  | .object desired, .object o => containsEntries_stored desired o

theorem containsEntries_stored : ∀ desired o : Object F,
    containsEntries float (storedEntries o) desired = containsEntries float o desired
  | [], _ => rfl
  | (key, value) :: rest, o => by
    rw [containsEntries, containsEntries, containsEntries_stored rest o, find_storedEntries]
    cases find key o with
    | none => rfl
    | some effective =>
      show (contains float (stored effective) value && _) = (contains float effective value && _)
      rw [contains_stored value effective]

end

mutual

/-- Every float in the value equals itself: it is no NaN. -/
def NoNan (float : FloatEq F) : Plain F → Prop
  | .scalar (.float x) => float.eq x x = true
  | .scalar _ => True
  | .array items => NoNanItems float items
  | .object o => NoNanEntries float o

def NoNanItems (float : FloatEq F) : List (Plain F) → Prop
  | [] => True
  | item :: items => NoNan float item ∧ NoNanItems float items

def NoNanEntries (float : FloatEq F) : Object F → Prop
  | [] => True
  | (_, value) :: rest => NoNan float value ∧ NoNanEntries float rest

end

mutual

def Dict : Plain F → Prop
  | .scalar _ => True
  | .array items => DictItems items
  | .object o => (o.map Prod.fst).Nodup ∧ DictEntries o

def DictItems : List (Plain F) → Prop
  | [] => True
  | item :: items => Dict item ∧ DictItems items

def DictEntries : Object F → Prop
  | [] => True
  | (_, value) :: rest => Dict value ∧ DictEntries rest

end

theorem noNanEntries_iff : NoNanEntries float o ↔ ∀ e ∈ o, NoNan float e.2 := by
  induction o with
  | nil => simp [NoNanEntries]
  | cons e o ih => rw [NoNanEntries, ih, List.forall_mem_cons]

theorem dictEntries_iff : DictEntries o ↔ ∀ e ∈ o, Dict e.2 := by
  induction o with
  | nil => simp [DictEntries]
  | cons e o ih => rw [DictEntries, ih, List.forall_mem_cons]

theorem dictItems_iff {items : List (Plain F)} : DictItems items ↔ ∀ item ∈ items, Dict item := by
  induction items with
  | nil => simp [DictItems]
  | cons item items ih => rw [DictItems, ih, List.forall_mem_cons]

theorem find_of_mem (hnodup : (o.map Prod.fst).Nodup) {e : Text × Plain F}
    (he : e ∈ o) : find e.1 o = some e.2 := by
  induction o with
  | nil => cases he
  | cons d o ih =>
    rw [List.map_cons, List.nodup_cons] at hnodup
    rw [find_cons]
    obtain rfl | he := List.mem_cons.mp he
    · rw [if_pos rfl]
    · have hne : e.1 ≠ d.1 := fun heq => hnodup.1 (heq ▸ List.mem_map_of_mem he)
      rw [if_neg hne]
      exact ih hnodup.2 he

theorem scalarEq_self (a : Scalar F) :
    scalarEq float a a = true ↔ NoNan float (.scalar a) := by
  cases a <;> simp [scalarEq, asInt, NoNan]

mutual

theorem eq_self : ∀ value : Plain F, Dict value → (eq float value value = true ↔ NoNan float value)
  | .scalar a, _ => scalarEq_self a
  | .array items, h => eqItems_self items h
  | .object o, h => by
    rw [eq, decide_eq_true rfl, Bool.true_and]
    exact eqEntries_self o o (fun e he => find_of_mem h.1 he) h.2

theorem eqItems_self : ∀ items : List (Plain F), DictItems items →
    (eqItems float items items = true ↔ NoNanItems float items)
  | [], _ => by simp [eqItems, NoNanItems]
  | item :: items, h => by
    rw [eqItems, Bool.and_eq_true, eq_self item h.1, eqItems_self items h.2, NoNanItems]

theorem eqEntries_self : ∀ o o' : Object F, (∀ e ∈ o, find e.1 o' = some e.2) → DictEntries o →
    (eqEntries float o o' = true ↔ NoNanEntries float o)
  | [], _, _, _ => by simp [eqEntries, NoNanEntries]
  | (key, value) :: rest, o', hfind, h => by
    rw [List.forall_mem_cons] at hfind
    rw [eqEntries, hfind.1, Bool.and_eq_true, eqEntries_self rest o' hfind.2 h.2, NoNanEntries]
    show eq float value value = true ∧ _ ↔ _
    rw [eq_self value h.1]

end

mutual

theorem contains_self : ∀ value : Plain F, Dict value →
    (contains float value value = true ↔ NoNan float value)
  | .scalar a, h => eq_self (.scalar a) h
  | .array items, h => eq_self (.array items) h
  | .object o, h => containsEntries_self o o (fun _ he => find_of_mem h.1 he) h.2

theorem containsEntries_self : ∀ o o' : Object F, (∀ e ∈ o, find e.1 o' = some e.2) →
    DictEntries o → (containsEntries float o' o = true ↔ NoNanEntries float o)
  | [], _, _, _ => by simp [containsEntries, NoNanEntries]
  | (key, value) :: rest, o', hfind, h => by
    rw [List.forall_mem_cons] at hfind
    rw [containsEntries, hfind.1, Bool.and_eq_true, containsEntries_self rest o' hfind.2 h.2,
      NoNanEntries]
    show contains float value value = true ∧ _ ↔ _
    rw [contains_self value h.1]

end

end NixNas.Spec
