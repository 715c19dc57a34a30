import NixNas.Spec.Yaml

/-!
# Dictionaries of JSON values

The operations that the passes over a document use on it.  A failing one raises in the source.
-/

open Fallible

namespace NixNas.Spec

abbrev Object (F : Type) := List (Text × Plain F)

variable {F : Type}
variable {value : Plain F} {keys : List Text}

def text (value : String) : Plain F := .scalar (.string value.toList)

def number (value : Int) : Plain F := .scalar (.integer value)

def boolean (value : Bool) : Plain F := .scalar (.boolean value)

/-- `KeyError`, `AttributeError` and `TypeError` of a pass that meets an unexpected value. -/
inductive Malformed where
  | keyError (key : Text)
  | attributeError
  | typeError
  deriving DecidableEq, Repr

/-- `object.get(key)`. -/
def find (key : Text) (o : Object F) : Option (Plain F) := o.lookup key

/-- `key in object`. -/
def Has (key : Text) (o : Object F) : Prop := (find key o).isSome = true

instance (key : Text) (o : Object F) : Decidable (Has key o) := inferInstanceAs (Decidable (_ = _))

/-- `object[key]`. -/
def getItem (key : Text) (o : Object F) : Except Malformed (Plain F) :=
  match find key o with
  | none => .error (.keyError key)
  | some value => .ok value

/-- `object[key]` where it has to be an object. -/
def objectItem (key : String) (o : Object F) : Except Malformed (Object F) := do
  match ← getItem key.toList o with
  | .object value => .ok value
  | _ => .error .typeError

/-- `object.setdefault(key, value)`. -/
def setDefault (key : String) (value : Plain F) (o : Object F) : Object F :=
  if Has key.toList o then o else o ++ [(key.toList, value)]

/-- `value == name` for a text `name`. -/
def isText (value : Plain F) (name : String) : Bool :=
  match value with
  | .scalar (.string t) => t = name.toList
  | _ => false

/-- `value in {names}`; an array or an object has no hash. -/
def inTexts (value : Plain F) (names : List String) : Except Malformed Bool :=
  match value with
  | .scalar _ => .ok (names.any (isText value))
  | _ => .error .typeError

def onObject (f : Object F → Except Malformed (Object F)) : Plain F → Except Malformed (Plain F)
  | .object o => (f o).map .object
  | _ => .error .attributeError

/-- The pass over `object[key]`. -/
def onKey (key : String) (f : Object F → Except Malformed (Object F)) (o : Object F) :
    Except Malformed (Object F) := do
  let value ← getItem key.toList o
  let value ← onObject f value
  .ok (setItem o key.toList value)

/-- `for item in object[key]`: the pass over the elements of an array.  The keys of an object and
the characters of a text are no objects. -/
def onItems (key : String) (f : Object F → Except Malformed (Object F)) (o : Object F) :
    Except Malformed (Object F) := do
  match ← getItem key.toList o with
  | .array items =>
    let items ← items.mapM (onObject f)
    .ok (setItem o key.toList (.array items))
  | .object [] | .scalar (.string []) => .ok o
  | .object _ | .scalar (.string _) => .error .attributeError
  | _ => .error .typeError

def onValue (f : Object F → Except Malformed (Object F)) (entry : Text × Plain F) :
    Except Malformed (Text × Plain F) := do
  let value ← onObject f entry.2
  .ok (entry.1, value)

/-- `for value in object[key].values()`. -/
def onValues (key : String) (f : Object F → Except Malformed (Object F)) (o : Object F) :
    Except Malformed (Object F) := do
  match ← getItem key.toList o with
  | .object entries =>
    let entries ← entries.mapM (onValue f)
    .ok (setItem o key.toList (.object entries))
  | _ => .error .attributeError

theorem find_nil (key : Text) : find key ([] : Object F) = none := rfl

theorem find_cons (key : Text) (e : Text × Plain F) (o : Object F) :
    find key (e :: o) = if key = e.1 then some e.2 else find key o := by
  show List.lookup key (e :: o) = _
  rw [List.lookup_cons]
  by_cases h : key = e.1
  · simp [h]
  · rw [if_neg h, beq_false_of_ne h]
    rfl

theorem find_append (key : Text) (o o' : Object F) :
    find key (o ++ o') = (find key o).or (find key o') := by
  induction o with
  | nil => rfl
  | cons e o ih =>
    rw [List.cons_append, find_cons, find_cons, ih]
    split <;> rfl

theorem has_iff_mem {key : Text} {o : Object F} : Has key o ↔ key ∈ o.map Prod.fst := by
  unfold Has
  induction o with
  | nil => simp [find_nil]
  | cons e o ih =>
    rw [find_cons, List.map_cons, List.mem_cons]
    by_cases h : key = e.1
    · simp [h]
    · rw [if_neg h, ih]
      simp [h]

theorem mem_of_find {key : Text} {o : Object F} (h : find key o = some value) :
    (key, value) ∈ o := by
  induction o with
  | nil => cases h
  | cons e o ih =>
    rw [find_cons] at h
    split at h
    · rename_i hkey
      cases h
      rw [hkey]
      exact List.mem_cons_self
    · exact List.mem_cons_of_mem e (ih h)

theorem getItem_ok {key : Text} {o : Object F} :
    getItem key o = .ok value ↔ find key o = some value := by
  unfold getItem
  cases find key o with
  | none => exact ⟨nofun, nofun⟩
  | some v => rw [Except.ok.injEq, Option.some.injEq]

theorem objectItem_ok {key : String} {o value : Object F} (h : objectItem key o = .ok value) :
    find key.toList o = some (.object value) := by
  obtain ⟨v, hv, h⟩ := bind_ok h
  cases v with
  | scalar => cases h
  | array => cases h
  | object =>
    cases h
    exact getItem_ok.mp hv

section Assignments

variable {α : Type} {key key' : Text}

theorem lookup_map_ne (value : α) (h : key' ≠ key) (entries : List (Text × α)) :
    (entries.map fun e ↦ if e.1 = key then (key, value) else e).lookup key' = entries.lookup key' := by
  induction entries with
  | nil => rfl
  | cons e entries ih =>
    rw [List.map_cons, List.lookup_cons, List.lookup_cons, ih]
    by_cases he : e.1 = key
    · rw [if_pos he, beq_false_of_ne h, beq_false_of_ne fun heq => h (heq.trans he)]
    · rw [if_neg he]

theorem lookup_map_self (value : α) {entries : List (Text × α)} (h : key ∈ entries.map Prod.fst) :
    (entries.map fun e ↦ if e.1 = key then (key, value) else e).lookup key = some value := by
  induction entries with
  | nil => cases h
  | cons e entries ih =>
    rw [List.map_cons, List.lookup_cons]
    by_cases he : e.1 = key
    · rw [if_pos he, beq_self_eq_true]
    · rw [if_neg he, beq_false_of_ne fun heq => he heq.symm]
      rw [List.map_cons, List.mem_cons] at h
      exact ih (h.resolve_left fun heq => he heq.symm)

theorem lookup_setItem (entries : List (Text × α)) (key key' : Text) (value : α) :
    (setItem entries key value).lookup key' = if key' = key then some value else entries.lookup key' := by
  unfold setItem
  by_cases hold : key ∈ entries.map Prod.fst
  · rw [if_pos hold]
    by_cases h : key' = key
    · subst h
      rw [if_pos rfl]
      exact lookup_map_self value hold
    · rw [if_neg h]
      exact lookup_map_ne value h entries
  · rw [if_neg hold, List.lookup_append, List.lookup_cons, List.lookup_nil]
    by_cases h : key' = key
    · subst h
      have hnone : entries.lookup key' = none := by
        rw [List.lookup_eq_none_iff]
        intro e he
        have hne : key' ≠ e.1 := by
          intro heq
          rw [heq] at hold
          exact hold (List.mem_map_of_mem he)
        simpa using hne
      rw [if_pos rfl, beq_self_eq_true, hnone, Option.none_or]
    · rw [if_neg h, beq_false_of_ne h, Option.or_none]

end Assignments

theorem find_setItem (key key' : Text) (value : Plain F) (o : Object F) :
    find key' (setItem o key value) = if key' = key then some value else find key' o :=
  lookup_setItem o key key' value

theorem find_setDefault (key : String) (key' : Text) (value : Plain F) (o : Object F) :
    find key' (setDefault key value o) =
      if key' = key.toList then some ((find key' o).getD value) else find key' o := by
  unfold setDefault
  by_cases hhas : Has key.toList o
  · rw [if_pos hhas]
    by_cases h : key' = key.toList
    · subst h
      obtain ⟨v, hv⟩ := Option.isSome_iff_exists.mp hhas
      rw [if_pos rfl, hv]
      rfl
    · rw [if_neg h]
  · rw [if_neg hhas, find_append, find_cons, find_nil]
    by_cases h : key' = key.toList
    · subst h
      rw [if_pos rfl, if_pos rfl, Option.not_isSome_iff_eq_none.mp hhas]
      rfl
    · rw [if_neg h, if_neg h, Option.or_none]

def Frame (keys : List Text) (o o' : Object F) : Prop := ∀ key, key ∉ keys → find key o' = find key o

theorem Frame.refl (keys : List Text) (o : Object F) : Frame keys o o := fun _ _ => rfl

theorem Frame.trans {o o' o'' : Object F} (h : Frame keys o o')
    (h' : Frame keys o' o'') : Frame keys o o'' :=
  fun key hkey => (h' key hkey).trans (h key hkey)

theorem Frame.mono {keys' : List Text} {o o' : Object F} (h : Frame keys o o')
    (hle : keys ⊆ keys') : Frame keys' o o' :=
  fun key hkey => h key fun hmem => hkey (hle hmem)

theorem frame_setItem (key : Text) (value : Plain F) (o : Object F) :
    Frame [key] o (setItem o key value) := by
  intro key' hkey
  rw [find_setItem, if_neg fun heq => hkey (List.mem_singleton.mpr heq)]

theorem frame_setDefault (key : String) (value : Plain F) (o : Object F) :
    Frame [key.toList] o (setDefault key value o) := by
  intro key' hkey
  rw [find_setDefault, if_neg fun heq => hkey (List.mem_singleton.mpr heq)]

variable {key : String} {f : Object F → Except Malformed (Object F)} {o o' : Object F}

theorem onKey_ok (h : onKey key f o = .ok o') :
    ∃ v v', find key.toList o = some (.object v) ∧ f v = .ok v' ∧
      o' = setItem o key.toList (.object v') := by
  obtain ⟨value, hvalue, h⟩ := bind_ok h
  obtain ⟨value', hvalue', h⟩ := bind_ok h
  cases h
  cases value with
  | scalar => cases hvalue'
  | array => cases hvalue'
  | object v =>
    obtain ⟨v', hv', rfl⟩ := map_ok hvalue'
    exact ⟨v, v', getItem_ok.mp hvalue, hv', rfl⟩

theorem frame_onKey (h : onKey key f o = .ok o') : Frame [key.toList] o o' := by
  obtain ⟨_, _, -, -, rfl⟩ := onKey_ok h
  exact frame_setItem _ _ _

theorem onItems_ok (h : onItems key f o = .ok o') :
    o' = o ∨ ∃ items items', find key.toList o = some (.array items) ∧
      items.mapM (onObject f) = .ok items' ∧ o' = setItem o key.toList (.array items') := by
  obtain ⟨value, hvalue, h⟩ := bind_ok h
  split at h
  · obtain ⟨items', hitems, h⟩ := bind_ok h
    cases h
    exact .inr ⟨_, items', getItem_ok.mp hvalue, hitems, rfl⟩
  · cases h
    exact .inl rfl
  · cases h
    exact .inl rfl
  · cases h
  · cases h
  · cases h

theorem frame_onItems (h : onItems key f o = .ok o') : Frame [key.toList] o o' := by
  obtain rfl | ⟨_, _, -, -, rfl⟩ := onItems_ok h
  · exact .refl _ _
  · exact frame_setItem _ _ _

theorem onValues_ok (h : onValues key f o = .ok o') :
    ∃ entries entries', find key.toList o = some (.object entries) ∧
      entries.mapM (onValue f) = .ok entries' ∧
      o' = setItem o key.toList (.object entries') := by
  obtain ⟨value, hvalue, h⟩ := bind_ok h
  split at h
  · obtain ⟨entries', hentries, h⟩ := bind_ok h
    cases h
    exact ⟨_, entries', getItem_ok.mp hvalue, hentries, rfl⟩
  · cases h

theorem frame_onValues (h : onValues key f o = .ok o') : Frame [key.toList] o o' := by
  obtain ⟨_, _, -, -, rfl⟩ := onValues_ok h
  exact frame_setItem _ _ _

theorem onValue_ok {e e' : Text × Plain F} (h : onValue f e = .ok e') :
    ∃ v v', e = (e.1, .object v) ∧ f v = .ok v' ∧ e' = (e.1, .object v') := by
  obtain ⟨key, value⟩ := e
  obtain ⟨value', hvalue, h⟩ := bind_ok h
  cases h
  cases value with
  | scalar => cases hvalue
  | array => cases hvalue
  | object v =>
    obtain ⟨v', hv', rfl⟩ := map_ok hvalue
    exact ⟨v, v', rfl, hv', rfl⟩

end NixNas.Spec
