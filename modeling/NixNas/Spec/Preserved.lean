import NixNas.Spec.Dictionaries

/-!
# Passes that only add

A document is compared with what a pass makes of it path by path.  A pass settles if it keeps all
that was there and has nothing left to do when it is run again; it lasts if it has nothing left to
do either on a document that has grown since.
-/

open Fallible

namespace NixNas.Spec

variable {F : Type} {o o' o'' : Object F} {value value' : Plain F} {key : String}
  {f : Object F → Except Malformed (Object F)}
variable {value'' : Plain F} {name : Text} {items items' : List (Plain F)}
  {v entries entries' : Object F} {defaults : List (String × Plain F)} {keys keys' : List Text}

/-! ## Paths -/

def valueAt : List PathPart → Plain F → Option (Plain F)
  | [], value => some value
  | .key name :: path, .object o => (find name o).bind (valueAt path)
  | .index i :: path, .array items => items[i]?.bind (valueAt path)
  | _ :: _, _ => none

/-- A scalar is the same, an array as long; what a container holds is at longer paths. -/
def SameValue : Plain F → Plain F → Prop
  | .scalar a, .scalar b => a = b
  | .array items, .array items' => items'.length = items.length
  | .object _, .object _ => True
  | _, _ => False

/-- Every path of the first value leads to the same value in the second. -/
def Preserved (before after : Plain F) : Prop :=
  ∀ path value, valueAt path before = some value →
    ∃ value', valueAt path after = some value' ∧ SameValue value value'

theorem sameValue_refl (value : Plain F) : SameValue value value := by
  cases value with
  | scalar => exact rfl
  | array => exact rfl
  | object => trivial

theorem SameValue.trans (h : SameValue value value')
    (h' : SameValue value' value'') : SameValue value value'' := by
  cases value with
  | scalar a =>
    cases value' with
    | scalar b => exact (show a = b from h) ▸ h'
    | array => exact h.elim
    | object => exact h.elim
  | array items =>
    cases value' with
    | scalar => exact h.elim
    | array items' =>
      cases value'' with
      | scalar => exact h'.elim
      | array items'' => exact Eq.trans h' h
      | object => exact h'.elim
    | object => exact h.elim
  | object o =>
    cases value' with
    | scalar => exact h.elim
    | array => exact h.elim
    | object =>
      cases value'' with
      | scalar => exact h'.elim
      | array => exact h'.elim
      | object => trivial

theorem Preserved.refl (value : Plain F) : Preserved value value :=
  fun _ found hfound => ⟨found, hfound, sameValue_refl found⟩

theorem Preserved.trans (h : Preserved value value')
    (h' : Preserved value' value'') : Preserved value value'' := by
  intro path found hfound
  obtain ⟨found', hfound', hsame⟩ := h path found hfound
  obtain ⟨found'', hfound'', hsame'⟩ := h' path found' hfound'
  exact ⟨found'', hfound'', hsame.trans hsame'⟩

theorem preserved_object (h : ∀ name value, find name o = some value →
    ∃ value', find name o' = some value' ∧ Preserved value value') :
    Preserved (.object o) (.object o') := by
  intro path found hfound
  cases path with
  | nil =>
    cases hfound
    exact ⟨.object o', rfl, trivial⟩
  | cons part path =>
    cases part with
    | index i => cases hfound
    | key name =>
      obtain ⟨value, hvalue, hfound⟩ := Option.bind_eq_some_iff.mp hfound
      obtain ⟨value', hvalue', hpreserved⟩ := h name value hvalue
      obtain ⟨found', hfound', hsame⟩ := hpreserved path found hfound
      exact ⟨found', Option.bind_eq_some_iff.mpr ⟨value', hvalue', hfound'⟩, hsame⟩

theorem Preserved.find (h : Preserved (.object o) (.object o')) (hfind : find name o = some value) :
    ∃ value', Spec.find name o' = some value' ∧ Preserved value value' := by
  have hpath : ∀ path : List PathPart, ∀ p : Object F, Spec.find name p = some value →
      valueAt (.key name :: path) (.object p) = valueAt path value := by
    intro path p hp
    show (Spec.find name p).bind (valueAt path) = _
    rw [hp]
    rfl
  obtain ⟨value', hvalue', -⟩ := h [.key name] value (by rw [hpath [] o hfind]; rfl)
  obtain ⟨found, hfound, heq⟩ := Option.bind_eq_some_iff.mp hvalue'
  cases heq
  refine ⟨value', hfound, fun path found hfound' => ?_⟩
  rw [← hpath path o hfind] at hfound'
  obtain ⟨found', hfound'', hsame⟩ := h _ found hfound'
  obtain ⟨v, hv, hrest⟩ := Option.bind_eq_some_iff.mp hfound''
  cases hfound.symm.trans hv
  exact ⟨found', hrest, hsame⟩

theorem preserved_array (h : List.Forall₂ Preserved items items') :
    Preserved (.array items) (.array items') := by
  intro path found hfound
  cases path with
  | nil =>
    cases hfound
    exact ⟨.array items', rfl, h.length_eq.symm⟩
  | cons part path =>
    cases part with
    | key name => cases hfound
    | index i =>
      obtain ⟨value, hvalue, hfound⟩ := Option.bind_eq_some_iff.mp hfound
      obtain ⟨hlt, rfl⟩ := List.getElem?_eq_some_iff.mp hvalue
      have hlt' : i < items'.length := h.length_eq ▸ hlt
      have hpreserved : Preserved items[i] items'[i] := h.get hlt hlt'
      obtain ⟨found', hfound', hsame⟩ := hpreserved path found hfound
      exact ⟨found', Option.bind_eq_some_iff.mpr
        ⟨items'[i], List.getElem?_eq_getElem hlt', hfound'⟩, hsame⟩

theorem Preserved.eq_scalar {a : Scalar F} (h : Preserved (.scalar a) value) : value = .scalar a := by
  obtain ⟨value', hvalue', hsame⟩ := h [] (.scalar a) rfl
  cases hvalue'
  cases value with
  | scalar b => rw [show a = b from hsame]
  | array => exact hsame.elim
  | object => exact hsame.elim

theorem Preserved.exists_object (h : Preserved (.object o) value) : ∃ v, value = .object v := by
  obtain ⟨value', hvalue', hsame⟩ := h [] (.object o) rfl
  cases hvalue'
  cases value with
  | scalar => exact hsame.elim
  | array => exact hsame.elim
  | object v => exact ⟨v, rfl⟩

theorem Preserved.exists_array (h : Preserved (.array items) value) :
    ∃ items', value = .array items' := by
  obtain ⟨value', hvalue', hsame⟩ := h [] (.array items) rfl
  cases hvalue'
  cases value with
  | scalar => exact hsame.elim
  | array items' => exact ⟨items', rfl⟩
  | object => exact hsame.elim

theorem Preserved.find_object (h : Preserved (.object o) (.object o'))
    (hfind : Spec.find name o = some (.object v)) :
    ∃ v', Spec.find name o' = some (.object v') ∧ Preserved (.object v) (.object v') := by
  obtain ⟨value', hvalue', hpreserved⟩ := h.find hfind
  obtain ⟨v', rfl⟩ := hpreserved.exists_object
  exact ⟨v', hvalue', hpreserved⟩

theorem Preserved.has (h : Preserved (.object o) (.object o')) (hhas : Has name o) :
    Has name o' := by
  obtain ⟨value, hvalue⟩ := Option.isSome_iff_exists.mp hhas
  obtain ⟨value', hvalue', -⟩ := h.find hvalue
  unfold Has
  rw [hvalue']
  rfl

/-! ## Assignments -/

theorem find_setItem_self (name : Text) (value : Plain F) (o : Object F) :
    find name (setItem o name value) = some value := by
  rw [find_setItem, if_pos rfl]

theorem preserved_setItem (hold : ∀ old, find name o = some old → Preserved old value) :
    Preserved (.object o) (.object (setItem o name value)) := by
  apply preserved_object
  intro name' found hfound
  rw [find_setItem]
  split
  · rename_i heq
    exact ⟨value, rfl, hold found (heq ▸ hfound)⟩
  · exact ⟨found, hfound, .refl found⟩

theorem preserved_setDefault (key : String) (value : Plain F) (o : Object F) :
    Preserved (.object o) (.object (setDefault key value o)) := by
  apply preserved_object
  intro name found hfound
  rw [find_setDefault]
  split
  · rw [hfound]
    exact ⟨found, rfl, .refl found⟩
  · exact ⟨found, hfound, .refl found⟩

theorem setItem_self (hnodup : (o.map Prod.fst).Nodup)
    (hfind : find name o = some value) : setItem o name value = o := by
  have hmem : name ∈ o.map Prod.fst := List.mem_map_of_mem (f := Prod.fst) (mem_of_find hfind)
  unfold setItem
  rw [if_pos hmem]
  rw [List.map_congr_left (g := id), List.map_id]
  intro e he
  show (if e.1 = name then (name, value) else e) = e
  split
  · rename_i heq
    have hvalue := find_of_mem hnodup he
    rw [heq, hfind, Option.some.injEq] at hvalue
    rw [hvalue, ← heq]
  · rfl

theorem setDefault_self (h : Has key.toList o) : setDefault key value o = o := by
  unfold setDefault
  rw [if_pos h]

/-! ## Runs of defaults -/

@[simp] theorem dict_text (value : String) : Dict (text value : Plain F) := trivial

@[simp] theorem dict_number (value : Int) : Dict (number value : Plain F) := trivial

@[simp] theorem dict_boolean (value : Bool) : Dict (boolean value : Plain F) := trivial

def setDefaults (defaults : List (String × Plain F)) (o : Object F) : Object F :=
  defaults.foldl (fun o d ↦ setDefault d.1 d.2 o) o

theorem preserved_setDefaults (defaults : List (String × Plain F)) (o : Object F) :
    Preserved (.object o) (.object (setDefaults defaults o)) := by
  induction defaults generalizing o with
  | nil => exact .refl _
  | cons d defaults ih => exact (preserved_setDefault d.1 d.2 o).trans (ih _)

theorem Dict.setDefaults (h : Dict (.object o))
    (hvalues : ∀ d ∈ defaults, Dict d.2) : Dict (.object (setDefaults defaults o)) := by
  induction defaults generalizing o with
  | nil => exact h
  | cons d defaults ih =>
    rw [List.forall_mem_cons] at hvalues
    exact ih (h.setDefault d.1 d.2 hvalues.1) hvalues.2

theorem has_setDefaults (defaults : List (String × Plain F)) (o : Object F) :
    ∀ d ∈ defaults, Has d.1.toList (setDefaults defaults o) := by
  induction defaults generalizing o with
  | nil => exact List.forall_mem_nil _
  | cons d defaults ih =>
    rw [List.forall_mem_cons]
    refine ⟨?_, ih _⟩
    apply (preserved_setDefaults defaults (setDefault d.1 d.2 o)).has
    unfold Has
    rw [find_setDefault, if_pos rfl]
    rfl

theorem setDefaults_self (h : ∀ d ∈ defaults, Has d.1.toList o) : setDefaults defaults o = o := by
  induction defaults with
  | nil => rfl
  | cons d defaults ih =>
    rw [List.forall_mem_cons] at h
    show setDefaults defaults (setDefault d.1 d.2 o) = o
    rw [setDefault_self h.1, ih h.2]

theorem setDefaults_later
    (h : Preserved (.object (setDefaults defaults o)) (.object o')) : setDefaults defaults o' = o' :=
  setDefaults_self fun d hd => h.has (has_setDefaults defaults o d hd)

/-! ## Passes that settle -/

/-- The pass keeps what is there, and a second one changes nothing. -/
structure Settles (f : Object F → Except Malformed (Object F)) : Prop where
  keeps : Keeps f
  preserves : ∀ o o', Dict (.object o) → f o = .ok o' → Preserved (.object o) (.object o')
  again : ∀ o o', Dict (.object o) → f o = .ok o' → f o' = .ok o'

/-- A second one changes nothing either where the document has grown in between. -/
structure Lasting (f : Object F → Except Malformed (Object F)) : Prop where
  keeps : Keeps f
  preserves : ∀ o o', Dict (.object o) → f o = .ok o' → Preserved (.object o) (.object o')
  later : ∀ o o' o'', Dict (.object o) → Dict (.object o'') → f o = .ok o' →
    Preserved (.object o') (.object o'') → f o'' = .ok o''

/-- The keys decide whether there is anything left to do. -/
def Local (keys : List Text) (f : Object F → Except Malformed (Object F)) : Prop :=
  ∀ o o', Dict (.object o') → f o = .ok o → (∀ name ∈ keys, find name o' = find name o) →
    f o' = .ok o'

def Frames (keys : List Text) (f : Object F → Except Malformed (Object F)) : Prop :=
  ∀ o o', f o = .ok o' → Frame keys o o'

variable {g : Object F → Except Malformed (Object F)}

theorem Lasting.settles (h : Lasting f) : Settles f where
  keeps := h.keeps
  preserves := h.preserves
  again o o' hdict hpass := h.later o o' o' hdict (h.keeps o o' hpass hdict) hpass (.refl _)

theorem keeps_then (hf : Keeps f) (hg : Keeps g) : Keeps (f >=> g) := by
  intro o o' hpass hdict
  obtain ⟨o₁, hf', hg'⟩ := bind_ok hpass
  exact hg _ _ hg' (hf _ _ hf' hdict)

theorem Lasting.then (hf : Lasting f) (hg : Lasting g) : Lasting (f >=> g) where
  keeps := keeps_then hf.keeps hg.keeps
  preserves o o' hdict hpass := by
    obtain ⟨o₁, hf', hg'⟩ := bind_ok hpass
    exact (hf.preserves _ _ hdict hf').trans
      (hg.preserves _ _ (hf.keeps _ _ hf' hdict) hg')
  later o o' o'' hdict hdict'' hpass hgrown := by
    obtain ⟨o₁, hf', hg'⟩ := bind_ok hpass
    have hdict₁ := hf.keeps _ _ hf' hdict
    have hgrown₁ := (hg.preserves _ _ hdict₁ hg').trans hgrown
    show f o'' >>= g = _
    rw [hf.later _ _ _ hdict hdict'' hf' hgrown₁]
    exact hg.later _ _ _ hdict₁ hdict'' hg' hgrown

theorem settles_then (hf : Settles f) (hg : Settles g)
    (hstable : ∀ o o₁ o', Dict (.object o) → f o = .ok o₁ → g o₁ = .ok o' → f o' = .ok o') :
    Settles (f >=> g) where
  keeps := keeps_then hf.keeps hg.keeps
  preserves o o' hdict hpass := by
    obtain ⟨o₁, hf', hg'⟩ := bind_ok hpass
    exact (hf.preserves _ _ hdict hf').trans
      (hg.preserves _ _ (hf.keeps _ _ hf' hdict) hg')
  again o o' hdict hpass := by
    obtain ⟨o₁, hf', hg'⟩ := bind_ok hpass
    show f o' >>= g = _
    rw [hstable _ _ _ hdict hf' hg']
    exact hg.again _ _ (hf.keeps _ _ hf' hdict) hg'

theorem Lasting.then_settles (hf : Lasting f) (hg : Settles g) : Settles (f >=> g) := by
  apply settles_then hf.settles hg
  intro o o₁ o' hdict hf' hg'
  have hdict₁ := hf.keeps _ _ hf' hdict
  exact hf.later _ _ _ hdict (hg.keeps _ _ hg' hdict₁) hf' (hg.preserves _ _ hdict₁ hg')

theorem Settles.then (hf : Settles f) (hlocal : Local keys f)
    (hg : Settles g) (hframes : Frames keys' g) (hdisjoint : ∀ name ∈ keys, name ∉ keys') :
    Settles (f >=> g) := by
  apply settles_then hf hg
  intro o o₁ o' hdict hf' hg'
  have hdict₁ := hf.keeps _ _ hf' hdict
  apply hlocal o₁ o' (hg.keeps _ _ hg' hdict₁) (hf.again _ _ hdict hf')
  intro name hname
  exact hframes _ _ hg' name (hdisjoint name hname)

theorem Frames.then (hf : Frames keys f) (hg : Frames keys' g) :
    Frames (keys ++ keys') (f >=> g) := by
  intro o o' hpass
  obtain ⟨o₁, hf', hg'⟩ := bind_ok hpass
  exact ((hf _ _ hf').mono (List.subset_append_left _ _)).trans
    ((hg _ _ hg').mono (List.subset_append_right _ _))

/-! ## Passes of defaults -/

def defaulting (defaults : List (String × Plain F)) (o : Object F) : Except Malformed (Object F) :=
  .ok (setDefaults defaults o)

theorem lasting_defaulting
    (hvalues : ∀ d ∈ defaults, Dict d.2) : Lasting (defaulting defaults) where
  keeps := keeps_ok fun _ hdict => hdict.setDefaults hvalues
  preserves := by
    rintro o _ - ⟨⟩
    exact preserved_setDefaults defaults o
  later := by
    rintro o _ o'' - - ⟨⟩ hgrown
    exact congrArg Except.ok (setDefaults_later hgrown)

theorem lasting_ok : Lasting fun o : Object F ↦ .ok o :=
  lasting_defaulting (List.forall_mem_nil _)

theorem frames_defaulting (defaults : List (String × Plain F)) :
    Frames (defaults.map fun d ↦ d.1.toList) (defaulting defaults) := by
  rintro o _ ⟨⟩
  induction defaults generalizing o with
  | nil => exact .refl _ _
  | cons d defaults ih =>
    have hfirst := (frame_setDefault d.1 d.2 o).mono
      (List.cons_subset_cons d.1.toList (List.nil_subset (defaults.map fun d ↦ d.1.toList)))
    exact hfirst.trans ((ih _).mono (List.subset_cons_self _ _))

/-! ## Passes that look at a value -/

theorem isText_preserved (h : Preserved value value') (name : String) :
    isText value' name = isText value name := by
  cases value with
  | scalar a => rw [h.eq_scalar]
  | array =>
    obtain ⟨items', rfl⟩ := h.exists_array
    rfl
  | object =>
    obtain ⟨v, rfl⟩ := h.exists_object
    rfl

theorem inTexts_preserved (h : Preserved value value') (names : List String) :
    inTexts value' names = inTexts value names := by
  cases value with
  | scalar a => rw [h.eq_scalar]
  | array =>
    obtain ⟨items', rfl⟩ := h.exists_array
    rfl
  | object =>
    obtain ⟨v, rfl⟩ := h.exists_object
    rfl

theorem lasting_getItem {f : Plain F → Object F → Except Malformed (Object F)}
    (hf : ∀ value, Lasting (f value))
    (hsame : ∀ value value', Preserved value value' → f value' = f value) :
    Lasting fun o ↦ getItem name o >>= fun value ↦ f value o where
  keeps o o' hpass hdict := by
    obtain ⟨value, -, hpass⟩ := bind_ok hpass
    exact (hf value).keeps _ _ hpass hdict
  preserves o o' hdict hpass := by
    obtain ⟨value, -, hpass⟩ := bind_ok hpass
    exact (hf value).preserves _ _ hdict hpass
  later o o' o'' hdict hdict'' hpass hgrown := by
    obtain ⟨value, hvalue, hpass⟩ := bind_ok hpass
    have hall := ((hf value).preserves _ _ hdict hpass).trans hgrown
    obtain ⟨value', hvalue', hpreserved⟩ := hall.find (getItem_ok.mp hvalue)
    show getItem name o'' >>= _ = _
    rw [getItem_ok.mpr hvalue']
    show f value' o'' = _
    rw [hsame value value' hpreserved]
    exact (hf value).later _ _ _ hdict hdict'' hpass hgrown

theorem settles_getItem {f : Plain F → Object F → Except Malformed (Object F)}
    (hf : ∀ value, Settles (f value))
    (hsame : ∀ value value', Preserved value value' → f value' = f value) :
    Settles fun o ↦ getItem name o >>= fun value ↦ f value o where
  keeps o o' hpass hdict := by
    obtain ⟨value, -, hpass⟩ := bind_ok hpass
    exact (hf value).keeps _ _ hpass hdict
  preserves o o' hdict hpass := by
    obtain ⟨value, -, hpass⟩ := bind_ok hpass
    exact (hf value).preserves _ _ hdict hpass
  again o o' hdict hpass := by
    obtain ⟨value, hvalue, hpass⟩ := bind_ok hpass
    obtain ⟨value', hvalue', hpreserved⟩ :=
      ((hf value).preserves _ _ hdict hpass).find (getItem_ok.mp hvalue)
    show getItem name o' >>= _ = _
    rw [getItem_ok.mpr hvalue']
    show f value' o' = _
    rw [hsame value value' hpreserved]
    exact (hf value).again _ _ hdict hpass

/-! ## Passes over one key -/

theorem onKey_of_find {v' : Object F} (hfind : find key.toList o = some (.object v))
    (hv : f v = .ok v') : onKey key f o = .ok (setItem o key.toList (.object v')) := by
  unfold onKey
  rw [getItem_ok.mpr hfind]
  show (onObject f (.object v) >>= _) = _
  rw [onObject, hv]
  rfl

theorem onKey_self (hdict : Dict (.object o))
    (hfind : find key.toList o = some (.object v)) (hv : f v = .ok v) : onKey key f o = .ok o := by
  rw [onKey_of_find hfind hv, setItem_self hdict.1 hfind]

theorem preserved_onKey
    (hf : ∀ o o', Dict (.object o) → f o = .ok o' → Preserved (.object o) (.object o'))
    (hdict : Dict (.object o)) (h : onKey key f o = .ok o') :
    Preserved (.object o) (.object o') := by
  obtain ⟨v, v', hfind, hv, rfl⟩ := onKey_ok h
  apply preserved_setItem
  intro old hold
  cases hfind.symm.trans hold
  exact hf v v' (hdict.of_find hfind) hv

theorem lasting_onKey (hf : Lasting f) (key : String) : Lasting (onKey key f) where
  keeps _ _ hpass hdict := hdict.onKey hpass hf.keeps
  preserves _ _ hdict hpass := preserved_onKey hf.preserves hdict hpass
  later o o' o'' hdict hdict'' hpass hgrown := by
    obtain ⟨v, v', hfind, hv, rfl⟩ := onKey_ok hpass
    obtain ⟨v'', hfind'', hpreserved⟩ := hgrown.find_object (find_setItem_self _ _ _)
    apply onKey_self hdict'' hfind''
    exact hf.later v v' v'' (hdict.of_find hfind) (hdict''.of_find hfind'') hv hpreserved

theorem settles_onKey (hf : Settles f) (key : String) : Settles (onKey key f) where
  keeps _ _ hpass hdict := hdict.onKey hpass hf.keeps
  preserves _ _ hdict hpass := preserved_onKey hf.preserves hdict hpass
  again o o' hdict hpass := by
    have hdict' := hdict.onKey hpass hf.keeps
    obtain ⟨v, v', hfind, hv, rfl⟩ := onKey_ok hpass
    exact onKey_self hdict' (find_setItem_self _ _ _) (hf.again v v' (hdict.of_find hfind) hv)

theorem frames_onKey (key : String) (f : Object F → Except Malformed (Object F)) :
    Frames [key.toList] (onKey key f) :=
  fun _ _ => frame_onKey

theorem local_onKey (key : String) (f : Object F → Except Malformed (Object F)) :
    Local [key.toList] (onKey key f) := by
  intro o o' hdict h hkeys
  have hfind := hkeys key.toList (List.mem_singleton_self _)
  obtain ⟨v, v', hv, hpass, heq⟩ := onKey_ok h
  have hsame : find key.toList o = some (.object v') := by
    conv_lhs => rw [heq]
    exact find_setItem_self _ _ _
  cases hv.symm.trans hsame
  exact onKey_self hdict (hfind.trans hv) hpass

/-! ## Passes over a key that may be absent -/

def ifPresent (name : Text) (f : Object F → Except Malformed (Object F)) (o : Object F) :
    Except Malformed (Object F) :=
  if Has name o then f o else .ok o

theorem ifPresent_ok (h : ifPresent name f o = .ok o') :
    (Has name o ∧ f o = .ok o') ∨ (¬ Has name o ∧ o' = o) := by
  unfold ifPresent at h
  split at h
  · rename_i hhas
    exact .inl ⟨hhas, h⟩
  · rename_i hnot
    cases h
    exact .inr ⟨hnot, rfl⟩

theorem settles_ifPresent (hf : Settles f) (name : Text) : Settles (ifPresent name f) where
  keeps o o' hpass hdict := by
    rcases ifPresent_ok hpass with ⟨-, hpass⟩ | ⟨-, rfl⟩
    · exact hf.keeps _ _ hpass hdict
    · exact hdict
  preserves o o' hdict hpass := by
    rcases ifPresent_ok hpass with ⟨-, hpass⟩ | ⟨-, rfl⟩
    · exact hf.preserves _ _ hdict hpass
    · exact .refl _
  again o o' hdict hpass := by
    rcases ifPresent_ok hpass with ⟨hhas, hpass⟩ | ⟨hnot, rfl⟩
    · unfold ifPresent
      rw [if_pos ((hf.preserves _ _ hdict hpass).has hhas)]
      exact hf.again _ _ hdict hpass
    · exact if_neg hnot

theorem has_congr (h : find name o' = find name o) : Has name o' ↔ Has name o := by
  unfold Has
  rw [h]

theorem local_ifPresent (hf : Local [name] f) : Local [name] (ifPresent name f) := by
  intro o o' hdict hpass hkeys
  have hfind := has_congr (hkeys name (List.mem_singleton_self _))
  unfold ifPresent
  rcases ifPresent_ok hpass with ⟨hhas, hpass⟩ | ⟨hnot, -⟩
  · rw [if_pos (hfind.mpr hhas)]
    exact hf o o' hdict hpass hkeys
  · exact if_neg fun hhas => hnot (hfind.mp hhas)

theorem frames_ifPresent (hf : Frames keys f) : Frames keys (ifPresent name f) := by
  intro o o' hpass
  rcases ifPresent_ok hpass with ⟨-, hpass⟩ | ⟨-, rfl⟩
  · exact hf _ _ hpass
  · exact .refl _ _

/-! ## Passes over the items of a key -/

theorem mapM_settles (hf : Settles f) (hdict : DictItems items)
    (h : items.mapM (onObject f) = .ok items') :
    List.Forall₂ Preserved items items' ∧ items'.mapM (onObject f) = .ok items' := by
  have hpairs := mapM_ok h
  clear h
  induction hpairs with
  | nil => exact ⟨.nil, rfl⟩
  | @cons item item' items items' hone _ ih =>
    cases item with
    | scalar => cases hone
    | array => cases hone
    | object v =>
      obtain ⟨v', hv', rfl⟩ := map_ok hone
      obtain ⟨hrest, hrest'⟩ := ih hdict.2
      refine ⟨.cons (hf.preserves v v' hdict.1 hv') hrest, ?_⟩
      rw [List.mapM_cons, onObject, hf.again v v' hdict.1 hv', hrest']
      rfl

theorem onItems_of_find
    (hfind : find key.toList o = some (.array items)) (h : items.mapM (onObject f) = .ok items') :
    onItems key f o = .ok (setItem o key.toList (.array items')) := by
  unfold onItems
  rw [getItem_ok.mpr hfind]
  show (items.mapM (onObject f) >>= _) = _
  rw [h]
  rfl

theorem settles_onItems (hf : Settles f) (key : String) : Settles (onItems key f) where
  keeps _ _ hpass hdict := hdict.onItems hpass hf.keeps
  preserves o o' hdict hpass := by
    rcases onItems_ok hpass with rfl | ⟨items, items', hfind, hmap, rfl⟩
    · exact .refl _
    · apply preserved_setItem
      intro old hold
      cases hfind.symm.trans hold
      exact preserved_array (mapM_settles hf (hdict.of_find hfind) hmap).1
  again o o' hdict hpass := by
    have hdict' := hdict.onItems hpass hf.keeps
    rcases onItems_ok hpass with rfl | ⟨items, items', hfind, hmap, rfl⟩
    · exact hpass
    · have hfind' := find_setItem_self key.toList (.array items') o
      rw [onItems_of_find hfind' (mapM_settles hf (hdict.of_find hfind) hmap).2]
      exact congrArg Except.ok (setItem_self hdict'.1 hfind')

theorem frames_onItems (key : String) (f : Object F → Except Malformed (Object F)) :
    Frames [key.toList] (onItems key f) :=
  fun _ _ => frame_onItems

theorem local_onItems (key : String) (f : Object F → Except Malformed (Object F)) :
    Local [key.toList] (onItems key f) := by
  intro o o' hdict h hkeys
  have hfind := hkeys key.toList (List.mem_singleton_self _)
  unfold onItems at h ⊢
  obtain ⟨value, hvalue, h⟩ := bind_ok h
  have hvalue' := getItem_ok.mpr (hfind.trans (getItem_ok.mp hvalue))
  rw [hvalue']
  dsimp only [Bind.bind, Except.bind]
  split at h
  · rename_i items
    obtain ⟨items', hmap, heq⟩ := bind_ok h
    have hsame : find key.toList o = some (.array items') := by
      rw [← Except.ok.inj heq, find_setItem_self]
    cases (getItem_ok.mp hvalue).symm.trans hsame
    show (items.mapM (onObject f) >>= _) = _
    rw [hmap]
    show Except.ok (setItem o' key.toList (.array items)) = _
    rw [setItem_self hdict.1 (getItem_ok.mp hvalue')]
  · rfl
  · rfl
  · cases h
  · cases h
  · cases h

/-! ## Passes over the values of a key -/

theorem mapM_onValue_settles (hf : Settles f)
    (hdict : DictEntries entries) (h : entries.mapM (onValue f) = .ok entries') :
    List.Forall₂ (fun e e' ↦ e'.1 = e.1 ∧ Preserved e.2 e'.2) entries entries' ∧
      entries'.mapM (onValue f) = .ok entries' := by
  have hpairs := mapM_ok h
  clear h
  induction hpairs with
  | nil => exact ⟨.nil, rfl⟩
  | @cons e e' entries entries' hone _ ih =>
    obtain ⟨v, v', heq, hv, rfl⟩ := onValue_ok hone
    obtain ⟨name, value⟩ := e
    cases heq
    obtain ⟨hrest, hrest'⟩ := ih hdict.2
    refine ⟨.cons ⟨rfl, hf.preserves v v' hdict.1 hv⟩ hrest, ?_⟩
    rw [List.mapM_cons, onValue, onObject, hf.again v v' hdict.1 hv, hrest']
    rfl

theorem preserved_entries
    (h : List.Forall₂ (fun e e' ↦ e'.1 = e.1 ∧ Preserved e.2 e'.2) entries entries') :
    Preserved (.object entries) (.object entries') := by
  apply preserved_object
  intro name value hvalue
  induction h with
  | nil => cases hvalue
  | cons hone _ ih =>
    rw [find_cons] at hvalue ⊢
    rw [hone.1]
    split at hvalue
    · rename_i heq
      cases hvalue
      rw [if_pos heq]
      exact ⟨_, rfl, hone.2⟩
    · rename_i hne
      rw [if_neg hne]
      exact ih hvalue

theorem onValues_of_find (hfind : find key.toList o = some (.object entries))
    (h : entries.mapM (onValue f) = .ok entries') :
    onValues key f o = .ok (setItem o key.toList (.object entries')) := by
  unfold onValues
  rw [getItem_ok.mpr hfind]
  show (entries.mapM (onValue f) >>= _) = _
  rw [h]
  rfl

theorem settles_onValues (hf : Settles f) (key : String) : Settles (onValues key f) where
  keeps _ _ hpass hdict := hdict.onValues hpass hf.keeps
  preserves o o' hdict hpass := by
    obtain ⟨entries, entries', hfind, hmap, rfl⟩ := onValues_ok hpass
    have hentries : Dict (.object entries) := hdict.of_find hfind
    apply preserved_setItem
    intro old hold
    cases hfind.symm.trans hold
    exact preserved_entries (mapM_onValue_settles hf hentries.2 hmap).1
  again o o' hdict hpass := by
    have hdict' := hdict.onValues hpass hf.keeps
    obtain ⟨entries, entries', hfind, hmap, rfl⟩ := onValues_ok hpass
    have hentries : Dict (.object entries) := hdict.of_find hfind
    have hfind' := find_setItem_self key.toList (.object entries') o
    rw [onValues_of_find hfind' (mapM_onValue_settles hf hentries.2 hmap).2]
    exact congrArg Except.ok (setItem_self hdict'.1 hfind')

theorem frames_onValues (key : String) (f : Object F → Except Malformed (Object F)) :
    Frames [key.toList] (onValues key f) :=
  fun _ _ => frame_onValues

theorem local_onValues (key : String) (f : Object F → Except Malformed (Object F)) :
    Local [key.toList] (onValues key f) := by
  intro o o' hdict h hkeys
  have hfind := hkeys key.toList (List.mem_singleton_self _)
  obtain ⟨entries, entries', hv, hmap, heq⟩ := onValues_ok h
  have hsame : find key.toList o = some (.object entries') := by
    conv_lhs => rw [heq]
    exact find_setItem_self _ _ _
  cases hv.symm.trans hsame
  have hv' := hfind.trans hv
  rw [onValues_of_find hv' hmap, setItem_self hdict.1 hv']

end NixNas.Spec
