import NixNas.Accelerator.Materials
import NixNas.Editor.Status

/-!
# When the status verifies every service

The expected service of `status` and the compiled one differ in the accelerators alone.
-/

open Fallible

namespace NixNas.Editor

open Spec Accelerator

variable {F : Type} {float : FloatEq F} {o service : Object F} {key name : String}
variable {k : Text} {value value' : Plain F} {r w : Object F}

/-! ## Stored objects -/

@[simp] theorem find_storedEntries_toList :
    find key.toList (storedEntries o) = (find key.toList o).map stored := find_storedEntries o _

@[simp] theorem isText_stored (value : Plain F) : isText (stored value) name = isText value name := by
  cases value with
  | scalar => rfl
  | array items => rw [stored]; rfl
  | object o => rw [stored]; rfl

@[simp] theorem keyIs_storedEntries : keyIs key name (storedEntries o) = keyIs key name o := by
  unfold keyIs
  rw [find_storedEntries_toList]
  cases find key.toList o with
  | none => rfl
  | some value => exact isText_stored value

theorem asObject_stored (value : Option (Plain F)) :
    asObject (value.map stored) = storedEntries (asObject value) := by
  cases value with
  | none => rfl
  | some value =>
    cases value with
    | scalar => rfl
    | array items => rw [Option.map_some, stored]; rfl
    | object o => rw [Option.map_some, stored]; rfl

theorem isPositiveInt_stored (value : Option (Plain F)) :
    isPositiveInt (value.map stored) = isPositiveInt value := by
  cases value with
  | none => rfl
  | some value =>
    cases value with
    | scalar => rfl
    | array items => rw [Option.map_some, stored]; rfl
    | object o => rw [Option.map_some, stored]; rfl

/-! ## The accelerators are the only difference -/

theorem find_withAccelerators (values : List (Plain F)) (k : Text) (hk : k ≠ "resources".toList) :
    find k (withAccelerators service values) = find k service := by
  unfold withAccelerators
  rw [find_setItem, if_neg hk]

/-- After an assignment the object contains what it was, when the new value contains the old one
and the other values equal themselves. -/
theorem containsEntries_setItem (hdict : Dict (.object o)) (hfind : find k o = some value) :
    containsEntries float (setItem o k value') o = true ↔
      contains float value' value = true ∧ ∀ e ∈ o, e.1 ≠ k → NoNan float e.2 := by
  rw [containsEntries_iff]
  have hown : ∀ e ∈ o, find e.1 o = some e.2 := fun e he => find_of_mem hdict.1 he
  have hself : ∀ e ∈ o, (contains float e.2 e.2 = true ↔ NoNan float e.2) := fun e he =>
    contains_self e.2 (dictEntries_iff.mp hdict.2 e he)
  constructor
  · intro h
    constructor
    · obtain ⟨found, hfound, hcontains⟩ := h _ (mem_of_find hfind)
      rw [find_setItem, if_pos rfl, Option.some.injEq] at hfound
      exact hfound ▸ hcontains
    · intro e he hne
      obtain ⟨found, hfound, hcontains⟩ := h e he
      rw [find_setItem, if_neg hne, hown e he, Option.some.injEq] at hfound
      exact (hself e he).mp (hfound ▸ hcontains)
  · rintro ⟨hcontains, hothers⟩ e he
    rw [find_setItem]
    by_cases hk : e.1 = k
    · rw [if_pos hk]
      have hvalue : e.2 = value := by
        have hown := hown e he
        rw [hk, hfind] at hown
        exact (Option.some.inj hown).symm
      exact ⟨value', rfl, hvalue ▸ hcontains⟩
    · rw [if_neg hk]
      exact ⟨e.2, hown e he, (hself e he).mpr (hothers e he hk)⟩

theorem noNan_setItem (hfind : find k o = some value) :
    NoNan float (.object (setItem o k value')) ↔
      NoNan float value' ∧ ∀ e ∈ o, e.1 ≠ k → NoNan float e.2 := by
  have hmem : k ∈ o.map Prod.fst := has_iff_mem.mp (has_of_find hfind)
  show NoNanEntries float (setItem o k value') ↔ _
  rw [noNanEntries_iff, setItem, if_pos hmem, List.forall_mem_map]
  constructor
  · intro h
    constructor
    · have hown := h _ (mem_of_find hfind)
      rwa [if_pos rfl] at hown
    · intro e he hne
      have hother := h e he
      rwa [if_neg hne] at hother
  · rintro ⟨hvalue, hothers⟩ e he
    split
    · exact hvalue
    · rename_i hne
      exact hothers e he hne

theorem contains_withAccelerators (hdict : Dict (.object service))
    {requests values : List (Plain F)} (hr : find "resources".toList service = some (.object r))
    (hrequests : find "accelerators".toList r = some (.array requests)) :
    contains float (.object (withAccelerators service values)) (.object service) = true ↔
      eqItems float values requests = true ∧
        NoNan float (.object (withAccelerators service [])) := by
  have hdict' : Dict (.object r) := hdict.of_find hr
  unfold withAccelerators
  rw [hr, noNan_setItem hr]
  show containsEntries float _ _ = true ↔ _
  rw [containsEntries_setItem hdict hr]
  show containsEntries float (setItem r _ _) r = true ∧ _ ↔
    _ ∧ NoNan float (.object (setItem r _ _)) ∧ _
  rw [containsEntries_setItem hdict' hrequests, noNan_setItem hrequests]
  show (eqItems float values requests = true ∧ _) ∧ _ ↔ _ ∧ (True ∧ _) ∧ _
  tauto

/-! ## The other checks -/

/-- An `idleSeconds` that is asked for is written as an integer. -/
def IdleWhole (service : Object F) : Prop :=
  ∀ w, find "workload".toList service = some (.object w) →
    keyIs "activation" "on-demand" w = true →
      ∀ x, find "idleSeconds".toList w ≠ some (.scalar (.float x))

theorem isValidWorkload_stored (w : Object F) :
    isValidWorkload (storedEntries w) = isValidWorkload w := by
  unfold isValidWorkload
  simp only [keyIs_storedEntries, find_storedEntries_toList, isPositiveInt_stored]
  have harray : isArray ((find "schedules".toList w).map stored) =
      isArray (find "schedules".toList w) := by
    cases find "schedules".toList w with
    | none => rfl
    | some value =>
      cases value with
      | scalar => rfl
      | array items => rw [Option.map_some, stored]; rfl
      | object o => rw [Option.map_some, stored]; rfl
  rw [harray]

theorem has_find (h : Has k o) : ∃ value, find k o = some value :=
  Option.isSome_iff_exists.mp h

/-- With an activation on demand the rules let a daemon with an `idleSeconds` through. -/
theorem idleSeconds_of_checkWorkload {serviceId : Text}
    (hcheck : checkWorkload serviceId service = .ok ())
    (hw : find "workload".toList service = some (.object w)) (hschema : WorkloadSchema float w)
    (hactivation : keyIs "activation" "on-demand" w = true) : Has "idleSeconds".toList w := by
  have hhas : Has "activation".toList w := has_of_find (keyIs_iff.mp hactivation)
  have hkind : (keyIs "kind" "daemon" w = true ∨ keyIs "kind" "job" w = true) ∨
      keyIs "kind" "session" w = true := by
    obtain ⟨name, hname, hfind⟩ := hschema.kind
    simp only [List.mem_cons, List.not_mem_nil, or_false] at hname
    simp only [keyIs_iff, hfind, Option.some.injEq]
    obtain rfl | rfl | rfl := hname
    · exact .inl (.inl rfl)
    · exact .inl (.inr rfl)
    · exact .inr rfl
  unfold checkWorkload at hcheck
  simp only [hw, asObject, hactivation, true_and] at hcheck
  split at hcheck
  · by_contra hidle
    rw [if_pos hidle] at hcheck
    cases hcheck
  split at hcheck
  · -- a job has no activation
    rw [if_pos (.inl hhas)] at hcheck
    cases hcheck
  split at hcheck
  · rw [if_pos (.inl hhas)] at hcheck
    cases hcheck
  · simp_all

theorem isValidWorkload_iff {serviceId : Text} (hcheck : checkWorkload serviceId service = .ok ())
    (hw : find "workload".toList service = some (.object w)) (hschema : WorkloadSchema float w)
    (hnormal : Normalized service) : isValidWorkload w = true ↔ IdleWhole service := by
  have hkind : (keyIs "kind" "daemon" w || keyIs "kind" "job" w || keyIs "kind" "session" w) =
      true := by
    obtain ⟨name, hname, hfind⟩ := hschema.kind
    simp only [List.mem_cons, List.not_mem_nil, or_false] at hname
    simp only [Bool.or_eq_true, keyIs_iff, hfind, Option.some.injEq]
    obtain rfl | rfl | rfl := hname <;> simp
  have hdaemon : (!keyIs "kind" "daemon" w || keyIs "activation" "persistent" w ||
      keyIs "activation" "on-demand" w) = true := by
    cases hdaemon : keyIs "kind" "daemon" w with
    | false => rfl
    | true =>
      obtain ⟨value, hvalue⟩ := has_find (hnormal.activation w hw hdaemon)
      obtain ⟨name, hname, rfl⟩ := hschema.activation value hvalue
      simp only [List.mem_cons, List.not_mem_nil, or_false] at hname
      simp only [Bool.or_eq_true, keyIs_iff, hvalue, Option.some.injEq]
      obtain rfl | rfl := hname <;> simp
  have hjob : (!keyIs "kind" "job" w || isArray (find "schedules".toList w)) = true := by
    cases hjob : keyIs "kind" "job" w with
    | false => rfl
    | true =>
      obtain ⟨value, hvalue⟩ := has_find (hnormal.schedules w hw hjob)
      obtain ⟨items, rfl⟩ := hschema.schedules value hvalue
      rw [hvalue]
      rfl
  unfold isValidWorkload
  rw [hkind, hdaemon, hjob, Bool.true_and, Bool.true_and, Bool.and_true]
  constructor
  · intro hidle found hfound hactivation x hx
    cases hw.symm.trans hfound
    rw [hactivation, hx] at hidle
    cases hidle
  · intro hidle
    cases hactivation : keyIs "activation" "on-demand" w with
    | false => rfl
    | true =>
      obtain ⟨value, hvalue⟩ := has_find (idleSeconds_of_checkWorkload hcheck hw hschema hactivation)
      obtain ⟨n, rfl, hn⟩ | ⟨x, rfl, -⟩ := hschema.idleSeconds value hvalue
      · rw [hvalue]
        show decide (0 < n) = true
        rw [decide_eq_true_eq]
        omega
      · exact absurd hvalue (hidle w hw hactivation x)

theorem ownerUnit_stored (serviceId : Text) (o : Object F) :
    ownerUnit serviceId (storedEntries o) = ownerUnit serviceId o := by
  unfold ownerUnit
  rw [find_storedEntries_toList]
  cases find "runtime".toList o with
  | none => rfl
  | some value =>
    cases value with
    | scalar => rfl
    | array items => rw [Option.map_some, stored]
    | object r =>
      rw [Option.map_some, stored]
      simp only [keyIs_storedEntries, find_storedEntries_toList]
      congr 1
      cases find "unit".toList r with
      | none => rfl
      | some unit =>
        cases unit with
        | scalar => rfl
        | array items => rw [Option.map_some, stored]
        | object o => rw [Option.map_some, stored]

theorem ownerUnit_withAccelerators (serviceId : Text) (values : List (Plain F)) :
    ownerUnit serviceId (withAccelerators service values) = ownerUnit serviceId service := by
  unfold ownerUnit
  rw [find_withAccelerators values _ (by decide)]

/-- The derived metadata names the unit that `status` expects. -/
theorem derivedRuntime_ok {serviceId : Text} {derived : Object F}
    (h : derivedRuntime serviceId service = .ok derived)
    (hr : find "runtime".toList service = some (.object r)) (hschema : RuntimeSchema r) :
    ∃ owner runtimeType managed, ownerUnit serviceId service = some owner ∧ runtimeType.toList ≠ [] ∧
      find "type".toList r = some (text runtimeType) ∧
      find "managed".toList service = some managed ∧
      derived = [("type".toList, text runtimeType), ("ownerUnit".toList, .scalar (.string owner)),
        ("managed".toList, managed)] := by
  obtain ⟨runtimeType, hmem, htype⟩ := hschema.type
  have hne : runtimeType.toList ≠ [] := by
    have hall : ∀ name ∈ runtimeTypes, name.toList ≠ [] := by decide
    exact hall runtimeType hmem
  obtain ⟨found, hfound, h⟩ := bind_ok h
  cases hr.symm.trans (objectItem_ok hfound)
  obtain ⟨value, hvalue, h⟩ := bind_ok h
  cases htype.symm.trans (getItem_ok.mp hvalue)
  obtain ⟨unit, hunit, h⟩ := bind_ok h
  obtain ⟨managed, hmanaged, h⟩ := bind_ok h
  cases h
  have hnamed : ∃ owner, ownerUnit serviceId service = some owner ∧
      unit = .scalar (.string owner) := by
    obtain ⟨value, hvalue, howner⟩ := bind_ok hunit
    cases htype.symm.trans (getItem_ok.mp hvalue)
    unfold ownerUnit
    simp only [hr, keyIs, htype, Option.any_some]
    split at howner
    · rename_i hsystemd
      obtain ⟨name, hname, hne⟩ := hschema.unit (by
        unfold keyIs
        rw [htype]
        exact hsystemd)
      cases hname.symm.trans (getItem_ok.mp howner)
      rw [if_pos hsystemd, hname]
      exact ⟨name, if_neg hne, rfl⟩
    · rename_i hsystemd
      rw [if_neg hsystemd]
      split at howner
      · rename_i hcompose
        cases howner
        rw [if_pos hcompose]
        exact ⟨_, rfl, by simp [joinText]⟩
      · rename_i hcompose
        cases howner
        rw [if_neg hcompose]
        exact ⟨_, rfl, by simp [joinText]⟩
  obtain ⟨owner, howner, rfl⟩ := hnamed
  exact ⟨owner, runtimeType, managed, howner, hne, htype, getItem_ok.mp hmanaged, rfl⟩

theorem eq_text_self (t : Text) :
    eq float (.scalar (.string t)) (.scalar (.string t)) = true := by
  rw [eq_string, decide_eq_true rfl]

structure CompiledService (float : FloatEq F) (serviceId : Text) (service derived : Object F) :
    Prop where
  dict : Dict (.object service)
  schema : ServiceSchema float service
  normal : Normalized service
  workload : checkWorkload serviceId service = .ok ()
  accelerators : ∀ item ∈ accelerators service, ∃ i, checkAccelerator serviceId
    (asObject (find "runtime".toList service)) i (asObject (some item)) = .ok ()
  derived : derivedRuntime serviceId service = .ok derived

variable {serviceId : Text} {derived : Object F} {values : List (Plain F)}

theorem CompiledService.boolean (h : CompiledService float serviceId service derived) :
    (∃ b, find "enabled".toList service = some (boolean b)) ∧
      ∃ b, find "managed".toList service = some (boolean b) := by
  obtain ⟨enabled, henabled⟩ := has_find h.normal.enabled
  obtain ⟨managed, hmanaged⟩ := has_find h.normal.managed
  obtain ⟨b, rfl⟩ := h.schema.enabled enabled henabled
  obtain ⟨c, rfl⟩ := h.schema.managed managed hmanaged
  exact ⟨⟨b, henabled⟩, c, hmanaged⟩

theorem CompiledService.requests (h : CompiledService float serviceId service derived) :
    ∃ r, find "resources".toList service = some (.object r) ∧
      find "accelerators".toList r = some (.array (Spec.accelerators service)) ∧
      Requests float (Spec.accelerators service) := by
  obtain ⟨r, hr, hdefaults, hhas⟩ := h.normal.resources
  obtain ⟨value, hvalue⟩ := has_find hhas
  obtain ⟨items, rfl, hitems⟩ := h.schema.accelerators r hr value hvalue
  have haccelerators : Spec.accelerators service = items := by
    unfold Spec.accelerators
    rw [hr]
    show asArray (find _ r) = items
    rw [hvalue]
    rfl
  rw [haccelerators]
  refine ⟨r, hr, hvalue, fun item hitem => ?_⟩
  obtain ⟨a, rfl, hschema⟩ := hitems item hitem
  obtain ⟨_, ⟨⟩, hnormal⟩ := hdefaults items hvalue _ hitem
  have hdict : DictItems items := (h.dict.of_find hr).of_find hvalue
  exact ⟨a, rfl, dictItems_iff.mp hdict _ hitem, hschema, hnormal⟩

theorem isValidRuntime_compiled (h : CompiledService float serviceId service derived) :
    isValidRuntime float serviceId (storedEntries (withAccelerators service values))
      (some (.object (storedEntries derived))) = true := by
  obtain ⟨r, hr, hruntime⟩ := h.schema.runtime
  obtain ⟨owner, runtimeType, managed, howner, hne, htype, hmanaged, rfl⟩ :=
    derivedRuntime_ok h.derived hr hruntime
  obtain ⟨b, hb⟩ := h.boolean.2
  cases hb.symm.trans hmanaged
  have htype' : find "type".toList (asObject (find "runtime".toList
      (storedEntries (withAccelerators service values)))) = some (text runtimeType) := by
    rw [find_storedEntries_toList, asObject_stored, find_storedEntries_toList,
      find_withAccelerators values _ (by decide), hr]
    show (find "type".toList r).map stored = _
    rw [htype]
    rfl
  have hmanaged' : find "managed".toList (storedEntries (withAccelerators service values)) =
      some (boolean b) := by
    rw [find_storedEntries_toList, find_withAccelerators values _ (by decide), hb]
    rfl
  unfold isValidRuntime
  rw [htype']
  simp only [text, ownerUnit_stored, ownerUnit_withAccelerators, howner,
    find_storedEntries_toList, hmanaged']
  show (decide (runtimeType.toList ≠ []) && (eq float (.scalar (.string owner)) _ &&
    eq float (.scalar (.string runtimeType.toList)) _ && decide (b = b))) = true
  rw [eq_text_self, eq_text_self, decide_eq_true hne, decide_eq_true rfl]
  rfl

theorem isValidEffectiveService_iff (h : CompiledService float serviceId service derived) :
    isValidEffectiveService float (some (stored (.object (withAccelerators service values))))
        serviceId service (some (stored (.object derived))) = true ↔
      (eqItems float values (Spec.accelerators service) = true ∧
        NoNan float (.object (withAccelerators service []))) ∧ IdleWhole service := by
  obtain ⟨⟨b, henabled⟩, c, hmanaged⟩ := h.boolean
  obtain ⟨r, hr, hrequests, -⟩ := h.requests
  obtain ⟨w, hw, hworkload⟩ := h.schema.workload
  have hbools : isBool (find "enabled".toList (storedEntries (withAccelerators service values))) =
      true ∧ isBool (find "managed".toList (storedEntries (withAccelerators service values))) =
      true := by
    rw [find_storedEntries_toList, find_storedEntries_toList,
      find_withAccelerators values _ (by decide), find_withAccelerators values _ (by decide),
      henabled, hmanaged]
    exact ⟨rfl, rfl⟩
  have hw' : find "workload".toList (storedEntries (withAccelerators service values)) =
      some (.object (storedEntries w)) := by
    rw [find_storedEntries_toList, find_withAccelerators values _ (by decide), hw]
    rfl
  rw [← contains_withAccelerators h.dict hr hrequests,
    ← contains_stored (.object service) (.object (withAccelerators service values)),
    ← isValidWorkload_iff h.workload hw hworkload h.normal, ← isValidWorkload_stored]
  show (contains float (stored (.object (withAccelerators service values))) _ && isBool _ &&
    isBool _ && _ && isValidRuntime float serviceId _ (some (.object (storedEntries derived)))) =
      true ↔ _
  rw [hbools.1, hbools.2, hw', isValidRuntime_compiled h]
  simp only [Bool.and_true, Bool.and_eq_true]

end NixNas.Editor
