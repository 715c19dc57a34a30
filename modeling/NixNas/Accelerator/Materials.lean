import NixNas.Accelerator.Resolve
import NixNas.Spec.Presence

/-!
# When the resolved requests are the requests

`resolve_effective` replaces the requests of a service by the devices it has chosen.
-/

open Fallible

namespace NixNas.Accelerator

open Spec

variable {F : Type} {float : FloatEq F} {decimal : Char → Bool} {inventory r : Object F}
  {runtime : String} {serviceId device path : Text} {index : Nat} {request vendor : Plain F}
  {resolved : List (Resolved F)}
variable {t : Text} {value : Plain F}

structure Request (float : FloatEq F) (r : Object F) : Prop where
  dict : Dict (.object r)
  schema : AcceleratorSchema float r
  defaults : HasDefaults r

/-- The request names one device, in the form the resolver writes it, and requires it. -/
def IsMaterial (request : Plain F) : Prop :=
  ∃ r device, request = .object r ∧ find "device".toList r = some (.scalar (.string device)) ∧
    find "required".toList r = some (boolean true) ∧
    ("/dev/".toList.isPrefixOf device = true → absolutePath device = device)

/-! ## Equality with a material -/

theorem eq_string {s : Text} :
    eq float (.scalar (.string s)) (.scalar (.string t)) = decide (s = t) := rfl

theorem eq_boolean {a b : Bool} : eq float (boolean a) (boolean b) = decide (a = b) := by
  cases a <;> cases b <;> rfl

def materialKeys : List Text :=
  ["kind", "vendor", "quantity", "required", "mode", "device"].map String.toList

theorem has_of_find {key : Text} (h : find key r = some value) : Has key r := by
  unfold Has
  rw [h]
  rfl

theorem materialKeys_subset (h : Request float r) (hdevice : Has "device".toList r) :
    materialKeys ⊆ r.map Prod.fst := by
  have hhas : ∀ key ∈ materialKeys, Has key r :=
    List.forall_mem_cons.mpr ⟨has_of_find h.schema.kind, List.forall_mem_cons.mpr ⟨h.defaults.1,
      List.forall_mem_cons.mpr ⟨h.defaults.2.1, List.forall_mem_cons.mpr ⟨h.defaults.2.2.1,
        List.forall_mem_cons.mpr ⟨h.defaults.2.2.2, List.forall_mem_singleton.mpr hdevice⟩⟩⟩⟩⟩
  exact fun key hkey => has_iff_mem.mp (hhas key hkey)

theorem length_request (h : Request float r) (hdevice : Has "device".toList r) :
    r.length = 6 + (targetEntry (find "target".toList r)).length := by
  have hsubset := materialKeys_subset h hdevice
  have hall : ∀ key ∈ r.map Prod.fst, key = "target".toList ∨ key ∈ materialKeys := by
    intro key hkey
    have hcover : acceleratorKeys ⊆ "target".toList :: materialKeys := by decide
    exact List.mem_cons.mp (hcover (h.schema.keys hkey))
  rw [← List.length_map Prod.fst]
  cases htarget : find "target".toList r with
  | none =>
    have hnone : "target".toList ∉ r.map Prod.fst := by
      rw [← has_iff_mem]
      unfold Has
      rw [htarget]
      exact Bool.false_ne_true
    have hle : (r.map Prod.fst).length ≤ materialKeys.length :=
      List.Nodup.length_le_of_subset h.dict.1 fun key hkey =>
        (hall key hkey).resolve_left fun heq => hnone (heq ▸ hkey)
    have hge : materialKeys.length ≤ (r.map Prod.fst).length :=
      List.Nodup.length_le_of_subset (by decide) hsubset
    exact Nat.le_antisymm hle hge
  | some value =>
    have hsome : "target".toList ∈ r.map Prod.fst := has_iff_mem.mp (has_of_find htarget)
    have hle : (r.map Prod.fst).length ≤ ("target".toList :: materialKeys).length :=
      List.Nodup.length_le_of_subset h.dict.1 fun key hkey => List.mem_cons.mpr (hall key hkey)
    have hge : ("target".toList :: materialKeys).length ≤ (r.map Prod.fst).length :=
      List.Nodup.length_le_of_subset (by decide) (List.cons_subset.mpr ⟨hsome, hsubset⟩)
    exact Nat.le_antisymm hle hge

theorem eq_material (h : Request float r)
    (hdevice : find "device".toList r = some (.scalar (.string device)))
    (hrequired : find "required".toList r = some (boolean true))
    (hquantity : find "quantity".toList r = some (number 1))
    (hmode : find "mode".toList r = some (text "shared"))
    (hvendor : find "vendor".toList r = some vendor) :
    eq float (material vendor (find "target".toList r) path) (.object r) = true ↔ path = device := by
  have hlength := length_request h (has_of_find hdevice)
  obtain ⟨name, -, rfl⟩ := h.schema.vendor vendor hvendor
  have htarget : eqEntries float (targetEntry (find "target".toList r)) r = true := by
    cases hfind : find "target".toList r with
    | none => rfl
    | some value =>
      obtain ⟨t, rfl, -⟩ := h.schema.target value hfind
      rw [targetEntry, eqEntries, hfind, eqEntries, Bool.and_true]
      show eq float (.scalar (.string t)) (.scalar (.string t)) = true
      rw [eq_string, decide_eq_true rfl]
  have hself : ∀ name : String, eq float (text name) (text name) = true := fun name => by
    rw [text, eq_string, decide_eq_true rfl]
  have hone : eq float (number 1) (number 1) = true := rfl
  rw [material, eq, List.length_append, hlength]
  simp only [List.cons_append, List.nil_append, eqEntries, h.schema.kind, hvendor, hquantity,
    hrequired, hmode, hdevice, htarget, hself, hone, eq_string, eq_boolean, Bool.and_true,
    List.length_cons, List.length_nil, decide_true, Bool.true_and, decide_eq_true_eq]

/-! ## One request -/

def written (device : Text) : Text :=
  if "/dev/".toList.isPrefixOf device then absolutePath device else device

theorem explicitSelector_ok {parsed : Selector} (h : explicitSelector runtime device = .ok parsed) :
    parsed.values = [written device] := by
  unfold explicitSelector at h
  unfold written
  by_cases hdev : "/dev/".toList.isPrefixOf device = true
  · simp only [hdev, if_true] at h ⊢
    unfold devicePath at h
    split at h
    · cases h
    · rename_i found hfound
      obtain ⟨path, hpath, rfl⟩ := Option.map_eq_some_iff.mp hfound
      split at hpath
      · cases hpath
        split at h
        · cases h
          rfl
        · cases h
      · cases hpath
  · simp only [hdev] at h ⊢
    by_cases hcdi : isCdiSelector device = true
    · simp only [hcdi, if_true] at h
      split at h
      · cases h
      · rename_i found hfound
        cases hfound
        split at h
        · cases h
          rfl
        · cases h
    · simp only [hcdi] at h
      cases h

theorem isMaterial_iff (hdevice : find "device".toList r = some (.scalar (.string device)))
    (hrequired : find "required".toList r = some (boolean true)) :
    IsMaterial (.object r) ↔ written device = device := by
  unfold written
  constructor
  · rintro ⟨_, _, ⟨⟩, hfound, -, hwritten⟩
    cases hdevice.symm.trans hfound
    split
    · rename_i hdev
      exact hwritten hdev
    · rfl
  · intro h
    refine ⟨r, device, rfl, hdevice, hrequired, fun hdev => ?_⟩
    rwa [if_pos hdev] at h

theorem resolveRequest_ok (h : resolveRequest float decimal inventory false runtime serviceId index
    (.object r) = .ok resolved) :
    isText ((find "mode".toList r).getD (text "shared")) "shared" = true ∧
      ∃ chosen, chooseSelectors float decimal inventory runtime serviceId index r
          ((find "vendor".toList r).getD (text "any"))
          ((find "quantity".toList r).getD (number 1)) = .ok chosen ∧
        settleRequest serviceId index r ((find "quantity".toList r).getD (number 1)) chosen =
          .ok resolved := by
  unfold resolveRequest at h
  simp only [Bool.false_eq_true, if_false] at h
  split at h
  · cases h
  split at h
  · cases h
  rename_i hshared
  obtain ⟨chosen, hchosen, h⟩ := bind_ok h
  exact ⟨by simpa using hshared, chosen, hchosen, h⟩

theorem settleRequest_ok {quantity : Plain F} {chosen : Plain F × List Selector}
    (h : settleRequest serviceId index r quantity chosen = .ok resolved) :
    isEnough quantity chosen.2 = true ∧ resolved = [.shared chosen.1
        (truthy ((find "required".toList r).getD (boolean false))) chosen.2 (find "target".toList r)] ∨
      truthy ((find "required".toList r).getD (boolean false)) = false ∧ resolved = [] := by
  unfold settleRequest at h
  dsimp only at h
  split at h
  · rename_i henough
    cases h
    exact .inl ⟨henough, rfl⟩
  split at h
  · cases h
  · rename_i hnot
    cases h
    exact .inr ⟨Bool.eq_false_iff.mpr hnot, rfl⟩

theorem materials_material (h : resolveRequest float decimal inventory false runtime serviceId index
    request = .ok resolved) : ∀ m ∈ resolved.flatMap materials, ∃ vendor target path,
      m = material vendor target path := by
  intro m hm
  obtain ⟨one, hone, hm⟩ := List.mem_flatMap.mp hm
  cases request with
  | scalar => cases h
  | array => cases h
  | object r =>
    obtain ⟨-, chosen, -, hsettle⟩ := resolveRequest_ok h
    obtain ⟨-, rfl⟩ | ⟨-, rfl⟩ := settleRequest_ok hsettle
    · obtain rfl := List.mem_singleton.mp hone
      obtain ⟨s, -, hvalue⟩ := List.mem_flatMap.mp hm
      obtain ⟨path, -, rfl⟩ := List.mem_map.mp hvalue
      exact ⟨_, _, _, rfl⟩
    · cases hone

theorem materials_explicit (hr : Request float r)
    (h : resolveRequest float decimal inventory false runtime serviceId index (.object r) =
      .ok resolved)
    (hdevice : find "device".toList r = some (.scalar (.string device)))
    (hrequired : find "required".toList r = some (boolean true)) :
    ∃ vendor, resolved.flatMap materials =
        [material vendor (find "target".toList r) (written device)] ∧
      find "vendor".toList r = some vendor ∧ find "quantity".toList r = some (number 1) ∧
      find "mode".toList r = some (text "shared") := by
  obtain ⟨vendor, hvendor⟩ := Option.isSome_iff_exists.mp hr.defaults.1
  obtain ⟨quantity, hquantity⟩ := Option.isSome_iff_exists.mp hr.defaults.2.1
  obtain ⟨mode, hmode⟩ := Option.isSome_iff_exists.mp hr.defaults.2.2.2
  obtain ⟨hshared, chosen, hchosen, hsettle⟩ := resolveRequest_ok h
  rw [hmode, Option.getD_some] at hshared
  rw [hvendor, hquantity, Option.getD_some, Option.getD_some] at hchosen
  rw [hquantity, Option.getD_some] at hsettle
  unfold chooseSelectors at hchosen
  simp only [hdevice] at hchosen
  split at hchosen
  · cases hchosen
  rename_i hone
  obtain ⟨parsed, hparsed, rfl⟩ := map_ok hchosen
  refine ⟨vendor, ?_, hvendor, ?_, eq_text_of_isText hshared ▸ hmode⟩
  · obtain ⟨-, rfl⟩ | ⟨hnot, -⟩ := settleRequest_ok hsettle
    · simp [materials, explicitSelector_ok hparsed]
    · rw [hrequired] at hnot
      cases hnot
  · -- an integer that equals one is the number one
    rw [hquantity]
    obtain ⟨⟨n, rfl, -⟩ | ⟨x, rfl, -⟩⟩ | rfl := hr.schema.quantity quantity hquantity
    · have hn : n = 1 := by simpa [eq, number, scalarEq, asInt] using hone
      rw [hn]
    · obtain ⟨henough, -⟩ | ⟨hnot, -⟩ := settleRequest_ok hsettle
      · cases henough
      · rw [hrequired] at hnot
        cases hnot
    · exact absurd rfl hone

/-! ## All requests of a service -/

variable {requests : List (Plain F)} {isVm : Bool}

/-- Every item has passed the schema after its defaults. -/
def Requests (float : FloatEq F) (requests : List (Plain F)) : Prop :=
  ∀ request ∈ requests, ∃ r, request = .object r ∧ Request float r

def IsExplicit (request : Plain F) : Prop :=
  ∃ r device, request = .object r ∧ find "device".toList r = some (.scalar (.string device)) ∧
    find "required".toList r = some (boolean true)

theorem eq_string_left
    (h : eq float (.scalar (.string t)) value = true) : value = .scalar (.string t) := by
  cases value with
  | scalar a =>
    cases a with
    | string s =>
      rw [eq_string, decide_eq_true_eq] at h
      rw [h]
    | _ => cases h
  | array => cases h
  | object => cases h

theorem isExplicit_of_eq {target : Option (Plain F)} (hr : Request float r)
    (h : eq float (material vendor target path) (.object r) = true) : IsExplicit (.object r) := by
  rw [material, eq, Bool.and_eq_true, eqEntries_iff] at h
  obtain ⟨device, hdevice, heq⟩ := h.2 ("device".toList, .scalar (.string path)) (by simp)
  obtain ⟨required, hrequired, heq'⟩ := h.2 ("required".toList, boolean true) (by simp)
  refine ⟨r, path, rfl, eq_string_left heq ▸ hdevice, ?_⟩
  obtain ⟨b, rfl⟩ := hr.schema.required required hrequired
  rw [eq_boolean, decide_eq_true_eq] at heq'
  exact heq' ▸ hrequired

theorem resolveRequests_cons (h : resolveRequests float decimal inventory isVm runtime serviceId
    index (request :: requests) = .ok resolved) : ∃ one others,
      resolveRequest float decimal inventory isVm runtime serviceId index request = .ok one ∧
      resolveRequests float decimal inventory isVm runtime serviceId (index + 1) requests =
        .ok others ∧ resolved = one ++ others := by
  obtain ⟨one, hone, h⟩ := bind_ok h
  obtain ⟨others, hothers, h⟩ := bind_ok h
  cases h
  exact ⟨one, others, hone, hothers, rfl⟩

theorem eqItems_exists {items items' : List (Plain F)} (h : eqItems float items items' = true) :
    ∀ item' ∈ items', ∃ item ∈ items, eq float item item' = true := by
  induction items generalizing items' with
  | nil =>
    cases items' with
    | nil => exact nofun
    | cons => cases h
  | cons item items ih =>
    cases items' with
    | nil => cases h
    | cons item' items' =>
      rw [eqItems, Bool.and_eq_true] at h
      rw [List.forall_mem_cons]
      refine ⟨⟨item, List.mem_cons_self, h.1⟩, fun other hother => ?_⟩
      obtain ⟨found, hfound, heq⟩ := ih h.2 other hother
      exact ⟨found, List.mem_cons_of_mem _ hfound, heq⟩

theorem materials_requests (h : resolveRequests float decimal inventory false runtime serviceId
    index requests = .ok resolved) : ∀ m ∈ resolved.flatMap materials, ∃ vendor target path,
      m = material vendor target path := by
  induction requests generalizing index resolved with
  | nil =>
    cases h
    exact nofun
  | cons request requests ih =>
    obtain ⟨one, others, hone, hothers, rfl⟩ := resolveRequests_cons h
    intro m hm
    rw [List.flatMap_append, List.mem_append] at hm
    exact hm.elim (materials_material hone m) (ih hothers m)

theorem eqItems_explicit (hrequests : Requests float requests)
    (hexplicit : ∀ request ∈ requests, IsExplicit request)
    (h : resolveRequests float decimal inventory false runtime serviceId index requests =
      .ok resolved) :
    eqItems float (resolved.flatMap materials) requests = true ↔
      ∀ request ∈ requests, IsMaterial request := by
  induction requests generalizing index resolved with
  | nil =>
    cases h
    exact ⟨fun _ => nofun, fun _ => rfl⟩
  | cons request requests ih =>
    obtain ⟨one, others, hone, hothers, rfl⟩ := resolveRequests_cons h
    unfold Requests at hrequests
    rw [List.forall_mem_cons] at hrequests hexplicit
    obtain ⟨⟨r, rfl, hr⟩, hrest⟩ := hrequests
    obtain ⟨⟨_, device, ⟨⟩, hdevice, hrequired⟩, hexplicit⟩ := hexplicit
    obtain ⟨vendor, hmaterials, hvendor, hquantity, hmode⟩ :=
      materials_explicit hr hone hdevice hrequired
    rw [List.flatMap_append, hmaterials, List.singleton_append, eqItems, Bool.and_eq_true,
      eq_material hr hdevice hrequired hquantity hmode hvendor, ih hrest hexplicit hothers,
      List.forall_mem_cons, isMaterial_iff hdevice hrequired]

theorem eqItems_materials (hrequests : Requests float requests)
    (h : resolveRequests float decimal inventory false runtime serviceId index requests =
      .ok resolved) :
    eqItems float (resolved.flatMap materials) requests = true ↔
      ∀ request ∈ requests, IsMaterial request := by
  constructor
  · intro heq
    refine (eqItems_explicit hrequests (fun request hrequest => ?_) h).mp heq
    obtain ⟨m, hm, hmrequest⟩ := eqItems_exists heq request hrequest
    obtain ⟨vendor, target, path, rfl⟩ := materials_requests h m hm
    obtain ⟨r, rfl, hr⟩ := hrequests request hrequest
    exact isExplicit_of_eq hr hmrequest
  · intro hmaterials
    refine (eqItems_explicit hrequests (fun request hrequest => ?_) h).mpr hmaterials
    obtain ⟨r, device, heq, hdevice, hrequired, -⟩ := hmaterials request hrequest
    exact ⟨r, device, heq, hdevice, hrequired⟩

theorem materials_vm (hpassthrough : ∀ request ∈ requests, ∃ r, request = .object r ∧
      keyIs "mode" "passthrough" r = true)
    (h : resolveRequests float decimal inventory true runtime serviceId index requests =
      .ok resolved) : resolved.flatMap materials = requests := by
  induction requests generalizing index resolved with
  | nil =>
    cases h
    rfl
  | cons request requests ih =>
    obtain ⟨one, others, hone, hothers, rfl⟩ := resolveRequests_cons h
    rw [List.forall_mem_cons] at hpassthrough
    obtain ⟨⟨r, rfl, hmode⟩, hrest⟩ := hpassthrough
    unfold resolveRequest at hone
    dsimp only at hone
    split at hone
    · cases hone
    · cases hone
      rw [List.flatMap_append, ih hrest hothers]
      show (if keyIs "mode" "passthrough" r then [Plain.object r] else []) ++ [] ++ _ = _
      rw [if_pos hmode]
      rfl

theorem noNan_isCount (h : IsCount float value) : NoNan float value := by
  obtain ⟨n, rfl, -⟩ | ⟨x, rfl, hx⟩ := h
  · trivial
  · exact float.eq_of_isInteger x hx

theorem noNan_request (hr : Request float r) : NoNan float (.object r) := by
  refine noNanEntries_iff.mpr fun e he => ?_
  have hfind := find_of_mem hr.dict.1 he
  have hkey := hr.schema.keys (List.mem_map_of_mem he)
  obtain ⟨key, value⟩ := e
  simp only [acceleratorKeys, List.map_cons, List.map_nil, List.mem_cons, List.not_mem_nil,
    or_false] at hkey hfind ⊢
  obtain rfl | rfl | rfl | rfl | rfl | rfl | rfl := hkey
  · cases hr.schema.kind.symm.trans hfind
    trivial
  · obtain ⟨name, -, rfl⟩ := hr.schema.vendor value hfind
    trivial
  · obtain hcount | rfl := hr.schema.quantity value hfind
    · exact noNan_isCount hcount
    · trivial
  · obtain ⟨b, rfl⟩ := hr.schema.required value hfind
    trivial
  · obtain ⟨name, -, rfl⟩ := hr.schema.mode value hfind
    trivial
  · obtain ⟨t, rfl, -⟩ := hr.schema.device value hfind
    trivial
  · obtain ⟨t, rfl, -⟩ := hr.schema.target value hfind
    trivial

end NixNas.Accelerator
