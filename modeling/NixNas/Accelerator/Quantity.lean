import NixNas.Accelerator.Distinct

/-!
# Distinct devices for a request

A request is given the first selectors of the first vendor that has any.
-/

open Fallible

namespace NixNas.Accelerator

open Spec

variable {F : Type}
variable {capabilities : List (Text × Bool)} {host : Host} {identities : List (ℕ × Text)}

section

variable (toolkit : Toolkit) (host : Host) (identities : List (ℕ × Text))

/-! ## What a request is promised -/

/-- A shared request without a device, with the vendor and the quantity it asks for. -/
structure SharedRequest (request : Plain F) (vendor : Text) (quantity : ℕ) : Prop where
  shape : ∃ r, request = .object r ∧ keyIs "kind" "gpu" r = true ∧
    isText ((find "mode".toList r).getD (text "shared")) "shared" = true ∧
    find "device".toList r = none ∧
    (find "vendor".toList r).getD (text "any") = .scalar (.string vendor) ∧
    (find "quantity".toList r).getD (number 1) = number quantity

def selectedRuntime (runtimeType : Text) (service : Object F) : String :=
  if runtimeType = "oci".toList &&
      keyIs "kind" "session" (asObject (find "workload".toList service)) then "session-oci"
  else String.ofList runtimeType

/-- The service has shared requests only and runs on the runtime, which is no virtual machine. -/
structure SharedService (runtime : String) (service : Object F) : Prop where
  runtimeType : ∃ runtimeType, find "type".toList (asObject (find "runtime".toList service)) =
    some (.scalar (.string runtimeType)) ∧ runtimeType ≠ "vm".toList ∧
    selectedRuntime runtimeType service = runtime
  requests : ∀ request ∈ accelerators service, ∃ vendor quantity,
    SharedRequest request vendor quantity

/-- The GPUs of a vendor that the runtime can use: each has its nodes, and every runtime that lowers
selectors lowers nodes. -/
def usableGpus (runtime : String) (vendor : Text) : List Gpu :=
  if preference runtime = [] then [] else host.gpus vendor

def requestedVendors (requested : Text) : List Text :=
  if requested = "any".toList then vendorOrder else [requested]

/-- The first vendor with a usable GPU has too few of them, or there is none. -/
def TooFew (runtime : String) (requested : Text) (quantity : ℕ) : Prop :=
  ∀ vendor, (requestedVendors requested).find? (usableGpus host runtime · ≠ []) = some vendor →
    (usableGpus host runtime vendor).length < quantity

/-- The request has as many selectors as it asks for, each for a GPU of its own. -/
def Assigned (runtime : String) (quantity : ℕ) : Resolved F → Prop
  | .copied _ => False
  | .shared vendor _ selectors _ =>
    selectors.length = quantity ∧ (∀ s ∈ selectors, s.type ∈ preference runtime) ∧
      (selectors.map (standsFor toolkit host identities)).Nodup ∧
      ∀ s ∈ selectors, ∃ name, vendor = .scalar (.string name) ∧
        ∃ gpu ∈ host.gpus name, standsFor toolkit host identities s = some gpu

def Settled (runtime : String) (request : Plain F) (resolved : List (Resolved F)) : Prop :=
  ∃ vendor quantity, SharedRequest request vendor quantity ∧
    ((∃ one, resolved = [one] ∧ Assigned toolkit host identities runtime quantity one) ∨
      resolved = [] ∧ TooFew host runtime vendor quantity)

/-- A request is kept with distinct devices, and dropped or refused for want of devices only.  The
first one has the number `first`, and the error gives the number of the refused one. -/
def DistinctDevices (runtime : String) (first : ℕ) (requests : List (Plain F)) :
    Except ResolutionError (List (Resolved F)) → Prop
  | .ok resolved => ∃ parts, resolved = parts.flatten ∧
      List.Forall₂ (Settled toolkit host identities runtime) requests parts
  | .error e => ∃ before request after, requests = before ++ request :: after ∧
      (∃ serviceId, e = .unavailable serviceId (first + before.length)) ∧
        ∃ vendor quantity, SharedRequest request vendor quantity ∧
          TooFew host runtime vendor quantity

end

/-! ## Vendors -/

section

variable {toolkit : Toolkit} {decimal : Char → Bool} {runtime : String} {inventory : Object F}
variable {vendor : Text}

theorem preference_cases (runtime : String) : preference runtime = [] ∨
    preference runtime = [.devices] ∨ preference runtime = [.cdi, .devices] := by
  unfold preference
  split
  · exact .inr (.inr rfl)
  split
  · exact .inr (.inl rfl)
  · exact .inl rfl

theorem vendorSelectors_usable (hdecimal : AsciiDecimal decimal)
    (hidentities : Identities identities) (runtime vendor : String) :
    ∃ selectors, vendorSelectors decimal (preference runtime)
        (vendorObject capabilities host identities vendor : Object F) = .ok selectors ∧
      selectors.Perm ((usableGpus host runtime vendor.toList).map
        (shown capabilities host identities (preference runtime))) := by
  unfold usableGpus
  rcases preference_cases runtime with hnone | htypes
  · rw [hnone, if_pos rfl]
    have hnone : ∀ values : List (Plain F), ∀ s, s ∉ parsedSelectors [] values := by
      intro values s hs
      cases (mem_parsedSelectors.mp hs).1
    obtain ⟨selectors, hok, -, hsub, -⟩ := vendorSelectors_spec decimal (find_selectors vendor)
      fun s hs => (hnone _ s hs).elim
    have hnil : selectors = [] := by
      apply List.eq_nil_iff_forall_not_mem.mpr
      intro s hs
      exact hnone _ s (hsub s hs)
    exact ⟨selectors, hok, hnil ▸ List.Perm.refl _⟩
  · rw [if_neg]
    · exact vendorSelectors_perm hdecimal hidentities htypes vendor
    · rcases htypes with h | h <;> rw [h] <;> exact List.cons_ne_nil _ _

theorem gpus_eq_nil (h : vendor ∉ vendorOrder) : host.gpus vendor = [] := by
  unfold Host.gpus
  rw [if_neg]
  · rw [List.map_eq_nil_iff]
    unfold Host.drm
    rw [List.filter_eq_nil_iff]
    intro node _ hnode
    rw [Bool.and_eq_true, decide_eq_true_iff] at hnode
    obtain ⟨raw, -, hlookup⟩ := Option.bind_eq_some_iff.mp hnode.1
    have hall : ∀ entry ∈ vendorIds, entry.2 ∈ vendorOrder := by decide
    exact h (hall _ (Association.mem_of_lookup hlookup))
  · rintro ⟨rfl, -⟩
    exact h (by decide)

def probedVendors (capabilities : List (Text × Bool)) (host : Host)
    (identities : List (ℕ × Text)) : Object F :=
  ["NVIDIA", "AMD", "Intel"].map fun vendor ↦
    (vendor.toList, .object (vendorObject capabilities host identities vendor))

theorem find_probedVendors (vendor : Text) :
    find vendor (probedVendors capabilities host identities : Object F) =
      if vendor ∈ vendorOrder then
        some (.object (vendorObject capabilities host identities (String.ofList vendor)))
      else none := by
  split
  · rename_i h
    simp only [vendorOrder, List.map_cons, List.map_nil, List.mem_cons, List.not_mem_nil,
      or_false] at h
    rcases h with rfl | rfl | rfl <;> simp [probedVendors, find, List.lookup_cons]
  · rename_i h
    apply Association.lookup_eq_none_iff.mpr
    exact h

section

variable {types : List SelectorType} {name : Text} {names : List Text} {vendor : Object F}
  {selectors : List Selector}

theorem firstVendor_none (h : find name (asObject (find "accelerators".toList inventory)) = none) :
    firstVendor decimal types inventory (name :: names) =
      firstVendor decimal types inventory names := by
  rw [firstVendor, h]

theorem firstVendor_some
    (h : find name (asObject (find "accelerators".toList inventory)) = some (.object vendor))
    (hok : vendorSelectors decimal types vendor = .ok selectors) :
    firstVendor decimal types inventory (name :: names) =
      if selectors = [] then firstVendor decimal types inventory names
      else .ok ⟨some name, selectors,
        (selector (find "allSelector".toList vendor)).filter (·.type ∈ types)⟩ := by
  rw [firstVendor, h]
  dsimp only
  rw [hok]
  rfl

end

/-- The first vendor with a usable GPU gives its selectors, and without one there are none. -/
theorem firstVendor_spec (runtime : String) (hdecimal : AsciiDecimal decimal)
    (hidentities : Identities identities)
    (hinventory : find "accelerators".toList inventory =
      some (.object (probedVendors capabilities host identities))) (names : List Text) :
    ∃ selection, firstVendor decimal (preference runtime) inventory names = .ok selection ∧
      match names.find? (usableGpus host runtime · ≠ []) with
      | none => selection.vendor = none ∧ selection.selectors = []
      | some vendor => selection.vendor = some vendor ∧
          selection.selectors.Perm ((usableGpus host runtime vendor).map
            (shown capabilities host identities (preference runtime))) := by
  induction names with
  | nil => exact ⟨_, rfl, rfl, rfl⟩
  | cons name names ih =>
    have hfind : find name (asObject (find "accelerators".toList inventory)) =
        if name ∈ vendorOrder then
          some (.object (vendorObject capabilities host identities (String.ofList name)))
        else none := by
      rw [hinventory]
      exact find_probedVendors name
    by_cases hknown : name ∈ vendorOrder
    swap
    · have hnone : usableGpus host runtime name = [] := by
        unfold usableGpus
        rw [gpus_eq_nil hknown, ite_self]
      rw [if_neg hknown] at hfind
      rw [List.find?_cons_of_neg (by simp [hnone]), firstVendor_none hfind]
      exact ih
    rw [if_pos hknown] at hfind
    obtain ⟨selectors, hok, hperm⟩ := vendorSelectors_usable (F := F) hdecimal hidentities runtime
      (String.ofList name)
    rw [String.toList_ofList] at hperm
    rw [firstVendor_some hfind hok]
    by_cases husable : usableGpus host runtime name = []
    · have hnil : selectors = [] := by
        rw [husable] at hperm
        exact hperm.eq_nil
      rw [List.find?_cons_of_neg (by simp [husable]), if_pos hnil]
      exact ih
    · have hne : selectors ≠ [] := by
        rintro rfl
        exact husable (List.map_eq_nil_iff.mp hperm.symm.eq_nil)
      rw [List.find?_cons_of_pos (by simp [husable]), if_neg hne]
      exact ⟨_, rfl, rfl, hperm⟩

/-! ## Requests -/

variable {float : FloatEq F} {serviceId requested : Text} {index quantity : ℕ} {request : Plain F}

def foundVendor (selection : Selection) (requested : Text) : Plain F :=
  .scalar (.string (selection.vendor.getD requested))

theorem resolveRequest_shared (float : FloatEq F) (serviceId : Text) (index : ℕ)
    (hrequest : SharedRequest request requested quantity)
    {selection : Selection}
    (hselection : selectVendor decimal inventory requested runtime = .ok selection) :
    ∃ r, resolveRequest float decimal inventory false runtime serviceId index request =
      settleRequest serviceId index r (number quantity)
        (foundVendor selection requested, selection.selectors.take quantity) := by
  obtain ⟨r, rfl, hkind, hmode, hdevice, hvendor, hquantity⟩ := hrequest.shape
  refine ⟨r, ?_⟩
  have hchosen : chooseSelectors float decimal inventory runtime serviceId index r
      (.scalar (.string requested)) (number quantity) =
        .ok (foundVendor selection requested, selection.selectors.take quantity) := by
    unfold chooseSelectors selectRequest
    rw [hdevice]
    dsimp only
    rw [hselection]
    have htake : takeInt (quantity : ℤ) selection.selectors =
        selection.selectors.take quantity := by
      unfold takeInt
      rw [if_neg (by omega), Int.toNat_natCast]
    rw [← htake]
    unfold foundVendor
    dsimp only [Bind.bind, Except.bind]
    cases selection.vendor <;> rfl
  unfold resolveRequest
  dsimp only
  rw [hkind, hmode, hvendor, hquantity, hchosen]
  rfl

theorem settleRequest_number (r : Object F) (vendor : Plain F) (selectors : List Selector) :
    settleRequest serviceId index r (number quantity) (vendor, selectors) =
      if quantity ≤ selectors.length then
        .ok [.shared vendor (truthy ((find "required".toList r).getD (boolean false))) selectors
          (find "target".toList r)]
      else if truthy ((find "required".toList r).getD (boolean false)) then
        .error (.unavailable serviceId index)
      else .ok [] := by
  have henough : isEnough (number quantity : Plain F) selectors =
      decide (quantity ≤ selectors.length) := by
    show decide ((quantity : ℤ) ≤ (selectors.length : ℤ)) = _
    simp only [Int.ofNat_le]
  unfold settleRequest
  dsimp only
  rw [henough]
  simp only [decide_eq_true_iff]

theorem assigned_take (toolkit : Toolkit) (hidentities : Identities identities)
    (hclosed : .cdi ∈ preference runtime → IndexNamesClosed toolkit capabilities host identities)
    {selectors : List Selector}
    (hperm : selectors.Perm ((usableGpus host runtime vendor).map
      (shown capabilities host identities (preference runtime)))) (quantity : ℕ) :
    (∀ s ∈ selectors.take quantity, s.type ∈ preference runtime) ∧
      ((selectors.take quantity).map (standsFor toolkit host identities)).Nodup ∧
      ∀ s ∈ selectors.take quantity, ∃ gpu ∈ host.gpus vendor,
        standsFor toolkit host identities s = some gpu := by
  obtain ⟨hnodup, hgpus⟩ := distinct_of_closed vendor hidentities hclosed
  by_cases hnone : preference runtime = []
  · have hnil : selectors = [] := by
      unfold usableGpus at hperm
      rw [if_pos hnone] at hperm
      exact hperm.eq_nil
    rw [hnil, List.take_nil]
    exact ⟨nofun, List.nodup_nil, nofun⟩
  have hnodes : .devices ∈ preference runtime := by
    rcases preference_cases runtime with h | h | h
    · exact (hnone h).elim
    · rw [h]
      decide
    · rw [h]
      decide
  unfold usableGpus at hperm
  rw [if_neg hnone] at hperm
  have hmem : ∀ s ∈ selectors.take quantity, ∃ gpu ∈ host.gpus vendor,
      shown capabilities host identities (preference runtime) gpu = s := by
    intro s hs
    exact List.mem_map.mp (hperm.mem_iff.mp (List.mem_of_mem_take hs))
  refine ⟨?_, ?_, ?_⟩
  · intro s hs
    obtain ⟨gpu, -, rfl⟩ := hmem s hs
    exact shown_type hnodes
  · have hall : (selectors.map (standsFor toolkit host identities)).Nodup := by
      rw [(hperm.map _).nodup_iff, List.map_map]
      exact hnodup
    exact ((List.take_sublist _ _).map _).nodup hall
  · intro s hs
    obtain ⟨gpu, hgpu, rfl⟩ := hmem s hs
    exact hgpus gpu hgpu

theorem settled_of_closed (float : FloatEq F) (serviceId : Text) (index : ℕ)
    (hdecimal : AsciiDecimal decimal) (hidentities : Identities identities)
    (hinventory : find "accelerators".toList inventory =
      some (.object (probedVendors capabilities host identities)))
    (hclosed : .cdi ∈ preference runtime →
      IndexNamesClosed toolkit capabilities host identities)
    (hrequest : SharedRequest request requested quantity) :
    match resolveRequest float decimal inventory false runtime serviceId index request with
    | .ok part => Settled toolkit host identities runtime request part
    | .error e => e = .unavailable serviceId index ∧ TooFew host runtime requested quantity := by
  obtain ⟨selection, hselection, hvendor⟩ := firstVendor_spec runtime hdecimal hidentities
    hinventory (requestedVendors requested)
  obtain ⟨r, hresolve⟩ := resolveRequest_shared float serviceId index hrequest hselection
  rw [hresolve, settleRequest_number, List.length_take]
  by_cases henough : quantity ≤ selection.selectors.length
  · rw [if_pos (by omega)]
    refine ⟨requested, quantity, hrequest, .inl ⟨_, rfl, ?_, ?_⟩⟩
    · rw [List.length_take]
      omega
    cases hfirst : (requestedVendors requested).find? (usableGpus host runtime · ≠ []) with
    | none =>
      rw [hfirst] at hvendor
      rw [hvendor.2, List.take_nil]
      exact ⟨nofun, List.nodup_nil, nofun⟩
    | some vendor =>
      rw [hfirst] at hvendor
      obtain ⟨htypes, hnodup, hgpus⟩ := assigned_take toolkit hidentities hclosed hvendor.2
        quantity
      have hfound : (foundVendor selection requested : Plain F) = .scalar (.string vendor) := by
        unfold foundVendor
        rw [hvendor.1]
        rfl
      exact ⟨htypes, hnodup, fun s hs => ⟨vendor, hfound, hgpus s hs⟩⟩
  · have hfew : TooFew host runtime requested quantity := by
      intro vendor hfirst
      rw [hfirst] at hvendor
      have hlength := hvendor.2.length_eq
      rw [List.length_map] at hlength
      omega
    rw [if_neg (by omega)]
    by_cases hrequired : truthy ((find "required".toList r).getD (boolean false)) = true
    · rw [if_pos hrequired]
      exact ⟨rfl, hfew⟩
    · rw [if_neg hrequired]
      exact ⟨requested, quantity, hrequest, .inr ⟨rfl, hfew⟩⟩

theorem distinctDevices_of_closed (index : ℕ) (hdecimal : AsciiDecimal decimal)
    (hidentities : Identities identities)
    (hinventory : find "accelerators".toList inventory =
      some (.object (probedVendors capabilities host identities)))
    (hclosed : .cdi ∈ preference runtime → IndexNamesClosed toolkit capabilities host identities)
    {requests : List (Plain F)} (hrequests : ∀ request ∈ requests, ∃ vendor quantity,
      SharedRequest request vendor quantity) :
    DistinctDevices toolkit host identities runtime index requests
      (resolveRequests float decimal inventory false runtime serviceId index requests) := by
  induction requests generalizing index with
  | nil => exact ⟨[], rfl, .nil⟩
  | cons request requests ih =>
    rw [List.forall_mem_cons] at hrequests
    obtain ⟨⟨vendor, quantity, hrequest⟩, hrest⟩ := hrequests
    have hone := settled_of_closed float serviceId index
      hdecimal hidentities hinventory hclosed hrequest
    have hothers := ih (index + 1) hrest
    unfold resolveRequests
    cases hpart : resolveRequest float decimal inventory false runtime serviceId index request with
    | error err =>
      rw [hpart] at hone
      exact ⟨[], request, requests, rfl, ⟨serviceId, hone.1⟩, vendor, quantity, hrequest, hone.2⟩
    | ok part =>
      rw [hpart] at hone
      cases hresolved : resolveRequests float decimal inventory false runtime serviceId (index + 1)
          requests with
      | error err =>
        rw [hresolved] at hothers
        obtain ⟨before, other, after, rfl, ⟨serviceId', herror⟩, hshort⟩ := hothers
        refine ⟨request :: before, other, after, rfl, ⟨serviceId', ?_⟩, hshort⟩
        rw [herror, List.length_cons, Nat.add_assoc, Nat.add_comm 1]
      | ok resolved =>
        rw [hresolved] at hothers
        obtain ⟨parts, rfl, hparts⟩ := hothers
        exact ⟨part :: parts, rfl, .cons hone hparts⟩

/-! ## A service that asks for every GPU of NVIDIA -/

def nvidiaService (runtime : String) (quantity : ℕ) : Object F :=
  [("runtime".toList, .object [("type".toList, text runtime)]),
    ("resources".toList, .object [("accelerators".toList, .array [.object
      [("kind".toList, text "gpu"), ("vendor".toList, text "NVIDIA"),
        ("quantity".toList, number quantity)]])])]

def nvidiaRequest (quantity : ℕ) : Plain F :=
  .object [("kind".toList, text "gpu"), ("vendor".toList, text "NVIDIA"),
    ("quantity".toList, number quantity)]

theorem sharedRequest_nvidia :
    SharedRequest (nvidiaRequest quantity : Plain F) "NVIDIA".toList quantity := by
  refine ⟨_, rfl, ?_, ?_, ?_, ?_, ?_⟩ <;>
    simp [keyIs, find, List.lookup_cons, isText, text]

theorem accelerators_nvidia :
    accelerators (nvidiaService runtime quantity : Object F) = [nvidiaRequest quantity] := by
  simp [nvidiaService, accelerators, find, List.lookup_cons, asObject, asArray, nvidiaRequest]

theorem sharedService_nvidia (hcdi : .cdi ∈ preference runtime) :
    SharedService runtime (nvidiaService runtime quantity : Object F) := by
  constructor
  · refine ⟨runtime.toList, ?_, ?_, ?_⟩
    · simp [nvidiaService, find, asObject, text]
    · intro hvm
      rw [String.toList_inj.mp hvm] at hcdi
      exact absurd hcdi (by decide)
    · have hkind : keyIs "kind" "session" (asObject (find "workload".toList
          (nvidiaService runtime quantity : Object F))) = false := by
        simp [nvidiaService, find, List.lookup_cons, asObject, keyIs]
      unfold selectedRuntime
      rw [hkind, Bool.and_false, if_neg Bool.false_ne_true, String.ofList_toList]
  · intro request hrequest
    rw [accelerators_nvidia, List.mem_singleton] at hrequest
    rw [hrequest]
    exact ⟨_, _, sharedRequest_nvidia⟩

theorem resolveServiceAccelerators_eq {service : Object F} (h : SharedService runtime service) :
    resolveServiceAccelerators float decimal inventory serviceId service =
      resolveRequests float decimal inventory false runtime serviceId 0 (accelerators service) := by
  obtain ⟨runtimeType, htype, hvm, hselected⟩ := h.runtimeType
  unfold resolveServiceAccelerators
  dsimp only
  rw [htype]
  dsimp only
  rw [decide_eq_false hvm, ← hselected]
  rfl

theorem closed_of_service (hdecimal : AsciiDecimal decimal) (hidentities : Identities identities)
    (hinventory : find "accelerators".toList inventory =
      some (.object (probedVendors capabilities host identities)))
    (hcdi : .cdi ∈ preference runtime)
    (h : DistinctDevices toolkit host identities runtime 0 [nvidiaRequest host.minors.length]
      (resolveRequests float decimal inventory false runtime serviceId 0
        [nvidiaRequest host.minors.length])) :
    IndexNamesClosed toolkit capabilities host identities := by
  intro minor hminor
  have hmem := (mem_indexNamed.mp hminor).1
  have hne : preference runtime ≠ [] := List.ne_nil_of_mem hcdi
  have husable : usableGpus host runtime "NVIDIA".toList = host.minors.map .nvidia := by
    unfold usableGpus
    rw [if_neg hne, gpus_of_minors hmem]
  have hfirst : (requestedVendors "NVIDIA".toList).find? (usableGpus host runtime · ≠ []) =
      some "NVIDIA".toList := by
    have hsome : usableGpus host runtime "NVIDIA".toList ≠ [] := by
      rw [husable]
      exact List.ne_nil_of_mem (List.mem_map_of_mem hmem)
    exact List.find?_cons_of_pos (decide_eq_true hsome)
  obtain ⟨selection, hselection, hvendor⟩ := firstVendor_spec runtime hdecimal hidentities
    hinventory (requestedVendors "NVIDIA".toList)
  rw [hfirst] at hvendor
  obtain ⟨hname, hperm⟩ := hvendor
  have hlength : selection.selectors.length = host.minors.length := by
    rw [hperm.length_eq, List.length_map, husable, List.length_map]
  obtain ⟨r, hresolve⟩ := resolveRequest_shared float serviceId 0 sharedRequest_nvidia hselection
  have htake : selection.selectors.take host.minors.length = selection.selectors := by
    rw [← hlength, List.take_length]
  rw [settleRequest_number, htake, if_pos hlength.ge] at hresolve
  unfold resolveRequests at h
  rw [hresolve] at h
  obtain ⟨parts, hparts, hsettled⟩ := h
  cases hsettled with
  | cons hone hrest =>
    cases hrest
    rw [List.flatten_singleton] at hparts
    subst hparts
    obtain ⟨vendor, quantity, -, ⟨one, hone, hassigned⟩ | ⟨hnil, -⟩⟩ := hone
    · cases hone
      obtain ⟨-, -, hnodup, hgpus⟩ := hassigned
      rw [husable, ← gpus_of_minors hmem] at hperm
      rw [(hperm.map _).nodup_iff, List.map_map] at hnodup
      refine closed_of_distinct hidentities hcdi hnodup ?_ minor hminor
      intro gpu hgpu
      obtain ⟨name, hfound, found⟩ := hgpus _ (hperm.mem_iff.mpr (List.mem_map_of_mem hgpu))
      have hnvidia : name = "NVIDIA".toList := by
        unfold foundVendor at hfound
        rw [hname] at hfound
        cases hfound
        rfl
      rw [hnvidia] at found
      exact found
    · cases hnil

end

/-! ## Every service -/

theorem nvidiaIdentities_spec (h : nvidiaIdentities capabilities host = .ok identities) :
    Identities identities := by
  unfold nvidiaIdentities at h
  split at h
  · exact nvidiaGpuUuidsByMinor_spec h
  · cases h
    exact ⟨List.nodup_nil, List.nodup_nil, nofun⟩

theorem find_accelerators {inventory : Object F}
    (hidentities : nvidiaIdentities capabilities host = .ok identities)
    (h : probeInventory capabilities host = .ok inventory) :
    find "accelerators".toList inventory =
      some (.object (probedVendors capabilities host identities)) := by
  unfold probeInventory at h
  rw [hidentities] at h
  cases h
  rfl

/-- Every service of a runtime is given distinct devices exactly where the published index names are
closed, or where the runtime lowers no name of CDI. -/
theorem distinctDevices_iff (float : FloatEq F) {decimal : Char → Bool}
    (hdecimal : AsciiDecimal decimal) (toolkit : Toolkit) {capabilities : List (Text × Bool)}
    {host : Host} {identities : List (ℕ × Text)} {inventory : Object F}
    (hidentities : nvidiaIdentities capabilities host = .ok identities)
    (hinventory : probeInventory capabilities host = .ok inventory) (runtime : String) :
    (∀ (serviceId : Text) (service : Object F), SharedService runtime service →
      DistinctDevices toolkit host identities runtime 0 (accelerators service)
        (resolveServiceAccelerators float decimal inventory serviceId service)) ↔
    (.cdi ∈ preference runtime → IndexNamesClosed toolkit capabilities host identities) := by
  have haccelerators := find_accelerators hidentities hinventory
  have hspec := nvidiaIdentities_spec hidentities
  constructor
  · intro h hcdi
    have hservice : SharedService runtime (nvidiaService runtime host.minors.length : Object F) :=
      sharedService_nvidia hcdi
    have hdistinct := h [] _ hservice
    rw [resolveServiceAccelerators_eq hservice, accelerators_nvidia] at hdistinct
    exact closed_of_service hdecimal hspec haccelerators hcdi hdistinct
  · intro hclosed serviceId service hservice
    rw [resolveServiceAccelerators_eq hservice]
    exact distinctDevices_of_closed 0 hdecimal hspec haccelerators hclosed hservice.requests

/-- Two GPUs whose minors are not the ordinals of their enumeration: the second one is the first that
NVML finds.  The toolkit lists index names only. -/
def swappedHost : Host where
  renderNodes := []
  nodup_names := List.nodup_nil
  entries := ["nvidia0".toList, "nvidia2".toList]
  present name := name = "nvidia0".toList || name = "nvidia2".toList
  information := []
  listing := some "nvidia.com/gpu=0\nnvidia.com/gpu=1\n".toList

def swappedToolkit : Toolkit := ⟨[2, 0], by decide⟩

def cdiCapability : List (Text × Bool) := [("gpu-nvidia-cdi".toList, true)]

def swappedInventory : Object Empty :=
  [("schemaVersion".toList, number 1),
    ("capabilities".toList, .object (cdiCapability.map fun e ↦ (e.1, boolean e.2))),
    ("accelerators".toList, .object (probedVendors cdiCapability swappedHost []))]

theorem distinctDevices_iff_swapped :
    (∀ (serviceId : Text) (service : Object Empty), SharedService "oci" service →
      DistinctDevices swappedToolkit swappedHost [] "oci" 0 (accelerators service)
        (resolveServiceAccelerators ⟨nofun, nofun, nofun, nofun⟩ Char.isDigit swappedInventory
          serviceId service)) ↔
    (.cdi ∈ preference "oci" → IndexNamesClosed swappedToolkit cdiCapability swappedHost []) :=
  distinctDevices_iff _ (fun _ _ => rfl) swappedToolkit (by decide) rfl "oci"

/-- Asked for both GPUs, the resolver gives the first index name and the nodes of the second GPU,
which is the GPU with this index. -/
theorem not_distinctDevices_swapped :
    probeInventory cdiCapability swappedHost = .ok swappedInventory ∧
      ¬ DistinctDevices swappedToolkit swappedHost [] "oci" 0
        (accelerators (nvidiaService "oci" 2 : Object Empty))
        (resolveServiceAccelerators ⟨nofun, nofun, nofun, nofun⟩ Char.isDigit
          swappedInventory "desktop".toList (nvidiaService "oci" 2)) := by
  refine ⟨rfl, fun h => ?_⟩
  have hservice : SharedService "oci" (nvidiaService "oci" 2 : Object Empty) :=
    sharedService_nvidia (by decide)
  have hidentities : Identities [] := ⟨List.nodup_nil, List.nodup_nil, nofun⟩
  rw [resolveServiceAccelerators_eq hservice, accelerators_nvidia] at h
  have hclosed : IndexNamesClosed swappedToolkit cdiCapability swappedHost [] :=
    closed_of_service (fun _ _ => rfl) hidentities rfl (by decide) h
  exact absurd hclosed (by decide)

end NixNas.Accelerator
