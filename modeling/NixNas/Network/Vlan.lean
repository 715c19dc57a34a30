import NixNas.Network.Publications

/-!
# VLANs

Which policies get a parent (`services/nas_v2_apply.py`), which services get a Podman network
(`services/nas_v2_podman_network.py`), and which get a VRF (`services/nas_v2_nmstate.py`).
-/

open Dictionary Fallible Journal

namespace NixNas.Network

/-! ## Binding the parent -/

inductive BindError where
  /-- `network.vlanId` without `nas.networking.applicationVlanParent`. -/
  | noParent
  deriving DecidableEq, Repr

def isActive (service : Service) : Bool := service.managed && service.enabled

/-- `direct_services`. -/
def directVlan (service : Service) : Bool :=
  isActive service && service.networkProfile.isNone &&
    service.network.any fun policy ↦ policy.vlanId.isSome

/-- `referenced_profiles`. -/
def referencesVlan (effective : Effective) (profile : Text) : Bool :=
  (effective.networkProfiles.lookup profile).any (fun policy ↦ policy.vlanId.isSome) &&
    (items effective.services).any fun entry ↦
      isActive entry.2 && entry.2.networkProfile = some profile

def bindParent (parent : Text) (policy : Policy) : Policy := { policy with vlanParent := some parent }

def bindService (parent : Text) (service : Service) : Service :=
  if directVlan service then { service with network := service.network.map (bindParent parent) }
  else service

/-- The deep copy with the parent written into the active VLAN policies. -/
def bindEffective (effective : Effective) (parent : Text) : Effective where
  networkProfiles := mapValues (fun profile policy ↦
    if referencesVlan effective profile then bindParent parent policy else policy)
    effective.networkProfiles
  services := mapValues (fun _ service ↦ bindService parent service) effective.services
  identifiers := by
    rw [keys_mapValues]
    exact effective.identifiers

def bindPlatformVlanParent (effective : Effective) (vlanParent : Option Text) :
    Except BindError Effective :=
  if !(items effective.services).any (fun entry ↦ directVlan entry.2) &&
      !(items effective.networkProfiles).any (fun entry ↦ referencesVlan effective entry.1) then
    .ok effective
  else
    match vlanParent with
    | none | some [] => .error .noParent
    | some parent => .ok (bindEffective effective parent)

/-! ## Podman networks -/

/-- A `.network` source. -/
structure NetworkFile where
  reference : Text
  owner : Text
  networkName : Text
  interfaceName : Text
  isInternal : Bool
  vrf : Option Text
  deriving DecidableEq, Repr

section

variable (sha256 : Text → Text)

def bridgeInterfaceName (serviceId : Text) : Text := "nv2".toList ++ (sha256 serviceId).take 11

def podmanNetworkName (serviceId : Text) (service : Service) : Text :=
  (if service.kind = .session then "nas-v2-session-".toList else "nas-v2-".toList) ++ serviceId

def networkOwner (serviceId : Text) (service : Service) : Text :=
  if service.kind = .session then "nas-v2-session-".toList ++ serviceId ++ ".target".toList
  else if service.runtime = .compose then "nas-v2-".toList ++ serviceId ++ ".target".toList
  else "nas-v2-".toList ++ serviceId ++ ".service".toList

def networkSource (reference serviceId : Text) (service : Service) (policy : Policy) :
    Except NetworkError NetworkFile := do
  let vlan ← vlanBinding sha256 policy
  .ok { reference := reference
        owner := networkOwner serviceId service
        networkName := podmanNetworkName serviceId service
        interfaceName := bridgeInterfaceName sha256 serviceId
        isInternal := !externalEgress policy
        vrf := vlan.map fun binding ↦ binding.vrfInterface }

def serviceNetwork (effective : Effective) (firewalldEnabled : Bool) (entry : Text × Service) :
    Except NetworkError (Option NetworkFile) :=
  if !isActive entry.2 || !entry.2.runtime.isContainer then .ok none
  else do
    let reference ← quadletNetworkReference sha256 effective entry.1 entry.2 firewalldEnabled
    if !".network".toList.isSuffixOf reference then .ok none
    else do
      let policy ← networkPolicy effective entry.2
      let file ← networkSource sha256 reference entry.1 entry.2 policy
      .ok (some file)

/-- One step of `augment_projection`; `known` are the Quadlet names that are taken. -/
def addNetwork (effective : Effective) (firewalldEnabled : Bool) (known : Finset Text)
    (files : List NetworkFile) (entry : Text × Service) : Except NetworkError (List NetworkFile) := do
  match ← serviceNetwork sha256 effective firewalldEnabled entry with
  | none => .ok files
  | some file =>
    if file.reference ∈ known ∪ (files.map (·.reference)).toFinset then
      .error (.duplicateTarget file.reference)
    else .ok (files ++ [file])

/-- The services whose own rendering refers to their network: every direct OCI and Quadlet service,
enabled or not, and the active session templates. -/
def isRendered (service : Service) : Bool :=
  if service.kind = .session then isActive service
  else service.runtime = .oci || service.runtime = .quadlet

def renderReference (effective : Effective) (entry : Text × Service) : Except NetworkError Unit :=
  if isRendered entry.2 then do
    let _ ← quadletNetworkReference sha256 effective entry.1 entry.2 true
    .ok ()
  else .ok ()

/-- The network part of `_systemd_files` on the bound document: the sources of the services, then
those of the networks. -/
def projectNetworks (effective : Effective) (firewalldEnabled : Bool) (known : Finset Text) :
    Except NetworkError (List NetworkFile) := do
  ((byKey effective.services).filter fun entry ↦ entry.2.kind ≠ .session).forM
    (renderReference sha256 effective)
  ((byKey effective.services).filter fun entry ↦ entry.2.kind = .session).forM
    (renderReference sha256 effective)
  (byKey effective.services).foldlM (addNetwork sha256 effective firewalldEnabled known) []

/-! ## Host interfaces -/

inductive NmstateError where
  | noParent
  | network (error : NetworkError)
  deriving DecidableEq, Repr

inductive Interface where
  | vlan (name baseIface : Text) (id : Nat)
  | vrf (name port : Text) (routeTableId : Nat)
  deriving DecidableEq, Repr

def boundPolicy (policy : Policy) (vlanParent : Option Text) : Except NmstateError Policy :=
  if policy.vlanId.isNone || policy.vlanParent.isSome then .ok policy
  else
    match vlanParent with
    | none | some [] => .error .noParent
    | some parent => .ok (bindParent parent policy)

def addBinding (effective : Effective) (vlanParent : Option Text) (bindings : Store Text VlanBinding)
    (entry : Text × Service) : Except NmstateError (Store Text VlanBinding) :=
  if !isActive entry.2 then .ok bindings
  else do
    let policy ← (networkPolicy effective entry.2).mapError .network
    let policy ← boundPolicy policy vlanParent
    match ← (vlanBinding sha256 policy).mapError .network with
    | none => .ok bindings
    | some binding => .ok (bindings.insert binding.key binding)

def desiredState (effective : Effective) (vlanParent : Option Text) :
    Except NmstateError (List Interface) := do
  let bindings ← (byKey effective.services).foldlM (addBinding sha256 effective vlanParent) ∅
  .ok ((sorted bindings.keys).flatMap fun key ↦
    match bindings.lookup key with
    | none => []
    | some binding =>
      [.vlan binding.vlanInterface binding.parent binding.id,
        .vrf binding.vrfInterface binding.vlanInterface binding.table])

end

/-! ## What the claims of a VLAN come to -/

section

variable (sha256 : Text → Text) (effective : Effective) (parent : Text)

/-- A document has no `vlanParent`; the schema does not know it. -/
structure Unbound (effective : Effective) : Prop where
  profiles : ∀ entry ∈ items effective.networkProfiles, entry.2.vlanParent = none
  services : ∀ entry ∈ items effective.services, ∀ policy ∈ entry.2.network,
    policy.vlanParent = none

/-- No service is refused because its VLAN has no parent. -/
def NeverTogether : Prop :=
  ∀ bound, bindPlatformVlanParent effective (some parent) = .ok bound →
    ∀ entry ∈ items bound.services,
      (isRendered entry.2 || (isActive entry.2 && entry.2.runtime.isContainer)) = true →
      ∀ firewalldEnabled, quadletNetworkReference sha256 bound entry.1 entry.2 firewalldEnabled ≠
        .error .vlanTogether

/-- The VRFs that the Podman networks refer to are those of the host. -/
def VrfsMatch : Prop :=
  ∀ bound, bindPlatformVlanParent effective (some parent) = .ok bound →
    ∀ firewalldEnabled known files, projectNetworks sha256 bound firewalldEnabled known = .ok files →
      ∃ interfaces, desiredState sha256 effective (some parent) = .ok interfaces ∧
        ∀ name, (∃ file ∈ files, file.vrf = some name) ↔
          ∃ port table, Interface.vrf name port table ∈ interfaces

/-- The VLAN bindings are consistent: the parent is bound, nothing is refused for it, and both sides
have the same VRFs. -/
structure VlanConsistent : Prop where
  binds : ∃ bound, bindPlatformVlanParent effective (some parent) = .ok bound
  together : NeverTogether sha256 effective parent
  vrfs : VrfsMatch sha256 effective parent

/-- Every direct OCI or Quadlet service with a VLAN is enabled, or has the VLAN from a profile that
an active service has as well. -/
def VlansActive (effective : Effective) : Prop :=
  ∀ entry ∈ items effective.services, entry.2.kind ≠ .session →
    entry.2.runtime = .oci ∨ entry.2.runtime = .quadlet →
    ∀ policy, declaredPolicy effective entry.2 = some policy → policy.vlanId.isSome = true →
      isActive entry.2 = true ∨ ∃ profile, entry.2.networkProfile = some profile ∧
        ∃ other ∈ items effective.services, isActive other.2 = true ∧
          other.2.networkProfile = some profile

end

variable {sha256 : Text → Text} {effective : Effective} {parent : Text}
variable {service : Service} {policy : Policy} {id : Text} {firewalldEnabled : Bool}
  {bound : Effective} {entry : Text × Service}

theorem bindPlatformVlanParent_ok (hparent : parent ≠ []) :
    bindPlatformVlanParent effective (some parent) = .ok (bindEffective effective parent) := by
  unfold bindPlatformVlanParent
  split
  · rename_i hnone
    rw [Bool.and_eq_true, Bool.not_eq_true', Bool.not_eq_true', List.any_eq_false,
      List.any_eq_false] at hnone
    have hservices : mapValues (fun _ service ↦ bindService parent service) effective.services =
        effective.services := by
      apply mapValues_eq_self
      intro id service hservice
      unfold bindService
      rw [if_neg (hnone.1 _ hservice)]
    have hprofiles : mapValues (fun profile policy ↦
        if referencesVlan effective profile then bindParent parent policy else policy)
        effective.networkProfiles = effective.networkProfiles := by
      apply mapValues_eq_self
      intro profile policy hprofile
      rw [if_neg (hnone.2 _ hprofile)]
    unfold bindEffective
    rcases effective with ⟨profiles, services, hids⟩
    congr 1
    simp only [Effective.mk.injEq]
    exact ⟨hprofiles.symm, hservices.symm⟩
  · split
    · rename_i heq
      cases heq
    · rename_i heq
      exact (hparent (Option.some.inj heq)).elim
    · rename_i found _ heq
      rw [Option.some.inj heq]

/-- The parent reaches the policy of the service. -/
def isBound (effective : Effective) (service : Service) (policy : Policy) : Bool :=
  match service.networkProfile with
  | some profile => referencesVlan effective profile
  | none => isActive service && policy.vlanId.isSome

theorem vlanId_of_isBound (h : networkPolicy effective service = .ok policy)
    (hbound : isBound effective service policy = true) : policy.vlanId.isSome = true := by
  unfold isBound at hbound
  unfold networkPolicy at h
  cases hname : service.networkProfile with
  | none =>
    simp only [hname, Bool.and_eq_true] at hbound
    exact hbound.2
  | some profile =>
    simp only [hname] at hbound h
    unfold referencesVlan at hbound
    cases hfound : effective.networkProfiles.lookup profile with
    | none =>
      rw [hfound] at h
      cases h
    | some found =>
      rw [hfound] at h hbound
      cases h
      exact (Bool.and_eq_true _ _ ▸ hbound).1

theorem networkPolicy_bound (h : networkPolicy effective service = .ok policy) :
    networkPolicy (bindEffective effective parent) (bindService parent service) =
      .ok (if isBound effective service policy then bindParent parent policy else policy) := by
  unfold networkPolicy at h
  unfold isBound
  cases hname : service.networkProfile with
  | some profile =>
    have hdirect : directVlan service = false := by
      unfold directVlan
      rw [hname]
      simp
    simp only [hname] at h
    unfold bindService
    rw [hdirect, if_neg Bool.false_ne_true]
    unfold networkPolicy
    rw [hname]
    have hlookup : (bindEffective effective parent).networkProfiles.lookup profile =
        (effective.networkProfiles.lookup profile).map fun policy ↦
          if referencesVlan effective profile then bindParent parent policy else policy :=
      lookup_mapValues
    cases hfound : effective.networkProfiles.lookup profile with
    | none =>
      rw [hfound] at h
      cases h
    | some found =>
      rw [hfound] at h
      cases h
      simp only [hlookup, hfound, Option.map_some]
  | none =>
    simp only [hname] at h
    have hnetwork : service.network.getD hostPolicy = policy := Except.ok.inj h
    have hbound : (bindService parent service).networkProfile = none := by
      unfold bindService
      split
      · exact hname
      · exact hname
    unfold networkPolicy
    rw [hbound]
    unfold bindService directVlan
    cases hpolicy : service.network with
    | none =>
      rw [hpolicy] at hnetwork
      rw [← hnetwork]
      simp [hpolicy, hostPolicy]
    | some found =>
      rw [hpolicy] at hnetwork
      rw [← show found = policy from hnetwork]
      simp only [hname, Option.isNone_none, Bool.and_true, Option.any_some]
      split
      · rfl
      · rw [hpolicy]
        rfl

theorem bindService_fields (parent : Text) (service : Service) :
    (bindService parent service).kind = service.kind ∧
      (bindService parent service).runtime = service.runtime ∧
      isActive (bindService parent service) = isActive service := by
  unfold bindService
  split
  · exact ⟨rfl, rfl, rfl⟩
  · exact ⟨rfl, rfl, rfl⟩

theorem mem_bound :
    (id, service) ∈ items (bindEffective effective parent).services ↔
      ∃ original, (id, original) ∈ items effective.services ∧
        bindService parent original = service := mem_items_mapValues

/-! ## The refusal -/

theorem vlanBinding_together_iff :
    vlanBinding sha256 policy = .error .vlanTogether ↔
      policy.vlanId.isSome ≠ policy.vlanParent.isSome := by
  unfold vlanBinding
  cases policy.vlanId with
  | none =>
    cases policy.vlanParent with
    | none => simp
    | some parent => simp
  | some vid =>
    cases policy.vlanParent with
    | none => simp
    | some parent =>
      simp only [Option.isSome_some, ne_eq, not_true_eq_false, iff_false]
      split
      · nofun
      · split
        · nofun
        · nofun

theorem modeReference_ne_together {vlan : Option VlanBinding}
    (h : vlanBinding sha256 policy = .ok vlan) :
    modeReference sha256 id service policy vlan firewalldEnabled ≠ .error .vlanTogether := by
  unfold modeReference
  cases policy.mode with
  | none =>
    simp only
    split
    · nofun
    · split <;> nofun
  | host =>
    simp only
    split <;> nofun
  | isolated =>
    simp only
    intro herror
    rcases bind_error herror with hsupported | ⟨_, _, habsurd⟩
    · unfold isolatedSupported at hsupported
      rw [h] at hsupported
      have hchain : ite _ _ (ite _ _ (ite _ _ (ite _ _ _))) = _ := hsupported
      split at hchain
      · cases hchain
      · split at hchain
        · cases hchain
        · split at hchain
          · cases hchain
          · split at hchain <;> cases hchain
    · cases habsurd

theorem reference_together_iff (hpolicy : networkPolicy effective service = .ok policy) :
    quadletNetworkReference sha256 effective id service firewalldEnabled = .error .vlanTogether ↔
      policy.vlanId.isSome ≠ policy.vlanParent.isSome := by
  rw [← @vlanBinding_together_iff sha256]
  unfold quadletNetworkReference
  rw [hpolicy]
  show (vlanBinding sha256 policy >>= _) = _ ↔ _
  cases hvlan : vlanBinding sha256 policy with
  | error err =>
    constructor
    · intro h
      cases h
      rfl
    · intro h
      cases h
      rfl
  | ok vlan => exact iff_of_false (modeReference_ne_together hvlan) nofun

theorem vlanParent_none (hunbound : Unbound effective)
    (hservice : (id, service) ∈ items effective.services)
    (h : networkPolicy effective service = .ok policy) : policy.vlanParent = none := by
  unfold networkPolicy at h
  split at h
  · rename_i profile hprofile
    split at h
    · rename_i found hfound
      cases h
      exact hunbound.profiles _ (mem_items.mpr hfound)
    · cases h
  · cases hnetwork : service.network with
    | none =>
      rw [hnetwork] at h
      cases h
      rfl
    | some found =>
      rw [hnetwork] at h
      cases h
      exact hunbound.services _ hservice _ hnetwork

theorem neverTogether_iff (haccepted : Accepted effective) (hunbound : Unbound effective)
    (hparent : parent ≠ []) :
    NeverTogether sha256 effective parent ↔ ∀ entry ∈ items effective.services,
      (isRendered entry.2 || (isActive entry.2 && entry.2.runtime.isContainer)) = true →
      ∀ policy, networkPolicy effective entry.2 = .ok policy → policy.vlanId.isSome = true →
        isBound effective entry.2 policy = true := by
  have hrendered : ∀ service, isRendered (bindService parent service) = isRendered service := by
    intro service
    rcases bindService_fields parent service with ⟨hkind, hruntime, hactive⟩
    unfold isRendered
    rw [hkind, hruntime, hactive]
  unfold NeverTogether
  rw [bindPlatformVlanParent_ok hparent]
  constructor
  · intro h entry hentry hreached policy hpolicy hid
    have hfields := bindService_fields parent entry.2
    have hnever := h _ rfl (entry.1, bindService parent entry.2) (mem_bound.mpr ⟨_, hentry, rfl⟩)
      (by rw [hrendered, hfields.2.1, hfields.2.2]; exact hreached) true
    rw [ne_eq, reference_together_iff (networkPolicy_bound hpolicy), not_not] at hnever
    by_contra hbound
    rw [if_neg hbound, hid, vlanParent_none hunbound hentry hpolicy] at hnever
    cases hnever
  · intro h bound hbound entry hentry hreached firewalldEnabled
    cases hbound
    rcases mem_bound.mp hentry with ⟨service, hservice, heq⟩
    have hfields := bindService_fields parent service
    rw [← heq, hrendered, hfields.2.1, hfields.2.2] at hreached
    rcases haccepted.policy hservice with ⟨policy, hpolicy, _⟩
    rw [← heq, ne_eq, reference_together_iff (networkPolicy_bound hpolicy), not_not]
    split
    · rename_i hisBound
      have hid := vlanId_of_isBound hpolicy hisBound
      rw [show (bindParent parent policy).vlanId = policy.vlanId from rfl, hid]
      rfl
    · rename_i hnotBound
      have hnone := vlanParent_none hunbound hservice hpolicy
      rw [hnone]
      by_contra hid
      have hsome : policy.vlanId.isSome = true := by
        cases hvid : policy.vlanId with
        | none =>
          rw [hvid] at hid
          exact (hid rfl).elim
        | some vid => rfl
      exact hnotBound (h _ hservice hreached policy hpolicy hsome)

theorem neverTogether_iff_vlansActive (haccepted : Accepted effective)
    (hunbound : Unbound effective) (hparent : parent ≠ []) :
    NeverTogether sha256 effective parent ↔ VlansActive effective := by
  rw [neverTogether_iff haccepted hunbound hparent]
  constructor
  · intro h entry hentry hkind hruntime policy hdeclared hid
    rcases haccepted.policy hentry with ⟨found, hfound, hpolicy⟩
    rw [hdeclared] at hpolicy
    rw [show found = policy from hpolicy] at hfound
    have hreached : isRendered entry.2 = true := by
      unfold isRendered
      rw [if_neg hkind]
      rcases hruntime with hruntime | hruntime
      · rw [hruntime]
        rfl
      · rw [hruntime]
        rfl
    have hbound := h entry hentry (by rw [hreached]; rfl) policy hfound hid
    unfold isBound at hbound
    cases hname : entry.2.networkProfile with
    | none =>
      simp only [hname, Bool.and_eq_true] at hbound
      exact .inl hbound.1
    | some profile =>
      simp only [hname] at hbound
      unfold referencesVlan at hbound
      rw [Bool.and_eq_true, List.any_eq_true] at hbound
      rcases hbound.2 with ⟨other, hother, hactive⟩
      rw [Bool.and_eq_true, decide_eq_true_eq] at hactive
      exact .inr ⟨profile, rfl, other, hother, hactive.1, hactive.2⟩
  · intro h entry hentry hreached policy hpolicy hid
    rcases haccepted.policy hentry with ⟨found, hfound, hdeclared⟩
    cases hfound.symm.trans hpolicy
    -- a policy with a VLAN is a declared one
    have hsome : declaredPolicy effective entry.2 = some policy := by
      cases hcase : declaredPolicy effective entry.2 with
      | none =>
        rw [hcase] at hdeclared
        rw [show policy = hostPolicy from hdeclared] at hid
        cases hid
      | some other =>
        rw [hcase] at hdeclared
        rw [show policy = other from hdeclared]
    have hactive : isActive entry.2 = true ∨ ∃ profile, entry.2.networkProfile = some profile ∧
        ∃ other ∈ items effective.services, isActive other.2 = true ∧
          other.2.networkProfile = some profile := by
      rcases Bool.eq_false_or_eq_true (isActive entry.2) with hactive | hinactive
      · exact .inl hactive
      · unfold isRendered at hreached
        rw [hinactive] at hreached
        split at hreached
        · cases hreached
        · rename_i hkind
          rw [Bool.false_and, Bool.or_false, Bool.or_eq_true, decide_eq_true_eq,
            decide_eq_true_eq] at hreached
          exact h entry hentry hkind hreached policy hsome hid
    unfold isBound
    cases hname : entry.2.networkProfile with
    | none =>
      rcases hactive with hactive | ⟨profile, hprofile, _⟩
      · simp only [hactive, hid, Bool.and_self]
      · rw [hname] at hprofile
        cases hprofile
    | some profile =>
      unfold referencesVlan
      have hlookup : effective.networkProfiles.lookup profile = some policy := by
        unfold declaredPolicy at hsome
        rw [hname] at hsome
        exact hsome
      simp only [hlookup, Option.any_some, hid, Bool.true_and, List.any_eq_true, Bool.and_eq_true,
        decide_eq_true_eq]
      rcases hactive with hactive | ⟨other, hother, entry', hentry', hactive', hname'⟩
      · exact ⟨entry, hentry, hactive, hname⟩
      · rw [hname] at hother
        cases hother
        exact ⟨entry', hentry', hactive', hname'⟩

/-! ## The network of a service -/

theorem serviceNetwork_ok {file : Option NetworkFile}
    (hpolicy : networkPolicy bound entry.2 = .ok policy)
    (hcontainer : (isActive entry.2 && entry.2.runtime.isContainer) = true)
    (h : serviceNetwork sha256 bound firewalldEnabled entry = .ok file) :
    ∃ vlan, vlanBinding sha256 policy = .ok vlan ∧
      (policy.mode = .isolated →
        ∃ found, file = some found ∧ found.reference = networkReference entry.1 entry.2 ∧
          found.vrf = vlan.map fun binding ↦ binding.vrfInterface) ∧
      (policy.mode ≠ .isolated → file = none) := by
  have hguard : ¬ (!isActive entry.2 || !entry.2.runtime.isContainer) = true := by
    rw [Bool.and_eq_true] at hcontainer
    rw [hcontainer.1, hcontainer.2]
    decide
  unfold serviceNetwork at h
  rw [if_neg hguard] at h
  rcases bind_ok h with ⟨reference, hreference, h⟩
  unfold quadletNetworkReference at hreference
  rw [hpolicy] at hreference
  rcases bind_ok hreference with ⟨_, hsame, hreference⟩
  cases hsame
  rcases bind_ok hreference with ⟨vlan, hvlan, hreference⟩
  refine ⟨vlan, hvlan, ?_⟩
  unfold modeReference at hreference
  cases hmode : policy.mode with
  | none =>
    rw [hmode] at hreference
    simp only at hreference
    split at hreference
    · cases hreference
    · split at hreference
      · cases hreference
      · cases hreference
        rw [if_pos (by decide)] at h
        exact ⟨nofun, fun _ => (Except.ok.inj h).symm⟩
  | host =>
    rw [hmode] at hreference
    simp only at hreference
    split at hreference
    · cases hreference
    · cases hreference
      rw [if_pos (by decide)] at h
      exact ⟨nofun, fun _ => (Except.ok.inj h).symm⟩
  | isolated =>
    rw [hmode] at hreference
    rcases bind_ok hreference with ⟨_, _, hreference⟩
    cases hreference
    have hsuffix : ".network".toList.isSuffixOf (networkReference entry.1 entry.2) = true := by
      rw [List.isSuffixOf_iff_suffix]
      exact List.suffix_append _ _
    rw [hsuffix, if_neg (by decide), hpolicy] at h
    rcases bind_ok h with ⟨_, hsame, h⟩
    cases hsame
    rcases bind_ok h with ⟨found, hfound, h⟩
    cases h
    unfold networkSource at hfound
    rw [hvlan] at hfound
    cases hfound
    exact ⟨fun _ => ⟨_, rfl, rfl, rfl⟩, fun hne => (hne rfl).elim⟩

/-- Only an active container has a network of its own, and the kind of the service names it. -/
theorem serviceNetwork_some
    {file : NetworkFile} (h : serviceNetwork sha256 bound firewalldEnabled entry = .ok (some file)) :
    isActive entry.2 = true ∧ entry.2.runtime.isContainer = true ∧
      file.reference = networkReference entry.1 entry.2 := by
  have hcontainer : (isActive entry.2 && entry.2.runtime.isContainer) = true := by
    by_contra hnot
    unfold serviceNetwork at h
    rw [if_pos (by rw [← Bool.not_and, Bool.not_eq_true _ |>.mp hnot]; rfl)] at h
    cases h
  have hboth := Bool.and_eq_true _ _ ▸ hcontainer
  refine ⟨hboth.1, hboth.2, ?_⟩
  have hpolicy : ∃ policy, networkPolicy bound entry.2 = .ok policy := by
    unfold serviceNetwork at h
    rw [if_neg (by rw [hboth.1, hboth.2]; decide)] at h
    rcases bind_ok h with ⟨_, hreference, _⟩
    rcases bind_ok hreference with ⟨policy, hpolicy, _⟩
    exact ⟨policy, hpolicy⟩
  rcases hpolicy with ⟨policy, hpolicy⟩
  rcases serviceNetwork_ok hpolicy hcontainer h with ⟨_, _, hisolated, hother⟩
  by_cases hmode : policy.mode = .isolated
  · rcases hisolated hmode with ⟨_, hfound, hreference, _⟩
    cases hfound
    exact hreference
  · cases hother hmode

end NixNas.Network
