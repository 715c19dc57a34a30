import NixNas.Network.Vlan

/-!
# VRFs

The VRFs that the Podman networks refer to, and those of the host.
-/

open Dictionary Fallible Journal

namespace NixNas.Network

variable {sha256 : Text → Text} {effective : Effective} {parent : Text}
variable {policy : Policy} {binding : VlanBinding} {id : Text} {service : Service}
  {firewalldEnabled : Bool} {bound : Effective} {known : Finset Text}
  {files files' : List NetworkFile} {l entries : List (Text × Service)}
  {bindings : Store Text VlanBinding}

def vrfName (key : Text) : Text := "nv2vrf".toList ++ key.take 7

theorem vrfInterface_eq (h : vlanBinding sha256 policy = .ok (some binding)) :
    binding.vrfInterface = vrfName binding.key := by
  unfold vlanBinding at h
  split at h
  · cases h
  · split at h
    · cases h
    · split at h
      · cases h
      · cases h
        rfl
  · cases h

def HasBinding (sha256 : Text → Text) (effective : Effective) (parent : Text) (service : Service)
    (binding : VlanBinding) : Prop :=
  isActive service = true ∧ ∃ policy, networkPolicy effective service = .ok policy ∧
    policy.vlanId.isSome = true ∧ vlanBinding sha256 (bindParent parent policy) = .ok (some binding)

def HasVrf (sha256 : Text → Text) (effective : Effective) (parent : Text) (service : Service)
    (name : Text) : Prop :=
  ∃ binding, HasBinding sha256 effective parent service binding ∧ binding.vrfInterface = name

theorem vlanBinding_none (hid : policy.vlanId.isSome = false)
    (hparent : policy.vlanParent = none) : vlanBinding sha256 policy = .ok none := by
  unfold vlanBinding
  cases hvid : policy.vlanId with
  | some vid =>
    rw [hvid] at hid
    cases hid
  | none =>
    rw [hparent]

theorem isolated_of_vlanId (haccepted : Accepted effective)
    (hservice : (id, service) ∈ items effective.services)
    (hpolicy : networkPolicy effective service = .ok policy) (hid : policy.vlanId.isSome = true) :
    policy.mode = .isolated ∧ service.runtime.isContainer = true ∧
      declaredPolicy effective service = some policy := by
  rcases haccepted.policy hservice with ⟨found, hfound, hdeclared⟩
  cases hfound.symm.trans hpolicy
  cases hcase : declaredPolicy effective service with
  | none =>
    rw [hcase] at hdeclared
    rw [show policy = hostPolicy from hdeclared] at hid
    cases hid
  | some other =>
    rw [hcase] at hdeclared
    rw [← show policy = other from hdeclared]
    have hcheck := ((checkNetwork_ok (haccepted.network _ hservice)).2.2 _ hcase).1
    rw [← show policy = other from hdeclared] at hcheck
    unfold checkVlan at hcheck
    split at hcheck
    · rename_i hnone
      rw [Option.isNone_iff_eq_none] at hnone
      rw [hnone] at hid
      cases hid
    · split at hcheck
      · cases hcheck
      · rename_i hmode
        split at hcheck
        · cases hcheck
        · rename_i hruntime
          rw [Bool.or_eq_true, not_or, Bool.not_eq_true', Bool.not_eq_true', Bool.not_eq_false,
            Bool.not_eq_false] at hruntime
          exact ⟨not_not.mp hmode, hruntime.2, rfl⟩

theorem isBound_of_active (haccepted : Accepted effective)
    (hservice : (id, service) ∈ items effective.services)
    (hpolicy : networkPolicy effective service = .ok policy) (hid : policy.vlanId.isSome = true)
    (hactive : isActive service = true) : isBound effective service policy = true := by
  unfold isBound
  cases hname : service.networkProfile with
  | none => simp only [hactive, hid, Bool.and_self]
  | some profile =>
    have hlookup : effective.networkProfiles.lookup profile = some policy := by
      have hdeclared := (isolated_of_vlanId haccepted hservice hpolicy hid).2.2
      unfold declaredPolicy at hdeclared
      rw [hname] at hdeclared
      exact hdeclared
    unfold referencesVlan
    simp only [hlookup, Option.any_some, hid, Bool.true_and, List.any_eq_true, Bool.and_eq_true,
      decide_eq_true_eq]
    exact ⟨_, hservice, hactive, hname⟩

theorem networkPolicy_active (haccepted : Accepted effective)
    (hservice : (id, service) ∈ items effective.services)
    (hpolicy : networkPolicy effective service = .ok policy) (hactive : isActive service = true) :
    networkPolicy (bindEffective effective parent) (bindService parent service) =
      .ok (if policy.vlanId.isSome then bindParent parent policy else policy) := by
  rw [networkPolicy_bound hpolicy]
  cases hid : policy.vlanId.isSome with
  | true => rw [isBound_of_active haccepted hservice hpolicy hid hactive]
  | false =>
    rw [if_neg, if_neg Bool.false_ne_true]
    intro hbound
    rw [vlanId_of_isBound hpolicy hbound] at hid
    cases hid

theorem serviceNetwork_vrf (haccepted : Accepted effective) (hunbound : Unbound effective)
    (hservice : (id, service) ∈ items effective.services)
    {file : Option NetworkFile}
    (h : serviceNetwork sha256 (bindEffective effective parent) firewalldEnabled
      (id, bindService parent service) = .ok file) (name : Text) :
    (∃ found ∈ file, found.vrf = some name) ↔ HasVrf sha256 effective parent service name := by
  rcases bindService_fields parent service with ⟨_, hruntime, hactive⟩
  rcases haccepted.policy hservice with ⟨policy, hpolicy, _⟩
  cases hguard : (isActive service && service.runtime.isContainer) with
  | false =>
    have hnone : file = none := by
      unfold serviceNetwork at h
      simp only [hruntime, hactive] at h
      rw [← Bool.not_and, hguard] at h
      exact (Except.ok.inj h).symm
    rw [hnone]
    constructor
    · rintro ⟨_, hmem, _⟩
      cases hmem
    · rintro ⟨binding, ⟨hisActive, found, hfound, hid, _⟩, _⟩
      rw [hisActive, (isolated_of_vlanId haccepted hservice hfound hid).2.1] at hguard
      cases hguard
  | true =>
    have hisActive := (Bool.and_eq_true _ _ ▸ hguard : _ ∧ _).1
    rcases serviceNetwork_ok (networkPolicy_active haccepted hservice hpolicy hisActive)
      (by rw [hactive, hruntime]; exact hguard) h with
      ⟨vlan, hvlan, hisolated, hother⟩
    cases hid : policy.vlanId.isSome with
    | false =>
      rw [hid, if_neg Bool.false_ne_true] at hvlan
      rw [vlanBinding_none hid (vlanParent_none hunbound hservice hpolicy)] at hvlan
      cases hvlan
      constructor
      · rintro ⟨found, rfl, hvrf⟩
        rw [hid, if_neg Bool.false_ne_true] at hisolated hother
        by_cases hmode : policy.mode = .isolated
        · rcases hisolated hmode with ⟨_, hfound, _, hnone⟩
          cases hfound
          rw [hnone] at hvrf
          cases hvrf
        · cases hother hmode
      · rintro ⟨_, ⟨_, found, hfound, hsome, _⟩, _⟩
        cases hfound.symm.trans hpolicy
        rw [hid] at hsome
        cases hsome
    | true =>
      rw [hid, if_pos rfl] at hvlan hisolated
      rcases hisolated (isolated_of_vlanId haccepted hservice hpolicy hid).1 with
        ⟨found, hfound, _, hvrf⟩
      have hsome := vlanBinding_isSome hvlan
      rw [show (bindParent parent policy).vlanId = policy.vlanId from rfl, hid] at hsome
      rcases Option.isSome_iff_exists.mp hsome with ⟨binding, rfl⟩
      rw [hfound]
      constructor
      · rintro ⟨_, hmem, hname⟩
        cases hmem
        rw [hvrf] at hname
        exact ⟨binding, ⟨hisActive, policy, hpolicy, hid, hvlan⟩, Option.some.inj hname⟩
      · rintro ⟨other, ⟨_, found', hfound', _, hother⟩, rfl⟩
        cases hfound'.symm.trans hpolicy
        cases hother.symm.trans hvlan
        exact ⟨found, rfl, hvrf⟩

theorem addNetwork_ok {entry : Text × Service}
    (h : addNetwork sha256 bound firewalldEnabled known files entry = .ok files') :
    ∃ file, serviceNetwork sha256 bound firewalldEnabled entry = .ok file ∧
      files' = files ++ file.toList ∧ ∀ found ∈ file,
        found.reference ∉ known ∧ found.reference ∉ files.map (·.reference) := by
  unfold addNetwork at h
  rcases bind_ok h with ⟨file, hfile, h⟩
  refine ⟨file, hfile, ?_⟩
  cases file with
  | none =>
    cases h
    exact ⟨(List.append_nil _).symm, nofun⟩
  | some file =>
    have hchain : ite _ _ _ = _ := h
    split at hchain
    · cases hchain
    · rename_i hfresh
      cases hchain
      rw [Finset.mem_union, List.mem_toFinset, not_or] at hfresh
      refine ⟨rfl, ?_⟩
      intro found hfound
      rw [← Option.some.inj hfound]
      exact hfresh

theorem mem_networks
    (h : l.foldlM (addNetwork sha256 bound firewalldEnabled known) files = .ok files')
    (file : NetworkFile) :
    file ∈ files' ↔ file ∈ files ∨
      ∃ entry ∈ l, serviceNetwork sha256 bound firewalldEnabled entry = .ok (some file) := by
  induction l generalizing files with
  | nil =>
    cases h
    simp
  | cons entry l ih =>
    rw [List.foldlM_cons] at h
    rcases bind_ok h with ⟨next, hnext, h⟩
    rcases addNetwork_ok hnext with ⟨found, hfound, rfl, _⟩
    rw [ih h, List.mem_append, Option.mem_toList, List.exists_mem_cons_iff, or_assoc, hfound,
      Except.ok.injEq]

theorem nodup_references
    (h : l.foldlM (addNetwork sha256 bound firewalldEnabled known) files = .ok files')
    (hnodup : (files.map (·.reference)).Nodup) (hfresh : ∀ file ∈ files, file.reference ∉ known) :
    (files'.map (·.reference)).Nodup ∧ ∀ file ∈ files', file.reference ∉ known := by
  induction l generalizing files with
  | nil =>
    cases h
    exact ⟨hnodup, hfresh⟩
  | cons entry l ih =>
    rw [List.foldlM_cons] at h
    rcases bind_ok h with ⟨next, hnext, h⟩
    rcases addNetwork_ok hnext with ⟨found, _, rfl, hfound⟩
    apply ih h
    · cases found with
      | none => rwa [Option.toList_none, List.append_nil]
      | some file =>
        rw [Option.toList_some, List.map_append, List.map_singleton, List.nodup_append_comm,
          List.singleton_append, List.nodup_cons]
        exact ⟨(hfound file rfl).2, hnodup⟩
    · intro file hfile
      rcases List.mem_append.mp hfile with hfile | hfile
      · exact hfresh file hfile
      · exact (hfound file (Option.mem_toList.mp hfile)).1

theorem networks_vrf (haccepted : Accepted effective) (hunbound : Unbound effective)
    (h : projectNetworks sha256 (bindEffective effective parent) firewalldEnabled known = .ok files)
    (name : Text) :
    (∃ file ∈ files, file.vrf = some name) ↔
      ∃ entry ∈ items effective.services, HasVrf sha256 effective parent entry.2 name := by
  unfold projectNetworks at h
  rcases bind_ok h with ⟨_, _, h⟩
  rcases bind_ok h with ⟨_, _, h⟩
  constructor
  · rintro ⟨file, hfile, hvrf⟩
    rcases (mem_networks h file).mp hfile with hempty | ⟨entry, hentry, hnetwork⟩
    · exact (List.not_mem_nil hempty).elim
    · rcases mem_bound.mp (mem_byKey.mp hentry) with ⟨service, hservice, heq⟩
      rw [show entry = (entry.1, bindService parent service) from Prod.ext rfl heq.symm] at hnetwork
      exact ⟨_, hservice, (serviceNetwork_vrf haccepted hunbound hservice hnetwork name).mp
        ⟨file, rfl, hvrf⟩⟩
  · rintro ⟨⟨id, service⟩, hservice, hhas⟩
    have hbound : (id, bindService parent service) ∈
        byKey (bindEffective effective parent).services :=
      mem_byKey.mpr (mem_bound.mpr ⟨_, hservice, rfl⟩)
    rcases foldlM_step h hbound with ⟨_, _, hstep⟩
    rcases addNetwork_ok hstep with ⟨file, hnetwork, _⟩
    rcases (serviceNetwork_vrf haccepted hunbound hservice hnetwork name).mpr hhas
      with ⟨found, hmem, hvrf⟩
    rw [show file = some found from hmem] at hnetwork
    exact ⟨found, (mem_networks h found).mpr (.inr ⟨_, hbound, hnetwork⟩), hvrf⟩

theorem exists_binding (haccepted : Accepted effective)
    (h : projectNetworks sha256 (bindEffective effective parent) firewalldEnabled known = .ok files)
     (hservice : (id, service) ∈ items effective.services)
    (hactive : isActive service = true)
    (hpolicy : networkPolicy effective service = .ok policy) (hid : policy.vlanId.isSome = true) :
    ∃ binding, vlanBinding sha256 (bindParent parent policy) = .ok (some binding) := by
  unfold projectNetworks at h
  rcases bind_ok h with ⟨_, _, h⟩
  rcases bind_ok h with ⟨_, _, h⟩
  rcases bindService_fields parent service with ⟨_, hruntime, hisActive⟩
  have hbound : (id, bindService parent service) ∈ byKey (bindEffective effective parent).services :=
    mem_byKey.mpr (mem_bound.mpr ⟨_, hservice, rfl⟩)
  rcases foldlM_step h hbound with ⟨_, _, hstep⟩
  rcases addNetwork_ok hstep with ⟨file, hnetwork, _⟩
  have hcontainer := (isolated_of_vlanId haccepted hservice hpolicy hid).2.1
  rcases serviceNetwork_ok (networkPolicy_active haccepted hservice hpolicy hactive)
    (by rw [hisActive, hruntime, hactive, hcontainer]; rfl) hnetwork with ⟨vlan, hvlan, _, _⟩
  rw [hid, if_pos rfl] at hvlan
  have hsome := vlanBinding_isSome hvlan
  rw [show (bindParent parent policy).vlanId = policy.vlanId from rfl, hid] at hsome
  rcases Option.isSome_iff_exists.mp hsome with ⟨binding, rfl⟩
  exact ⟨binding, hvlan⟩

theorem boundPolicy_some (hparent : parent ≠ []) (hnone : policy.vlanParent = none) :
    boundPolicy policy (some parent) =
      .ok (if policy.vlanId.isSome then bindParent parent policy else policy) := by
  unfold boundPolicy
  rw [hnone]
  cases policy.vlanId with
  | none => rfl
  | some vid =>
    cases parent with
    | nil => exact (hparent rfl).elim
    | cons c cs => rfl

theorem eq_of_hasBinding {other : VlanBinding}
    (h : HasBinding sha256 effective parent service binding)
    (h' : HasBinding sha256 effective parent service other) : binding = other := by
  rcases h with ⟨_, policy, hpolicy, _, hbinding⟩
  rcases h' with ⟨_, policy', hpolicy', _, hother⟩
  cases hpolicy.symm.trans hpolicy'
  exact Option.some.inj (Except.ok.inj (hbinding.symm.trans hother))

/-- Every VLAN of an active service has a binding. -/
def Bindable (sha256 : Text → Text) (effective : Effective) (parent : Text) (service : Service) :
    Prop :=
  isActive service = true → ∀ policy, networkPolicy effective service = .ok policy →
    policy.vlanId.isSome = true →
    ∃ binding, vlanBinding sha256 (bindParent parent policy) = .ok (some binding)

theorem addBinding_ok (haccepted : Accepted effective) (hunbound : Unbound effective)
    (hparent : parent ≠ [])
    (hservice : (id, service) ∈ items effective.services)
    (hbindable : Bindable sha256 effective parent service) (bindings : Store Text VlanBinding) :
    ∃ bindings', addBinding sha256 effective (some parent) bindings (id, service) = .ok bindings' ∧
      ((∃ binding, HasBinding sha256 effective parent service binding ∧
          bindings' = bindings.insert binding.key binding) ∨
        (∀ binding, ¬ HasBinding sha256 effective parent service binding) ∧ bindings' = bindings) := by
  unfold addBinding
  cases hactive : isActive service with
  | false =>
    refine ⟨bindings, rfl, .inr ⟨?_, rfl⟩⟩
    rintro binding ⟨hisActive, _⟩
    rw [hactive] at hisActive
    cases hisActive
  | true =>
    rcases haccepted.policy hservice with ⟨policy, hpolicy, _⟩
    have hnone := vlanParent_none hunbound hservice hpolicy
    rw [Bool.not_true, if_neg Bool.false_ne_true, hpolicy]
    show ∃ _, (boundPolicy policy (some parent) >>= _) = _ ∧ _
    rw [boundPolicy_some hparent hnone]
    cases hid : policy.vlanId.isSome with
    | false =>
      rw [if_neg Bool.false_ne_true]
      show ∃ _, ((vlanBinding sha256 policy).mapError NmstateError.network >>= _) = _ ∧ _
      rw [vlanBinding_none hid hnone]
      refine ⟨bindings, rfl, .inr ⟨?_, rfl⟩⟩
      rintro binding ⟨_, found, hfound, hsome, _⟩
      cases hfound.symm.trans hpolicy
      rw [hid] at hsome
      cases hsome
    | true =>
      rcases hbindable hactive policy hpolicy hid with ⟨binding, hbinding⟩
      rw [if_pos rfl]
      show ∃ _, ((vlanBinding sha256 (bindParent parent policy)).mapError NmstateError.network >>= _) = _ ∧ _
      rw [hbinding]
      exact ⟨_, rfl, .inl ⟨binding, ⟨hactive, policy, hpolicy, hid, hbinding⟩, rfl⟩⟩

/-- The bindings of a list of services: each is that of a service, under its own key, and no service
is without one. -/
structure Collected (sha256 : Text → Text) (effective : Effective) (parent : Text)
    (entries : List (Text × Service)) (bindings : Store Text VlanBinding) : Prop where
  owned : ∀ key binding, bindings.lookup key = some binding → binding.key = key ∧
    ∃ entry ∈ entries, HasBinding sha256 effective parent entry.2 binding
  complete : ∀ entry ∈ entries, ∀ binding, HasBinding sha256 effective parent entry.2 binding →
    (bindings.lookup binding.key).isSome = true

theorem Collected.step {bindings' : Store Text VlanBinding}
    (h : Collected sha256 effective parent entries bindings) (entry : Text × Service)
    (hstep : (∃ binding, HasBinding sha256 effective parent entry.2 binding ∧
        bindings' = bindings.insert binding.key binding) ∨
      (∀ binding, ¬ HasBinding sha256 effective parent entry.2 binding) ∧ bindings' = bindings) :
    Collected sha256 effective parent (entries ++ [entry]) bindings' := by
  rcases hstep with ⟨added, hadded, rfl⟩ | ⟨hnone, rfl⟩
  · have hset := sets_insert added.key added bindings
    constructor
    · intro key binding hlookup
      rw [hset key] at hlookup
      split at hlookup
      · rename_i hkey
        cases hlookup
        exact ⟨hkey.symm, entry, by simp, hadded⟩
      · rcases h.owned key binding hlookup with ⟨hkey, owner, howner, hbinding⟩
        exact ⟨hkey, owner, List.mem_append_left _ howner, hbinding⟩
    · intro owner howner binding hbinding
      rw [hset binding.key]
      split
      · rfl
      · rename_i hkey
        rcases List.mem_append.mp howner with howner | howner
        · exact h.complete owner howner binding hbinding
        · rw [List.mem_singleton.mp howner] at hbinding
          rw [eq_of_hasBinding hbinding hadded] at hkey
          exact (hkey rfl).elim
  · constructor
    · intro key binding hlookup
      rcases h.owned key binding hlookup with ⟨hkey, owner, howner, hbinding⟩
      exact ⟨hkey, owner, List.mem_append_left _ howner, hbinding⟩
    · intro owner howner binding hbinding
      rcases List.mem_append.mp howner with howner | howner
      · exact h.complete owner howner binding hbinding
      · rw [List.mem_singleton.mp howner] at hbinding
        exact (hnone binding hbinding).elim

theorem collected_run (haccepted : Accepted effective) (hunbound : Unbound effective)
    (hparent : parent ≠ [])
    (hl : ∀ entry ∈ l, entry ∈ items effective.services ∧
      Bindable sha256 effective parent entry.2)
    (h : Collected sha256 effective parent entries bindings) :
    ∃ bindings', l.foldlM (addBinding sha256 effective (some parent)) bindings = .ok bindings' ∧
      Collected sha256 effective parent (entries ++ l) bindings' := by
  induction l generalizing entries bindings with
  | nil =>
    rw [List.append_nil]
    exact ⟨bindings, rfl, h⟩
  | cons entry l ih =>
    rw [List.forall_mem_cons] at hl
    rcases addBinding_ok haccepted hunbound hparent hl.1.1 hl.1.2 bindings with ⟨next, hnext, hstep⟩
    rcases ih hl.2 (h.step entry hstep) with ⟨last, hlast, hcollected⟩
    refine ⟨last, ?_, ?_⟩
    · rw [List.foldlM_cons, hnext]
      exact hlast
    · rwa [List.append_assoc, List.singleton_append] at hcollected

theorem desiredState_vrf (haccepted : Accepted effective) (hunbound : Unbound effective)
    (hparent : parent ≠ [])
    (hbindable : ∀ entry ∈ items effective.services, Bindable sha256 effective parent entry.2) :
    ∃ interfaces, desiredState sha256 effective (some parent) = .ok interfaces ∧
      ∀ name, (∃ port table, Interface.vrf name port table ∈ interfaces) ↔
        ∃ entry ∈ items effective.services, HasVrf sha256 effective parent entry.2 name := by
  have hempty : Collected sha256 effective parent [] ∅ :=
    ⟨fun _ _ h => (nomatch h), fun _ h => (List.not_mem_nil h).elim⟩
  rcases collected_run haccepted hunbound hparent (l := byKey effective.services)
    (fun entry hentry => ⟨mem_byKey.mp hentry, hbindable entry (mem_byKey.mp hentry)⟩) hempty with
    ⟨bindings, hrun, hcollected⟩
  rw [List.nil_append] at hcollected
  unfold desiredState
  rw [hrun]
  refine ⟨_, rfl, ?_⟩
  intro name
  simp only [List.mem_flatMap, mem_sorted, Finmap.mem_keys]
  constructor
  · rintro ⟨port, table, key, _, hmem⟩
    cases hlookup : bindings.lookup key with
    | none =>
      rw [hlookup] at hmem
      exact (List.not_mem_nil hmem).elim
    | some binding =>
      simp only [hlookup, List.mem_cons, reduceCtorEq, Interface.vrf.injEq, List.not_mem_nil,
        or_false, false_or] at hmem
      rcases hcollected.owned key binding hlookup with ⟨_, entry, hentry, hbinding⟩
      exact ⟨entry, mem_byKey.mp hentry, binding, hbinding, hmem.1.symm⟩
  · rintro ⟨entry, hentry, binding, hbinding, rfl⟩
    rcases Option.isSome_iff_exists.mp
      (hcollected.complete entry (mem_byKey.mpr hentry) binding hbinding) with ⟨stored, hstored⟩
    rcases hcollected.owned _ _ hstored with ⟨hkey, _, _, _, policy, _, _, hother⟩
    -- the stored binding may be that of another service, with the same digest and so the same name
    have hname : stored.vrfInterface = binding.vrfInterface := by
      rcases hbinding with ⟨_, _, _, _, hbinding⟩
      rw [vrfInterface_eq hother, vrfInterface_eq hbinding, hkey]
    refine ⟨stored.vlanInterface, stored.table, binding.key, ?_, ?_⟩
    · rw [← Finmap.lookup_isSome, hstored]
      rfl
    · simp only [hstored, List.mem_cons, reduceCtorEq, hname, List.not_mem_nil, or_false, false_or]

theorem vrfsMatch (haccepted : Accepted effective) (hunbound : Unbound effective)
    (hparent : parent ≠ []) : VrfsMatch sha256 effective parent := by
  intro bound hbound firewalldEnabled known files hfiles
  rw [bindPlatformVlanParent_ok hparent] at hbound
  cases hbound
  have hbindable : ∀ entry ∈ items effective.services, Bindable sha256 effective parent entry.2 :=
    fun _ hentry hactive _ hpolicy hid =>
      exists_binding haccepted hfiles hentry hactive hpolicy hid
  rcases desiredState_vrf haccepted hunbound hparent hbindable with ⟨interfaces, hstate, hvrf⟩
  refine ⟨interfaces, hstate, ?_⟩
  intro name
  rw [networks_vrf haccepted hunbound hfiles, hvrf]

/-- The VLAN bindings are consistent exactly where every rendered VLAN is that of an active
service. -/
theorem vlanConsistent_iff (h : semanticValidate effective = .ok ()) (hunbound : Unbound effective)
    (hparent : parent ≠ []) :
    VlanConsistent sha256 effective parent ↔ VlansActive effective := by
  have haccepted := accepted_of_valid h
  rw [← neverTogether_iff_vlansActive haccepted hunbound hparent]
  constructor
  · exact VlanConsistent.together
  · intro htogether
    exact ⟨⟨_, bindPlatformVlanParent_ok hparent⟩, htogether, vrfsMatch haccepted hunbound hparent⟩

def vlanService (enabled : Bool) : Service :=
  ⟨enabled, true, .oci, .daemon, some { hostPolicy with mode := .isolated, vlanId := some 7 }, none,
    ∅, ∅⟩

theorem vlanOnly_identifiers : ∀ id ∈ ["app".toList], Caddy.isSchemaId id = true :=
  forall_mem_of_all (by decide)

def vlanOnly (enabled : Bool) : Effective :=
  ⟨∅, .singleton "app".toList (vlanService enabled), vlanOnly_identifiers⟩

theorem unbound_vlanOnly (enabled : Bool) : Unbound (vlanOnly enabled) := by
  constructor
  · intro entry hentry
    exact (List.not_mem_nil hentry).elim
  · intro entry hentry policy hpolicy
    rw [show entry = ("app".toList, vlanService enabled) from List.mem_singleton.mp hentry] at hpolicy
    cases hpolicy
    rfl

/-- Disabling the container makes the projection fail. -/
theorem not_vlanConsistent_disabled :
    semanticValidate (vlanOnly false) = .ok () ∧ Unbound (vlanOnly false) ∧
      (∃ bound, bindPlatformVlanParent (vlanOnly true) (some "eno1".toList) = .ok bound ∧
        ∃ files, projectNetworks (fun value ↦ value) bound true ∅ = .ok files) ∧
      (∃ bound, bindPlatformVlanParent (vlanOnly false) (some "eno1".toList) = .ok bound ∧
        projectNetworks (fun value ↦ value) bound true ∅ = .error .vlanTogether) ∧
      ¬ VlanConsistent (fun value ↦ value) (vlanOnly false) "eno1".toList := by
  have hvalid : isOk (semanticValidate (vlanOnly false)) = true := by decide
  rcases exists_of_isOk hvalid with ⟨_, hvalid⟩
  have hparent : "eno1".toList ≠ [] := by decide
  have henabled : isOk (projectNetworks (fun value ↦ value)
      (bindEffective (vlanOnly true) "eno1".toList) true ∅) = true := by
    decide
  refine ⟨hvalid, unbound_vlanOnly false,
    ⟨_, bindPlatformVlanParent_ok hparent, exists_of_isOk henabled⟩,
    ⟨_, bindPlatformVlanParent_ok hparent, by decide⟩, ?_⟩
  intro hconsistent
  have hrefused : quadletNetworkReference (fun value ↦ value)
      (bindEffective (vlanOnly false) "eno1".toList) "app".toList (vlanService false) true =
        .error .vlanTogether := by
    decide
  exact hconsistent.together _ (bindPlatformVlanParent_ok hparent) ("app".toList, vlanService false)
    (.head _) rfl true hrefused

/-- Enabled, it has its VLAN on both sides. -/
theorem vlanConsistent_iff_enabled :
    VlanConsistent (fun value ↦ value) (vlanOnly true) "eno1".toList := by
  have hvalid : isOk (semanticValidate (vlanOnly true)) = true := by decide
  rcases exists_of_isOk hvalid with ⟨_, hvalid⟩
  rw [vlanConsistent_iff hvalid (unbound_vlanOnly true) (by decide)]
  intro entry hentry _ _ _ _ _
  rw [show entry = ("app".toList, vlanService true) from List.mem_singleton.mp hentry]
  exact .inl rfl

end NixNas.Network
