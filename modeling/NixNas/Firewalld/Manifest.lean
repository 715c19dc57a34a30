import NixNas.Firewalld.Isolated

/-!
# The manifest on both sides

What the compiler collects over the services is what the reconciler reads, but for ports that are
written as floats.
-/

open Fallible NixNas.Spec NixNas.Authentik NixNas.Session

namespace NixNas.Firewalld

variable {F : Type} {numbers : Numbers F} {networks : IpNetworks} {sha256 : Text → Text}
  {effective services : Object F} {lanZone id : Text}
variable {serviceId : Text} {o : FirewallObject} {generated objects : List FirewallObject}
  {p : Projection} {port : Plain Unit}

/-- The ports of every service are as the schema and `semantic_validate` have them. -/
def PortsAccepted (float : FloatEq F) (effective : Object F) : Prop :=
  ∀ services id service policy, objectAt "services" effective = some services →
    find id services = some (.object service) → networkPolicy effective service = .ok policy →
    ServicePorts float service policy

/-- If the service is enabled and isolated, the ports that are printed for it are integers. -/
def ServiceIntegers (numbers : Numbers F) (effective services : Object F) (id : Text) : Prop :=
  ∀ service policy, find id services = some (.object service) → truthyDefault "enabled" service = true →
    networkPolicy effective service = .ok policy → defaultIs "mode" "host" "isolated" policy = true →
    PortsAreIntegers numbers service policy

def IntegersOnly (numbers : Numbers F) (effective : Object F) : Prop :=
  ∀ services, objectAt "services" effective = some services →
    ∀ id, ServiceIntegers numbers effective services id

/-! ## The services -/

structure Built (numbers : Numbers F) (networks : IpNetworks) (effective services : Object F)
    (ids : List Text) (state : Collected) : Prop where
  targets : (state.objects.map FirewallObject.target).Nodup
  sound : ∀ o ∈ state.objects, SoundButPorts networks o
  refs : ∀ o ∈ state.objects, ∀ ref ∈ o.refs, isZoneName ref = true →
    ∃ interface, .zone ref interface ∈ state.objects
  ports : ∀ e ∈ state.ports, PortOk e.1 e.2
  forwards : ∀ e ∈ state.forwards, PortOk e.1 e.2.1 ∧ PortOk e.2.2 e.2.1
  portsOk_iff : (∀ o ∈ state.objects, PortsOk o) ↔
    ∀ id ∈ ids, ServiceIntegers numbers effective services id

theorem built_nil : Built numbers networks effective services [] ⟨⟨[], []⟩, [], [], []⟩ where
  targets := List.nodup_nil
  sound := List.forall_mem_nil _
  refs := List.forall_mem_nil _
  ports := List.forall_mem_nil _
  forwards := List.forall_mem_nil _
  portsOk_iff := iff_of_true (List.forall_mem_nil _) (List.forall_mem_nil _)

variable {ids : List Text} {state state' : Collected}

theorem Built.skip (h : Built numbers networks effective services ids state)
    (hid : ServiceIntegers numbers effective services id) :
    Built numbers networks effective services (ids ++ [id]) state := by
  refine ⟨h.targets, h.sound, h.refs, h.ports, h.forwards, h.portsOk_iff.trans ?_⟩
  rw [List.forall_mem_append, List.forall_mem_singleton]
  exact (and_iff_left hid).symm

theorem addObject_ok (h : addObject serviceId state o = .ok state') :
    o.target ∉ state.objects.map FirewallObject.target ∧ state'.objects = state.objects ++ [o] ∧
      state'.ports = state.ports ∧ state'.forwards = state.forwards := by
  obtain ⟨hnew, h⟩ := guard_ok h
  cases h
  exact ⟨hnew, rfl, rfl, rfl⟩

theorem addObjects_ok (h : generated.foldlM (addObject serviceId) state = .ok state')
    (hnodup : (state.objects.map FirewallObject.target).Nodup) :
    (state'.objects.map FirewallObject.target).Nodup ∧ state'.objects = state.objects ++ generated ∧
      state'.ports = state.ports ∧ state'.forwards = state.forwards := by
  induction generated generalizing state with
  | nil =>
    cases h
    exact ⟨hnodup, (List.append_nil _).symm, rfl, rfl⟩
  | cons o generated ih =>
    rw [List.foldlM_cons] at h
    obtain ⟨middle, hmiddle, h⟩ := bind_ok h
    obtain ⟨hnew, hobjects, hports, hforwards⟩ := addObject_ok hmiddle
    have hmiddleNodup : (middle.objects.map FirewallObject.target).Nodup := by
      rw [hobjects, List.map_append, List.map_singleton]
      exact List.nodup_append.mpr ⟨hnodup, List.nodup_singleton _, by grind⟩
    obtain ⟨htargets, hobjects', hports', hforwards'⟩ := ih h hmiddleNodup
    refine ⟨htargets, ?_, hports'.trans hports, hforwards'.trans hforwards⟩
    rw [hobjects', hobjects, List.append_assoc, List.singleton_append]

theorem Built.isolated (h : Built numbers networks effective services ids state)
    (hdigest : Sha256Digest sha256) (hlan : isLanZone lanZone = true)
    (hlanName : isZoneName lanZone = false) {service policy : Object F}
    (hservice : find id services = some (.object service))
    (henabled : truthyDefault "enabled" service = true)
    (hpolicy : networkPolicy effective service = .ok policy)
    (hmode : defaultIs "mode" "host" "isolated" policy = true)
    (hports : ServicePorts numbers.float service policy)
    (hgenerated : isolatedObjects numbers networks sha256 lanZone id service policy = .ok generated)
    (hadd : generated.foldlM (addObject id) state = .ok state') :
    Built numbers networks effective services (ids ++ [id]) state' := by
  obtain ⟨parts⟩ := isolatedObjects_ok hgenerated
  obtain ⟨htargets, hobjects, hstatePorts, hstateForwards⟩ := addObjects_ok hadd h.targets
  have hintegers : ServiceIntegers numbers effective services id ↔
      PortsAreIntegers numbers service policy := by
    constructor
    · exact fun hall => hall service policy hservice henabled hpolicy hmode
    · intro hall service' policy' hservice' _ hpolicy' _
      cases hservice.symm.trans hservice'
      cases hpolicy.symm.trans hpolicy'
      exact hall
  constructor
  · exact htargets
  · rw [hobjects, List.forall_mem_append]
    exact ⟨h.sound, fun o ho => parts.sound hdigest hlan ho⟩
  · rw [hobjects]
    intro o ho ref href hzone
    rcases List.mem_append.mp ho with ho | ho
    · obtain ⟨interface, hinterface⟩ := h.refs o ho ref href hzone
      exact ⟨interface, List.mem_append_left _ hinterface⟩
    · refine ⟨bridgeInterfaceName sha256 id, List.mem_append_right _ ?_⟩
      rw [parts.refs hlanName ho ref href hzone]
      exact parts.mem_iff.mpr (.inl rfl)
  · rw [hstatePorts]
    exact h.ports
  · rw [hstateForwards]
    exact h.forwards
  · rw [hobjects, List.forall_mem_append, List.forall_mem_append, List.forall_mem_singleton, hintegers,
      ← parts.portsOk_iff hports]
    exact and_congr_left' h.portsOk_iff

theorem Built.round (h : Built numbers networks effective services ids state)
    (hdigest : Sha256Digest sha256) (hlan : isLanZone lanZone = true)
    (hlanName : isZoneName lanZone = false)
    (hports : ∀ service policy, find id services = some (.object service) →
      networkPolicy effective service = .ok policy → ServicePorts numbers.float service policy)
    (hround : serviceRound numbers networks sha256 lanZone effective services state id = .ok state') :
    Built numbers networks effective services (ids ++ [id]) state' := by
  unfold serviceRound at hround
  split at hround
  · rename_i service hservice
    split at hround
    · rename_i hdisabled
      cases hround
      apply h.skip
      intro service' policy hservice' henabled
      cases hservice.symm.trans hservice'
      rw [henabled] at hdisabled
      cases hdisabled
    · rename_i henabled
      obtain ⟨policy, hpolicy, hround⟩ := bind_ok hround
      have hpolicy := mapError_ok.mp hpolicy
      have hserviceId : truthyDefault "enabled" service = true := by simpa using henabled
      split at hround
      · rename_i hmode
        obtain ⟨generated, hgenerated, hadd⟩ := bind_ok hround
        exact h.isolated hdigest hlan hlanName hservice hserviceId hpolicy hmode
          (hports service policy hservice hpolicy) hgenerated hadd
      · rename_i hmode
        have hskip : ServiceIntegers numbers effective services id := by
          intro service' policy' hservice' _ hpolicy' hmode'
          cases hservice.symm.trans hservice'
          cases hpolicy.symm.trans hpolicy'
          exact (hmode hmode').elim
        split at hround
        · obtain ⟨⟨ports, forwards⟩, hrules, hround⟩ := bind_ok hround
          obtain ⟨hportsOk, hforwardsOk⟩ :=
            portOk_hostListenerRules (hports service policy hservice hpolicy) hrules
          dsimp only at hround
          split at hround
          · cases hround
            exact h.skip hskip
          · cases hround
            have hbuilt := h.skip hskip
            exact ⟨hbuilt.targets, hbuilt.sound, hbuilt.refs,
              List.forall_mem_append.mpr ⟨h.ports, hportsOk⟩,
              List.forall_mem_append.mpr ⟨h.forwards, hforwardsOk⟩, hbuilt.portsOk_iff⟩
        · split at hround
          · obtain ⟨ports, -, hround⟩ := bind_ok hround
            split at hround
            · cases hround
              exact h.skip hskip
            · cases hround
          · cases hround
  · rename_i hservice
    cases hround
    apply h.skip
    intro service policy hfind
    exact (hservice service hfind).elim

theorem Built.run {rest : List Text} (h : Built numbers networks effective services ids state)
    (hdigest : Sha256Digest sha256) (hlan : isLanZone lanZone = true)
    (hlanName : isZoneName lanZone = false)
    (hports : ∀ id service policy, find id services = some (.object service) →
      networkPolicy effective service = .ok policy → ServicePorts numbers.float service policy)
    (hrun : rest.foldlM (serviceRound numbers networks sha256 lanZone effective services) state =
      .ok state') : Built numbers networks effective services (ids ++ rest) state' := by
  induction rest generalizing ids state with
  | nil =>
    cases hrun
    rw [List.append_nil]
    exact h
  | cons id rest ih =>
    rw [List.foldlM_cons] at hrun
    obtain ⟨middle, hmiddle, hrun⟩ := bind_ok hrun
    rw [List.append_cons]
    exact ih (h.round hdigest hlan hlanName (hports id) hmiddle) hrun

/-! ## The projection -/

structure Compiled (numbers : Numbers F) (networks : IpNetworks) (effective : Object F)
    (objects : List FirewallObject) : Prop where
  targets : (objects.map FirewallObject.target).Nodup
  sound : ∀ o ∈ objects, SoundButPorts networks o
  refs : ∀ o ∈ objects, ∀ ref ∈ o.refs, isZoneName ref = true → ∃ interface, .zone ref interface ∈ objects
  portsOk_iff : (∀ o ∈ objects, PortsOk o) ↔ IntegersOnly numbers effective

theorem lanPolicy_ok {letter : Char} {target : String} {priority : Int} {ports : List (Text × Text)}
    {forwards : List (Text × Text × Text)}
    (h : policyObject (ownedName sha256 letter id) target priority lanZone "HOST".toList ports forwards
      [] = .ok o)
    (hdigest : Sha256Digest sha256) (hletter : "hlwrim".toList.contains letter = true)
    (hlan : isLanZone lanZone = true) (hlanName : isZoneName lanZone = false)
    (hports : ∀ e ∈ ports, PortOk e.1 e.2)
    (hforwards : ∀ e ∈ forwards, PortOk e.1 e.2.1 ∧ PortOk e.2.2 e.2.1) :
    SoundButPorts networks o ∧ PortsOk o ∧ ∀ ref ∈ o.refs, isZoneName ref = false := by
  have hletters : ∀ letter ∈ "hlwrim".toList, "zhwlrima".toList.contains letter = true ∧ letter ≠ 'z' :=
    forall_mem_of_all (by decide)
  obtain ⟨howned, hz⟩ := hletters letter (List.contains_iff_mem.mp hletter)
  refine ⟨?_, ?_, ?_⟩
  · exact soundButPorts_policyObject h (isOwnedName_ownedName hdigest howned) (isZoneName_ownedName hz)
      (isZoneRef_lanZone hlan) (by decide) hforwards (List.forall_mem_nil _)
  · unfold PortsOk
    rw [ports_policyObject h]
    exact hports
  · rw [refs_policyObject h, List.forall_mem_cons, List.forall_mem_singleton]
    exact ⟨hlanName, by decide⟩

theorem Compiled.insert {objects' : List FirewallObject}
    (h : Compiled numbers networks effective objects) (hperm : objects'.Perm (o :: objects))
    (hnew : o.target ∉ objects.map FirewallObject.target) (hsound : SoundButPorts networks o)
    (hports : PortsOk o) (hrefs : ∀ ref ∈ o.refs, isZoneName ref = false) :
    Compiled numbers networks effective objects' := by
  have hmem : ∀ {P : FirewallObject → Prop}, (∀ o' ∈ objects', P o') ↔ P o ∧ ∀ o' ∈ objects, P o' := by
    intro P
    rw [← List.forall_mem_cons]
    exact forall_congr' fun o' => imp_congr_left hperm.mem_iff
  constructor
  · rw [(hperm.map _).nodup_iff, List.map_cons, List.nodup_cons]
    exact ⟨hnew, h.targets⟩
  · exact hmem.mpr ⟨hsound, h.sound⟩
  · rw [hmem]
    constructor
    · intro ref href hzone
      rw [hrefs ref href] at hzone
      cases hzone
    · intro o' ho' ref href hzone
      obtain ⟨interface, hinterface⟩ := h.refs o' ho' ref href hzone
      exact ⟨interface, hperm.mem_iff.mpr (List.mem_cons_of_mem o hinterface)⟩
  · rw [hmem, ← h.portsOk_iff]
    exact and_iff_right hports

theorem validateLanZone_ok (h : validateLanZone lanZone = .ok ()) : isLanZone lanZone = true := by
  unfold validateLanZone at h
  split at h
  · assumption
  · cases h

theorem compileApplication_ok (hdigest : Sha256Digest sha256)
    (hlanName : isZoneName lanZone = false) (hports : PortsAccepted numbers.float effective)
    (h : compileApplication numbers networks sha256 effective lanZone = .ok p) :
    Compiled numbers networks effective p.objects := by
  obtain ⟨⟨⟩, hlan, h⟩ := bind_ok h
  have hlan := validateLanZone_ok hlan
  split at h
  · cases h
  · rename_i services hservices
    obtain ⟨state, hstate, h⟩ := bind_ok h
    have hbuilt : Built numbers networks effective services
        ([] ++ (services.map Prod.fst).insertionSort (· ≤ ·)) state :=
      built_nil.run hdigest hlan hlanName
        (fun id service policy => hports services id service policy hservices) hstate
    have hall : Compiled numbers networks effective state.objects := by
      refine ⟨hbuilt.targets, hbuilt.sound, hbuilt.refs, hbuilt.portsOk_iff.trans ?_⟩
      constructor
      · intro hids services' hservices' id service policy hservice
        cases hservices.symm.trans hservices'
        have hid : id ∈ [] ++ (services.map Prod.fst).insertionSort (· ≤ ·) := by
          rw [List.nil_append, List.mem_insertionSort]
          exact List.mem_map_of_mem (mem_of_find hservice)
        exact hids id hid service policy hservice
      · intro hintegers id _
        exact hintegers services hservices id
    split at h
    · cases h
      exact hall
    · obtain ⟨o, ho, h⟩ := bind_ok h
      obtain ⟨hnew, h⟩ := guard_ok h
      cases h
      have hpolicy : SoundButPorts networks o ∧ PortsOk o ∧ ∀ ref ∈ o.refs, isZoneName ref = false :=
        lanPolicy_ok ho hdigest (by decide) hlan hlanName
          (fun e he => hbuilt.ports e (mem_sortedPairs.mp he))
          (fun e he => hbuilt.forwards e (mem_sortedTriples.mp he))
      obtain ⟨hsound, hok, hrefs⟩ := hpolicy
      exact hall.insert (List.perm_append_singleton o state.objects) hnew hsound hok hrefs

theorem compileProjection_ok (hdigest : Sha256Digest sha256)
    (hlanName : isZoneName lanZone = false) (hports : PortsAccepted numbers.float effective)
    (h : compileProjection numbers networks sha256 effective lanZone = .ok p) :
    Compiled numbers networks effective p.objects := by
  obtain ⟨remote, hremote, h⟩ := bind_ok h
  obtain ⟨app, happ, h⟩ := bind_ok h
  obtain ⟨hnew, h⟩ := guard_ok h
  cases h
  obtain ⟨⟨⟩, hlan, hremote⟩ := bind_ok hremote
  have htcp : ∀ n : Int, 1 ≤ n → n ≤ 65535 → PortOk (intText n) "tcp".toList :=
    fun n hlow hhigh => portOk_intText hlow hhigh List.mem_cons_self
  have hpolicy : SoundButPorts networks remote ∧ PortsOk remote ∧
      ∀ ref ∈ remote.refs, isZoneName ref = false :=
    lanPolicy_ok hremote hdigest (by decide) (validateLanZone_ok hlan) hlanName
      (List.forall_mem_cons.mpr ⟨htcp 22 (by decide) (by decide),
        List.forall_mem_singleton.mpr (htcp 443 (by decide) (by decide))⟩) (List.forall_mem_nil _)
  obtain ⟨hsound, hok, hrefs⟩ := hpolicy
  exact (compileApplication_ok hdigest hlanName hports happ).insert (List.Perm.refl _) hnew hsound hok
    hrefs

/-! ## Reading the manifest -/

/-- Objects with different keys have different names, as only zones are named like zones. -/
theorem nodup_names (hsound : ∀ o ∈ objects, Sound networks o)
    (h : (objects.map FirewallObject.target).Nodup) : (objects.map FirewallObject.name).Nodup := by
  have hinj : ∀ o ∈ objects, ∀ o' ∈ objects, o.name = o'.name → o.target = o'.target := by
    intro o ho o' ho' hname
    have hsoundO := hsound o ho
    have hsoundO' := hsound o' ho'
    cases o with
    | zone name interface =>
      cases o' with
      | zone name' interface' => exact congrArg ("zones/".toList ++ ·) hname
      | policy p' =>
        have hzone := hsoundO.zone
        have hname : name = p'.name := hname
        rw [hname, hsoundO'.notZone] at hzone
        cases hzone
    | policy p =>
      cases o' with
      | zone name' interface' =>
        have hzone := hsoundO'.zone
        have hname : p.name = name' := hname
        rw [← hname, hsoundO.notZone] at hzone
        cases hzone
      | policy p' => exact congrArg ("policies/".toList ++ ·) hname
  have htargets : objects.Pairwise fun o o' ↦ o.target ≠ o'.target := List.pairwise_map.mp h
  apply List.pairwise_map.mpr
  exact htargets.imp_of_mem fun ho ho' hne hname => hne (hinj _ ho _ ho' hname)

theorem foldlM_addDesired (hsound : ∀ o ∈ objects, Sound networks o)
    {desired : Desired F} (hnodup : (desired.map Prod.fst ++ objects.map FirewallObject.name).Nodup) :
    (objects.map fun o ↦ stored (.object o.json)).foldlM (addDesired networks) desired =
      .ok (desired ++ objects.map FirewallObject.desired) := by
  induction objects generalizing desired with
  | nil =>
    rw [List.map_nil, List.map_nil, List.append_nil]
    rfl
  | cons o objects ih =>
    rw [List.forall_mem_cons] at hsound
    rw [List.map_cons, List.append_cons] at hnodup
    have hnew : o.name ∉ desired.map Prod.fst := by
      have hfront := (List.nodup_append.mp hnodup).1
      intro hmem
      exact (List.nodup_append.mp hfront).2.2 _ hmem _ (List.mem_singleton_self _) rfl
    have hstep : addDesired networks desired (stored (.object o.json)) =
        .ok (desired ++ [o.desired]) := by
      unfold addDesired
      rw [checkObject_ok hsound.1]
      exact if_neg hnew
    have hrest : ((desired ++ [o.desired]).map Prod.fst ++ objects.map FirewallObject.name).Nodup := by
      rw [List.map_append, List.map_singleton]
      exact hnodup
    rw [List.map_cons, List.foldlM_cons, hstep]
    show (objects.map fun o ↦ stored (.object o.json)).foldlM (addDesired networks)
      (desired ++ [o.desired]) = _
    rw [ih hsound.2 hrest, List.map_cons, List.append_assoc, List.singleton_append]

theorem checkReferences_ok {zones : List Text}
    (hzones : ∀ name interface, .zone name interface ∈ objects → name ∈ zones)
    (hrefs : ∀ o ∈ objects, ∀ ref ∈ o.refs, isZoneName ref = true →
      ∃ interface, .zone ref interface ∈ objects) :
    (((objects.map FirewallObject.desired).filter fun e ↦ !e.2.1).forM
      fun (e : Text × Bool × Object F) ↦ do
        checkReference zones ((textAt "ingress" e.2.2).getD [])
        checkReference zones ((textAt "egress" e.2.2).getD [])) = .ok () := by
  have hfound : ∀ o ∈ objects, ∀ ref ∈ o.refs, checkReference zones ref = .ok () := by
    intro o ho ref href
    apply if_neg
    rintro ⟨hzone, hmissing⟩
    obtain ⟨interface, hinterface⟩ := hrefs o ho ref href hzone
    exact hmissing (hzones ref interface hinterface)
  apply forM_total
  intro e he
  obtain ⟨he, hpolicy⟩ := List.mem_filter.mp he
  obtain ⟨o, ho, rfl⟩ := List.mem_map.mp he
  cases o with
  | zone name interface => cases hpolicy
  | policy p =>
    have hingress : textAt "ingress" (storedEntries (FirewallObject.policy p).json : Object F) =
        some p.ingress := textAt_stored _ _
    have hegress : textAt "egress" (storedEntries (FirewallObject.policy p).json : Object F) =
        some p.egress := textAt_stored _ _
    show (checkReference _ ((textAt "ingress" (storedEntries (FirewallObject.policy p).json)).getD []) >>=
      fun _ ↦ checkReference _
        ((textAt "egress" (storedEntries (FirewallObject.policy p).json)).getD [])) = _
    rw [hingress, hegress, Option.getD_some, Option.getD_some,
      hfound _ ho p.ingress List.mem_cons_self]
    exact hfound _ ho p.egress (List.mem_cons_of_mem _ List.mem_cons_self)

theorem find_objects_manifest (p : Projection) :
    find "objects".toList (storedEntries (p.manifest : Object F)) =
      some (.array (p.sorted.map fun o ↦ stored (.object o.json))) := by
  rw [find_storedEntries]
  show some (Plain.array (storedItems (p.sorted.map fun o ↦ .object o.json))) = _
  rw [storedItems_eq_map, List.map_map]
  rfl

theorem Compiled.readProjection_iff (h : Compiled numbers networks effective p.objects) :
    readProjection numbers.float networks (stored (.object p.manifest)) =
        .ok (p.sorted.map FirewallObject.desired) ↔ IntegersOnly numbers effective := by
  have hsorted : ∀ o, o ∈ p.sorted ↔ o ∈ p.objects := fun o => List.mem_insertionSort _
  have hversion : (find "schemaVersion".toList (storedEntries (p.manifest : Object F))).any
      (eq numbers.float · (number 2)) = true := by
    rw [find_storedEntries]
    rfl
  have hread : readProjection numbers.float networks (stored (.object p.manifest)) = (do
      let desired ← (p.sorted.map fun o ↦ stored (.object o.json)).foldlM (addDesired networks) []
      let zones := (desired.filter fun e ↦ e.2.1).map Prod.fst
      (desired.filter fun e ↦ !e.2.1).forM fun e ↦ do
        checkReference zones ((textAt "ingress" e.2.2).getD [])
        checkReference zones ((textAt "egress" e.2.2).getD [])
      .ok desired) := by
    rw [stored_object]
    unfold readProjection
    dsimp only
    rw [hversion, find_objects_manifest]
    rfl
  rw [hread, ← h.portsOk_iff]
  constructor
  · intro hok o ho
    obtain ⟨desired, hdesired, -⟩ := bind_ok hok
    have hmem : stored (.object o.json) ∈ p.sorted.map fun o ↦ (stored (.object o.json) : Plain F) :=
      List.mem_map_of_mem ((hsorted o).mpr ho)
    obtain ⟨t, t', hstep⟩ := foldlM_step hdesired hmem
    obtain ⟨r, hr, -⟩ := bind_ok hstep
    cases o with
    | zone name interface => exact List.forall_mem_nil _
    | policy q => exact ports_of_checkObject hr
  · intro hports
    have hsound : ∀ o ∈ p.sorted, Sound networks o := by
      intro o ho
      have ho := (hsorted o).mp ho
      exact h.sound o ho (hports o ho)
    have hperm : p.sorted.Perm p.objects := List.perm_insertionSort _ _
    have htargets : (p.sorted.map FirewallObject.target).Nodup :=
      (hperm.map _).nodup_iff.mpr h.targets
    have hdesired : (p.sorted.map fun o ↦ stored (.object o.json)).foldlM (addDesired networks) [] =
        .ok (p.sorted.map (FirewallObject.desired (F := F))) :=
      foldlM_addDesired hsound (nodup_names hsound htargets)
    rw [hdesired]
    have hrefs : ∀ o ∈ p.sorted, ∀ ref ∈ o.refs, isZoneName ref = true →
        ∃ interface, .zone ref interface ∈ p.sorted := by
      intro o ho ref href hzone
      obtain ⟨interface, hinterface⟩ := h.refs o ((hsorted o).mp ho) ref href hzone
      exact ⟨interface, (hsorted _).mpr hinterface⟩
    have hzones : ∀ name interface, .zone name interface ∈ p.sorted →
        name ∈ ((p.sorted.map (FirewallObject.desired (F := F))).filter fun e ↦ e.2.1).map Prod.fst :=
      fun name interface hmem =>
        List.mem_map_of_mem (f := Prod.fst) (List.mem_filter.mpr ⟨List.mem_map_of_mem hmem, rfl⟩)
    have hcheck := checkReferences_ok (F := F) hzones hrefs
    show (List.forM _ _ >>= fun _ ↦ .ok _ : Except ReconcileError (Desired F)) = _
    rw [hcheck]
    rfl

/-- The manifest survives the trip exactly where the ports that are printed for the enabled isolated
services are integers. -/
theorem survives_iff {p : Projection} (hdigest : Sha256Digest sha256)
    (hlanName : isZoneName lanZone = false) (hports : PortsAccepted numbers.float effective)
    (h : compileProjection numbers networks sha256 effective lanZone = .ok p) :
    readProjection numbers.float networks (stored (.object p.manifest)) =
        .ok (p.sorted.map FirewallObject.desired) ↔ IntegersOnly numbers effective :=
  (compileProjection_ok hdigest hlanName hports h).readProjection_iff

/-! ## A port that is written as a float -/

/-- The one float is `443.0`. -/
def demoNumbers : Numbers Unit where
  float := ⟨fun _ _ ↦ true, fun _ n ↦ decide (n = 443), fun _ ↦ true, fun _ _ ↦ rfl⟩
  le _ _ := true
  repr _ := "443.0".toList
  repr_mark _ := ⟨'.', by decide, by decide, by decide⟩

def demoNetworks : IpNetworks where
  network _ := none
  again h := by cases h

def demoSha256 (value : Text) : Text :=
  if value = "remote-admin".toList then
    "71d0c4a9cc93b9449c446b67e5a0f1e4f14f2f48b757bb71b1ac8bab04813fb5".toList
  else "4b5e57f6eb2f42b9039b3d1e13929295f231749c510cbe341cd68036d9af97e2".toList

theorem demoSha256_digest : Sha256Digest demoSha256 where
  hex value := by
    unfold demoSha256
    split
    · exact forall_mem_of_all (by decide)
    · exact forall_mem_of_all (by decide)
  length value := by
    unfold demoSha256
    split
    · decide
    · decide

def demoService (port : Plain Unit) : Object Unit :=
  [("runtime".toList, .object [("type".toList, text "oci")]),
    ("network".toList, .object [("mode".toList, text "isolated"),
      ("allowedHostPorts".toList, .array [port])])]

def demoDocument (port : Plain Unit) : Object Unit :=
  [("services".toList, .object [("web".toList, .object (demoService port))])]

def compileDemo (port : Plain Unit) : Except FirewalldError Projection :=
  compileProjection demoNumbers demoNetworks demoSha256 (demoDocument port) "home".toList

theorem demo_services {services service policy : Object Unit}
    (hservices : objectAt "services" (demoDocument port) = some services)
    (hservice : find id services = some (.object service))
    (hpolicy : networkPolicy (demoDocument port) service = .ok policy) :
    service = demoService port ∧
      policy = [("mode".toList, text "isolated"), ("allowedHostPorts".toList, .array [port])] := by
  cases hservices
  rw [find_cons] at hservice
  split at hservice
  · cases hservice
    cases hpolicy
    exact ⟨rfl, rfl⟩
  · cases hservice

theorem portsAccepted_demo (h : WholePort demoNumbers.float port) :
    PortsAccepted demoNumbers.float (demoDocument port) := by
  intro services id service policy hservices hservice hpolicy
  obtain ⟨rfl, rfl⟩ := demo_services hservices hservice hpolicy
  constructor
  · intro port' hport
    rw [List.mem_singleton.mp hport]
    exact h
  · intro entry hentry
    cases hentry
  · intro entry hentry
    cases hentry

theorem survives_iff_demo : ∃ p, compileDemo (number 443) = .ok p ∧
    (readProjection demoNumbers.float demoNetworks (stored (.object p.manifest)) =
      .ok (p.sorted.map FirewallObject.desired) ↔
        IntegersOnly demoNumbers (demoDocument (number 443))) := by
  obtain ⟨p, hp⟩ : ∃ p, compileDemo (number 443) = .ok p := exists_of_isOk (by decide +kernel)
  exact ⟨p, hp, survives_iff demoSha256_digest (by decide)
    (portsAccepted_demo (.integer (by decide) (by decide))) hp⟩

/-- `allowedHostPorts: [443.0]` compiles to a port that the reconciler refuses. -/
theorem not_survives_demo : ∃ p, compileDemo (.scalar (.float ())) = .ok p ∧
    PortsAccepted demoNumbers.float (demoDocument (.scalar (.float ()))) ∧
    readProjection demoNumbers.float demoNetworks (stored (.object p.manifest)) ≠
      .ok (p.sorted.map FirewallObject.desired) := by
  obtain ⟨p, hp⟩ : ∃ p, compileDemo (.scalar (.float ())) = .ok p := exists_of_isOk (by decide +kernel)
  have haccepted : PortsAccepted demoNumbers.float (demoDocument (.scalar (.float ()))) :=
    portsAccepted_demo (.float rfl)
  refine ⟨p, hp, haccepted, fun hread => ?_⟩
  have hcompiled : Compiled demoNumbers demoNetworks (demoDocument (.scalar (.float ()))) p.objects :=
    compileProjection_ok demoSha256_digest (by decide) haccepted hp
  have hintegers := hcompiled.readProjection_iff.mp hread
  have hall := hintegers _ rfl "web".toList (demoService (.scalar (.float ())))
    [("mode".toList, text "isolated"), ("allowedHostPorts".toList, .array [.scalar (.float ())])]
    rfl rfl rfl rfl
  obtain ⟨n, hn⟩ := hall.hostPorts (.scalar (.float ())) List.mem_cons_self
  cases hn

end NixNas.Firewalld
