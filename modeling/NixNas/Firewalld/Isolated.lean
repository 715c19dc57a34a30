import NixNas.Firewalld.Rules

/-!
# The objects of an isolated service

All that the compiler makes of a service is sound, but for ports that are written as floats.
-/

open Fallible NixNas.Spec NixNas.Authentik NixNas.Session

namespace NixNas.Firewalld

variable {F : Type} {numbers : Numbers F} {networks : IpNetworks} {sha256 : Text → Text}

/-- `hexdigest` of SHA-256: 64 hexadecimal letters. -/
structure Sha256Digest (sha256 : Text → Text) : Prop where
  hex : HexDigest sha256
  length : ∀ value, (sha256 value).length = 64

def FirewallObject.ports : FirewallObject → List (Text × Text)
  | .zone _ _ => []
  | .policy p => p.ports

def FirewallObject.refs : FirewallObject → List Text
  | .zone _ _ => []
  | .policy p => [p.ingress, p.egress]

def PortsOk (o : FirewallObject) : Prop := ∀ e ∈ o.ports, PortOk e.1 e.2

/-- Nothing but a port can keep the object from being sound. -/
def SoundButPorts (networks : IpNetworks) (o : FirewallObject) : Prop := PortsOk o → Sound networks o

/-! ## Names -/

section Names

variable {letter : Char} {id : Text}

theorem isOwnedName_ownedName (hdigest : Sha256Digest sha256)
    (hletter : "zhwlrima".toList.contains letter = true) :
    isOwnedName (ownedName sha256 letter id) = true := by
  show ("zhwlrima".toList.contains letter && ((sha256 id).take 12).length = 12 &&
    ((sha256 id).take 12).all isHex) = true
  have hlength : ((sha256 id).take 12).length = 12 := by
    rw [List.length_take, hdigest.length id]
    rfl
  have hhex : ((sha256 id).take 12).all isHex = true :=
    List.all_eq_true.mpr fun c hc => hdigest.hex id c (List.mem_of_mem_take hc)
  rw [hletter, hlength, hhex]
  rfl

theorem isZoneName_zoneName : isZoneName (zoneName sha256 id) = true := rfl

theorem isZoneName_ownedName (h : letter ≠ 'z') : isZoneName (ownedName sha256 letter id) = false := by
  show (('n' == 'n') && (('v' == 'v') && (('2' == '2') && (('z' == letter) && true)))) = false
  have hz : ('z' == letter) = false := beq_false_of_ne h.symm
  rw [hz]
  rfl

theorem isBridgeName_bridge (hdigest : Sha256Digest sha256) :
    isBridgeName (bridgeInterfaceName sha256 id) = true := by
  show (((sha256 id).take 11).length = 11 && ((sha256 id).take 11).all isHex) = true
  have hlength : ((sha256 id).take 11).length = 11 := by
    rw [List.length_take, hdigest.length id]
    rfl
  have hhex : ((sha256 id).take 11).all isHex = true :=
    List.all_eq_true.mpr fun c hc => hdigest.hex id c (List.mem_of_mem_take hc)
  rw [hlength, hhex]
  rfl

theorem isZoneRef_zoneName (hdigest : Sha256Digest sha256) : isZoneRef (zoneName sha256 id) = true := by
  have howned : isOwnedName (zoneName sha256 id) = true := isOwnedName_ownedName hdigest (by decide)
  unfold isZoneRef
  rw [isZoneName_zoneName, howned]
  rfl

theorem isZoneRef_lanZone {lanZone : Text} (h : isLanZone lanZone = true) : isZoneRef lanZone = true := by
  unfold isZoneRef
  rw [h]
  simp

end Names

/-! ## Policies -/

section Policies

variable {name ingress egress : Text} {target : String} {priority : Int} {ports : List (Text × Text)}
  {forwards : List (Text × Text × Text)} {rules : List RichRule} {o : FirewallObject}

theorem policyObject_ok
    (h : policyObject name target priority ingress egress ports forwards rules = .ok o) :
    o = .policy ⟨name, target.toList, priority, ingress, egress, ports, forwards, rules⟩ ∧
      target ∈ ["ACCEPT", "DROP", "CONTINUE"] ∧
      priority ≠ 0 ∧ -32767 ≤ priority ∧ priority ≤ 32767 := by
  obtain ⟨hvalid, h⟩ := guard_ok h
  simp only [not_or, not_not, Int.not_lt] at hvalid
  exact ⟨(Except.ok.inj h).symm, hvalid⟩

theorem soundButPorts_policyObject
    (h : policyObject name target priority ingress egress ports forwards rules = .ok o)
    (hname : isOwnedName name = true) (hzone : isZoneName name = false)
    (hingress : isZoneRef ingress = true) (hegress : isZoneRef egress = true)
    (hforwards : ∀ e ∈ forwards, PortOk e.1 e.2.1 ∧ PortOk e.2.2 e.2.1)
    (hrules : ∀ rule ∈ rules, SoundRule networks rule) : SoundButPorts networks o := by
  obtain ⟨rfl, htarget, hpriority⟩ := policyObject_ok h
  intro hports
  constructor
  · exact hname
  · exact hzone
  · exact List.mem_map_of_mem (f := String.toList) htarget
  · exact hpriority
  · exact hingress
  · exact hegress
  · exact hports
  · exact hforwards
  · exact hrules

theorem ports_policyObject
    (h : policyObject name target priority ingress egress ports forwards rules = .ok o) :
    o.ports = ports := by
  obtain ⟨rfl, -⟩ := policyObject_ok h
  rfl

theorem refs_policyObject
    (h : policyObject name target priority ingress egress ports forwards rules = .ok o) :
    o.refs = [ingress, egress] := by
  obtain ⟨rfl, -⟩ := policyObject_ok h
  rfl

end Policies

theorem soundRule_egressRules {entry : Object F} {rules : List RichRule}
    (h : egressRules networks entry = .ok rules) : ∀ rule ∈ rules, SoundRule networks rule := by
  unfold egressRules at h
  split at h
  · split at h
    · cases h
    · rename_i raw _ version shown hnetwork
      obtain ⟨shown', hagain⟩ := networks.again hnetwork
      split at h
      · split at h
        · cases h
        · cases h
          intro rule hrule
          rw [List.mem_singleton.mp hrule]
          exact ⟨⟨version, shown', hagain, rfl⟩, fun e he => by cases he⟩
        · rename_i ports _ hports
          cases h
          intro rule hrule
          obtain ⟨port, hport, hrule⟩ := List.mem_flatMap.mp hrule
          obtain ⟨protocol, hprotocol, rfl⟩ := List.mem_map.mp hrule
          rw [List.mem_insertionSort, List.mem_dedup] at hport
          obtain ⟨value, -, hvalue⟩ := exists_left (mapM_some_iff.mp hports) hport
          obtain ⟨hlow, hhigh⟩ := portNumber_ok hvalue
          refine ⟨⟨version, shown', hagain, rfl⟩, ?_⟩
          rintro e ⟨⟩
          exact portOk_intText hlow hhigh hprotocol
      · cases h
  · cases h

/-! ## The objects -/

section Isolated

variable {lanZone serviceId : Text} {service policy : Object F} {objects : List FirewallObject}
variable {o : FirewallObject}

structure IsolatedParts (numbers : Numbers F) (networks : IpNetworks) (sha256 : Text → Text)
    (lanZone serviceId : Text) (service policy : Object F) (objects : List FirewallObject) where
  listeners : List (Text × Text)
  routes : List (Text × Text)
  rules : List (List RichRule)
  host : FirewallObject
  lan : FirewallObject
  world : FirewallObject
  route : FirewallObject
  listener : FirewallObject
  listeners_eq : listenerPorts numbers service = .ok listeners
  routes_eq : routePorts numbers service = .ok routes
  rules_ok : ∀ rule ∈ rules.flatten, SoundRule networks rule
  host_eq : policyObject (hostPolicyName sha256 serviceId) "DROP" (-50) (zoneName sha256 serviceId)
    "HOST".toList (hostPorts numbers policy) [] [] = .ok host
  lan_eq : policyObject (lanPolicyName sha256 serviceId)
    (if truthyAt "lanAccess" policy then "ACCEPT" else "DROP") (-100) (zoneName sha256 serviceId)
    lanZone [] [] [] = .ok lan
  world_eq : policyObject (worldPolicyName sha256 serviceId)
    (if defaultIs "outboundDefault" "allow" "allow" policy then "ACCEPT" else "DROP") 50
    (zoneName sha256 serviceId) "ANY".toList [] [] rules.flatten = .ok world
  route_eq : allowPolicy (routePolicyName sha256 serviceId) "HOST".toList (zoneName sha256 serviceId)
    routes [] = .ok route
  listener_eq : allowPolicy (listenerPolicyName sha256 serviceId) lanZone (zoneName sha256 serviceId)
    listeners [] = .ok listener
  objects_eq : objects = .zone (zoneName sha256 serviceId) (bridgeInterfaceName sha256 serviceId) ::
    host :: lan :: world :: ((if routes.isEmpty then [] else [route]) ++
      if listeners.isEmpty then [] else [listener])

theorem isolatedObjects_ok
    (h : isolatedObjects numbers networks sha256 lanZone serviceId service policy = .ok objects) :
    Nonempty (IsolatedParts numbers networks sha256 lanZone serviceId service policy objects) := by
  obtain ⟨listeners, hlisteners, h⟩ := bind_ok h
  obtain ⟨-, h⟩ := guard_ok h
  obtain ⟨-, h⟩ := guard_ok h
  obtain ⟨host, hhost, h⟩ := bind_ok h
  obtain ⟨lan, hlan, h⟩ := bind_ok h
  obtain ⟨rules, hrules, h⟩ := bind_ok h
  obtain ⟨world, hworld, h⟩ := bind_ok h
  obtain ⟨routes, hroutes, h⟩ := bind_ok h
  obtain ⟨route, hroute, h⟩ := bind_ok h
  obtain ⟨listener, hlistener, h⟩ := bind_ok h
  have hsound : ∀ rule ∈ rules.flatten, SoundRule networks rule := by
    intro rule hrule
    obtain ⟨group, hgroup, hrule⟩ := List.mem_flatten.mp hrule
    obtain ⟨entry, -, hentry⟩ := exists_left (mapM_ok hrules) hgroup
    split at hentry
    · exact soundRule_egressRules hentry rule hrule
    · cases hentry
  exact ⟨⟨listeners, routes, rules, host, lan, world, route, listener, hlisteners, hroutes, hsound,
    hhost, hlan, hworld, hroute, hlistener, (Except.ok.inj h).symm⟩⟩

theorem IsolatedParts.mem_iff
    (parts : IsolatedParts numbers networks sha256 lanZone serviceId service policy objects)
    : o ∈ objects ↔
      o = .zone (zoneName sha256 serviceId) (bridgeInterfaceName sha256 serviceId) ∨
      o = parts.host ∨ o = parts.lan ∨ o = parts.world ∨ (parts.routes ≠ [] ∧ o = parts.route) ∨
      (parts.listeners ≠ [] ∧ o = parts.listener) := by
  apply Iff.trans (iff_of_eq (congrArg (o ∈ ·) parts.objects_eq))
  cases parts.routes <;> cases parts.listeners <;> simp

theorem IsolatedParts.sound
    (parts : IsolatedParts numbers networks sha256 lanZone serviceId service policy objects)
    (hdigest : Sha256Digest sha256) (hlan : isLanZone lanZone = true)
    (ho : o ∈ objects) : SoundButPorts networks o := by
  have hzone : isZoneRef (zoneName sha256 serviceId) = true := isZoneRef_zoneName hdigest
  have hlanZone := isZoneRef_lanZone hlan
  have hname : ∀ letter, "zhwlrima".toList.contains letter = true →
      isOwnedName (ownedName sha256 letter serviceId) = true :=
    fun letter hletter => isOwnedName_ownedName hdigest hletter
  have hhost : isZoneRef "HOST".toList = true := by decide
  have hany : isZoneRef "ANY".toList = true := by decide
  have hnone : ∀ e ∈ ([] : List (Text × Text × Text)), PortOk e.1 e.2.1 ∧ PortOk e.2.2 e.2.1 :=
    List.forall_mem_nil _
  have hno : ∀ rule ∈ ([] : List RichRule), SoundRule networks rule := List.forall_mem_nil _
  rcases parts.mem_iff.mp ho with rfl | rfl | rfl | rfl | ⟨-, rfl⟩ | ⟨-, rfl⟩
  · exact fun _ => ⟨hname 'z' (by decide), isZoneName_zoneName, isBridgeName_bridge hdigest⟩
  · exact soundButPorts_policyObject parts.host_eq (hname 'h' (by decide))
      (isZoneName_ownedName (by decide)) hzone hhost hnone hno
  · exact soundButPorts_policyObject parts.lan_eq (hname 'l' (by decide))
      (isZoneName_ownedName (by decide)) hzone hlanZone hnone hno
  · exact soundButPorts_policyObject parts.world_eq (hname 'w' (by decide))
      (isZoneName_ownedName (by decide)) hzone hany hnone parts.rules_ok
  · exact soundButPorts_policyObject parts.route_eq (hname 'r' (by decide))
      (isZoneName_ownedName (by decide)) hhost hzone hnone hno
  · exact soundButPorts_policyObject parts.listener_eq (hname 'i' (by decide))
      (isZoneName_ownedName (by decide)) hlanZone hzone hnone hno

theorem IsolatedParts.refs
    (parts : IsolatedParts numbers networks sha256 lanZone serviceId service policy objects)
    (hlan : isZoneName lanZone = false) (ho : o ∈ objects) :
    ∀ ref ∈ o.refs, isZoneName ref = true → ref = zoneName sha256 serviceId := by
  have hhost : isZoneName "HOST".toList = false := by decide
  have hany : isZoneName "ANY".toList = false := by decide
  rcases parts.mem_iff.mp ho with rfl | rfl | rfl | rfl | ⟨-, rfl⟩ | ⟨-, rfl⟩
  · exact List.forall_mem_nil _
  · rw [refs_policyObject parts.host_eq]
    grind
  · rw [refs_policyObject parts.lan_eq]
    grind
  · rw [refs_policyObject parts.world_eq]
    grind
  · rw [refs_policyObject parts.route_eq]
    grind
  · rw [refs_policyObject parts.listener_eq]
    grind

/-- The ports are printed as the reconciler reads them exactly where they are integers. -/
theorem IsolatedParts.portsOk_iff
    (parts : IsolatedParts numbers networks sha256 lanZone serviceId service policy objects)
    (hports : ServicePorts numbers.float service policy) :
    (∀ o ∈ objects, PortsOk o) ↔ PortsAreIntegers numbers service policy := by
  constructor
  · intro h
    constructor
    · intro port hport
      have hwhole := hports.hostPorts port (mem_of_mem_distinct hport)
      have htcp : "tcp".toList ∈ protocols := List.mem_cons_self
      rw [← portOk_text_iff hwhole htcp]
      have hok := h parts.host (parts.mem_iff.mpr (.inr (.inl rfl)))
      unfold PortsOk at hok
      rw [ports_policyObject parts.host_eq] at hok
      exact hok _ (mem_hostPorts.mpr ⟨port, hport, _, htcp, rfl⟩)
    · intro entry hentry target port htarget hport
      have hwhole := wholePort_containerPort hports (hports.routes entry hentry target port htarget hport)
      have htcp : "tcp".toList ∈ protocols := List.mem_cons_self
      rw [← portOk_text_iff hwhole htcp]
      have hroute := (mem_routePorts parts.routes_eq).mpr ⟨entry, hentry, target, port, htarget, hport, rfl⟩
      have hne : parts.routes ≠ [] := List.ne_nil_of_mem hroute
      have hok := h parts.route (parts.mem_iff.mpr (.inr (.inr (.inr (.inr (.inl ⟨hne, rfl⟩))))))
      unfold PortsOk at hok
      rw [ports_policyObject parts.route_eq] at hok
      exact hok _ hroute
  · intro h o ho
    unfold PortsOk
    rcases parts.mem_iff.mp ho with rfl | rfl | rfl | rfl | ⟨-, rfl⟩ | ⟨-, rfl⟩
    · exact List.forall_mem_nil _
    · rw [ports_policyObject parts.host_eq]
      intro e he
      obtain ⟨port, hport, protocol, hprotocol, rfl⟩ := mem_hostPorts.mp he
      have hwhole := hports.hostPorts port (mem_of_mem_distinct hport)
      exact (portOk_text_iff hwhole hprotocol).mpr (h.hostPorts port hport)
    · rw [ports_policyObject parts.lan_eq]
      exact List.forall_mem_nil _
    · rw [ports_policyObject parts.world_eq]
      exact List.forall_mem_nil _
    · rw [ports_policyObject parts.route_eq]
      intro e he
      obtain ⟨entry, hentry, target, port, htarget, hport, rfl⟩ := (mem_routePorts parts.routes_eq).mp he
      have hwhole := wholePort_containerPort hports (hports.routes entry hentry target port htarget hport)
      exact (portOk_text_iff hwhole List.mem_cons_self).mpr
        (h.routes entry hentry target port htarget hport)
    · rw [ports_policyObject parts.listener_eq]
      exact portOk_listenerPorts hports parts.listeners_eq

end Isolated

end NixNas.Firewalld
