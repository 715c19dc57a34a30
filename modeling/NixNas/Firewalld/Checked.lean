import NixNas.Firewalld.Ports
import NixNas.Session.Fingerprint

/-!
# Which objects the reconciler takes

An object is sound when it passes the reconciler's checks after it was written and read.
-/

open Fallible NixNas.Spec NixNas.Authentik NixNas.Session

namespace NixNas.Firewalld

variable {F : Type} {networks : IpNetworks}

/-- The destination is the text of a network of the family, and the port is one. -/
structure SoundRule (networks : IpNetworks) (rule : RichRule) : Prop where
  destination : ∃ version shown, networks.network rule.destination = some (version, shown) ∧
    rule.family = version.family
  port : ∀ e, rule.port = some e → PortOk e.1 e.2

structure SoundPolicy (networks : IpNetworks) (p : PolicyObject) : Prop where
  name : isOwnedName p.name = true
  notZone : isZoneName p.name = false
  target : p.target ∈ ["ACCEPT".toList, "DROP".toList, "CONTINUE".toList]
  priority : p.priority ≠ 0 ∧ -32767 ≤ p.priority ∧ p.priority ≤ 32767
  ingress : isZoneRef p.ingress = true
  egress : isZoneRef p.egress = true
  ports : ∀ e ∈ p.ports, PortOk e.1 e.2
  forwards : ∀ e ∈ p.forwardPorts, PortOk e.1 e.2.1 ∧ PortOk e.2.2 e.2.1
  rules : ∀ rule ∈ p.richRules, SoundRule networks rule

structure SoundZone (name interface : Text) : Prop where
  owned : isOwnedName name = true
  zone : isZoneName name = true
  interface : isBridgeName interface = true

def Sound (networks : IpNetworks) : FirewallObject → Prop
  | .zone name interface => SoundZone name interface
  | .policy p => SoundPolicy networks p

def FirewallObject.isZone : FirewallObject → Bool
  | .zone _ _ => true
  | .policy _ => false

def FirewallObject.desired (o : FirewallObject) : Text × Bool × Object F :=
  (o.name, o.isZone, storedEntries o.json)

section Checks

theorem forM_map_ok {α β : Type} {f : β → Except ReconcileError Unit} {g : α → β} {items : List α}
    (h : ∀ item ∈ items, f (g item) = .ok ()) : (items.map g).forM f = .ok () := by
  apply forM_total
  intro b hb
  obtain ⟨item, hitem, rfl⟩ := List.mem_map.mp hb
  exact h item hitem

variable {port protocol : Text} {p : PolicyObject}

theorem checkPolicyPort_ok_iff :
    checkPolicyPort (texts [port, protocol] : Plain F) = .ok () ↔ PortOk port protocol := by
  rw [← checkPort_ok_iff (F := F)]
  show checkPort _ _ >>= _ = _ ↔ _
  constructor
  · intro h
    obtain ⟨shown, hshown, -⟩ := bind_ok h
    exact ⟨shown, hshown⟩
  · intro ⟨shown, hshown⟩
    rw [hshown]
    rfl

theorem checkForwardPort_ok {target : Text} (hport : PortOk port protocol)
    (htarget : PortOk target protocol) :
    checkForwardPort (texts [port, protocol, target] : Plain F) = .ok () := by
  obtain ⟨shown, hshown⟩ := checkPort_ok_iff (F := F).mpr hport
  obtain ⟨shown', hshown'⟩ := checkPort_ok_iff (F := F).mpr htarget
  show checkPort _ _ >>= _ = _
  rw [hshown]
  show checkPort _ _ >>= _ = _
  rw [hshown']
  rfl

theorem checkRichRule_found {o : Object F} {version : IpVersion} {destination shown : Text}
    (hkeys : (keysAre ["family", "destination"] o ||
      keysAre ["family", "destination", "port", "protocol"] o) = true)
    (hdestination : find "destination".toList o = some (.scalar (.string destination)))
    (hnetwork : networks.network destination = some (version, shown))
    (hfamily : textAt "family" o = some version.family)
    (hport : ∀ port protocol, find "port".toList o = some port →
      find "protocol".toList o = some protocol → ∃ shown, checkPort port protocol = .ok shown) :
    checkRichRule networks (.object o) = .ok () := by
  have hknown : ¬ (!keysAre ["family", "destination"] o &&
      !keysAre ["family", "destination", "port", "protocol"] o) = true := by
    rw [← Bool.not_or, hkeys]
    decide
  unfold checkRichRule textTest
  dsimp only
  rw [if_neg hknown, hdestination, Option.bind_some, versionOf, hnetwork]
  dsimp only [Option.map_some]
  rw [hfamily, Option.any_some, decide_eq_true rfl, if_neg (by decide)]
  split
  · rename_i hp hq
    obtain ⟨shown', hshown⟩ := hport _ _ hp hq
    rw [hshown]
    rfl
  · rfl

theorem checkRichRule_ok {rule : RichRule} (h : SoundRule networks rule) :
    checkRichRule networks (stored (rule.json : Plain F)) = .ok () := by
  obtain ⟨family, destination, port⟩ := rule
  obtain ⟨⟨version, shown, hnetwork, rfl⟩, hport⟩ := h
  cases port with
  | none =>
    apply checkRichRule_found _ rfl hnetwork rfl
    · rintro _ _ hp
      cases hp
    · rfl
  | some e =>
    apply checkRichRule_found _ rfl hnetwork rfl
    · rintro _ _ hp hq
      cases hp
      cases hq
      exact checkPort_ok_iff.mpr (hport e rfl)
    · rfl

theorem checkPolicy_ok (h : SoundPolicy networks p) :
    checkPolicy networks p.name (storedEntries (p.json : Object F)) = .ok () := by
  unfold checkPolicy
  have hkeys : keysAre policyKeys (storedEntries (p.json : Object F)) = true := rfl
  have htarget : textTest "target" ["ACCEPT".toList, "DROP".toList, "CONTINUE".toList].contains
      (storedEntries (p.json : Object F)) = true := List.contains_iff_mem.mpr h.target
  have hpriority : isPriority (find "priority".toList (storedEntries (p.json : Object F))) = true := by
    show (decide (p.priority ≠ 0) && decide (-32767 ≤ p.priority) && decide (p.priority ≤ 32767)) = true
    simp [h.priority]
  have hingress : textTest "ingress" isZoneRef (storedEntries (p.json : Object F)) = true := h.ingress
  have hegress : textTest "egress" isZoneRef (storedEntries (p.json : Object F)) = true := h.egress
  rw [h.notZone, hkeys, htarget, hpriority, hingress, hegress]
  have hports : (storedItems (p.ports.map fun e ↦ (texts [e.1, e.2] : Plain F))).forM checkPolicyPort =
      .ok () := by
    rw [storedItems_eq_map, List.map_map]
    exact forM_map_ok fun e he => checkPolicyPort_ok_iff.mpr (h.ports e he)
  have hforwards : (storedItems (p.forwardPorts.map fun e ↦ (texts [e.1, e.2.1, e.2.2] : Plain F))).forM
      checkForwardPort = .ok () := by
    rw [storedItems_eq_map, List.map_map]
    exact forM_map_ok fun e he => checkForwardPort_ok (h.forwards e he).1 (h.forwards e he).2
  have hrules : (storedItems (p.richRules.map (RichRule.json (F := F)))).forM (checkRichRule networks) =
      .ok () := by
    rw [storedItems_eq_map, List.map_map]
    exact forM_map_ok fun rule hrule => checkRichRule_ok (h.rules rule hrule)
  show (List.forM _ _ >>= fun _ ↦ List.forM _ _ >>= fun _ ↦ List.forM _ _ :
    Except ReconcileError Unit) = _
  rw [hports]
  show (List.forM _ _ >>= fun _ ↦ List.forM _ _ : Except ReconcileError Unit) = _
  rw [hforwards]
  exact hrules

theorem checkObject_ok {o : FirewallObject} (h : Sound networks o) :
    checkObject networks (stored (.object o.json : Plain F)) =
      .ok (o.isZone, o.name, storedEntries o.json) := by
  cases o with
  | zone name interface =>
    have hzone : checkZone name (storedEntries ((FirewallObject.zone name interface).json : Object F)) =
        .ok () := by
      have hkeys : keysAre ["kind", "name", "interface"]
          (storedEntries ((FirewallObject.zone name interface).json : Object F)) = true := rfl
      have hinterface : textTest "interface" isBridgeName
          (storedEntries ((FirewallObject.zone name interface).json : Object F)) = true := h.interface
      unfold checkZone
      rw [h.zone, hkeys, hinterface]
      rfl
    show (if _ then _ else _) = _
    rw [if_neg (by simp [h.owned]), if_pos rfl, hzone]
    rfl
  | policy p =>
    show (if _ then _ else _) = _
    rw [if_neg (by simp [h.name]), if_neg (by decide)]
    show checkPolicy networks p.name (storedEntries p.json) >>= _ = _
    rw [checkPolicy_ok h]
    rfl

theorem ports_of_checkObject {r : Bool × Text × Object F}
    (h : checkObject networks (stored (.object (FirewallObject.policy p).json)) = .ok r) :
    ∀ e ∈ p.ports, PortOk e.1 e.2 := by
  replace h : (if _ then _ else _) = Except.ok r := h
  obtain ⟨-, h⟩ := guard_ok h
  rw [if_neg (by decide)] at h
  replace h : checkPolicy networks p.name (storedEntries p.json) >>= _ = _ := h
  obtain ⟨⟨⟩, h, -⟩ := bind_ok h
  unfold checkPolicy at h
  obtain ⟨-, h⟩ := guard_ok h
  obtain ⟨-, h⟩ := guard_ok h
  obtain ⟨-, h⟩ := guard_ok h
  replace h : (List.forM _ _ >>= fun _ ↦ List.forM _ _ >>= fun _ ↦ List.forM _ _ :
    Except ReconcileError Unit) = _ := h
  obtain ⟨⟨⟩, hports, -⟩ := bind_ok h
  rw [storedItems_eq_map, List.map_map] at hports
  intro e he
  exact checkPolicyPort_ok_iff.mp (forM_ok hports _ (List.mem_map_of_mem he))

end Checks

end NixNas.Firewalld
