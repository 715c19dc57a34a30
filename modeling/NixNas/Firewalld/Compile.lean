import NixNas.Session.Names
import NixNas.Session.Projection

/-!
# The native firewalld objects (`services/nas_v2_network.py`)

The values of a document stand as Python has them: a port that is written `443.0` is a float, which the
schema takes for an integer.
-/

open Fallible NixNas.Spec NixNas.Authentik NixNas.Session

namespace NixNas.Firewalld

variable {F : Type}

/-! ## Numbers and networks -/

/-- `str(n)`. -/
def intText (n : Int) : Text := (Int.repr n).toList

/-- How Python compares and prints numbers.  The text of a float has a point, an exponent or letters. -/
structure Numbers (F : Type) where
  float : FloatEq F
  /-- `a <= b`. -/
  le : Plain F → Plain F → Bool
  repr : F → Text
  repr_mark : ∀ x, ∃ c ∈ repr x, c.isDigit = false ∧ c ≠ '-'

/-- `str(value)`. -/
def Numbers.text (numbers : Numbers F) : Plain F → Text
  | .scalar (.string t) => t
  | .scalar (.integer n) => intText n
  | .scalar (.boolean true) => "True".toList
  | .scalar (.boolean false) => "False".toList
  | .scalar .null => "None".toList
  | .scalar (.float x) => numbers.repr x
  | _ => []

/-- `isinstance(value, int)`, with the value; a truth value is one. -/
def integerOf : Plain F → Option Int
  | .scalar a => asInt a
  | _ => none

/-- `set(items)`: of equal items the first. -/
def Numbers.distinct (numbers : Numbers F) : List (Plain F) → List (Plain F)
  | [] => []
  | item :: items => item :: (numbers.distinct items).filter fun other ↦ !eq numbers.float other item

/-- `sorted(set(items))`. -/
def Numbers.sorted (numbers : Numbers F) (items : List (Plain F)) : List (Plain F) :=
  (numbers.distinct items).insertionSort fun a b ↦ numbers.le a b = true

inductive IpVersion where
  | v4 | v6
  deriving DecidableEq, Repr

def IpVersion.family : IpVersion → Text
  | .v4 => "ipv4".toList
  | .v6 => "ipv6".toList

/-- `ipaddress.ip_network(text, strict=False)`: the version and `str` of the network, which is again the
text of a network of that version. -/
structure IpNetworks where
  network : Text → Option (IpVersion × Text)
  again : ∀ {raw version shown}, network raw = some (version, shown) →
    ∃ shown', network shown = some (version, shown')

/-! ## Objects -/

/-- `FirewalldProjectionError`, and what else the compiler raises. -/
inductive FirewalldError where
  | policy
  | cidrType
  | cidr (raw : Text)
  | egressPorts (raw : Text)
  | egressEntry
  | exposure
  | listener
  | targetPortRange
  | targetPort
  | route (routeId : Text)
  | socketRoute (routeId : Text)
  | routePort (routeId : Text)
  | lanZone (name : Text)
  | services
  | unmanaged (serviceId : Text)
  | runtime (serviceId : Text)
  | noneListeners (serviceId : Text)
  | mode
  | duplicate (target : Text)
  | duplicateRemote
  | network (error : ReferenceError)
  deriving DecidableEq, Repr

/-- A rule for a destination, for all its ports or for one of them. -/
structure RichRule where
  family : Text
  destination : Text
  port : Option (Text × Text)
  deriving DecidableEq, Repr

structure PolicyObject where
  name : Text
  target : Text
  priority : Int
  ingress : Text
  egress : Text
  ports : List (Text × Text)
  forwardPorts : List (Text × Text × Text)
  richRules : List RichRule
  deriving DecidableEq, Repr

inductive FirewallObject where
  | zone (name interface : Text)
  | policy (p : PolicyObject)
  deriving DecidableEq, Repr

def FirewallObject.name : FirewallObject → Text
  | .zone name _ => name
  | .policy p => p.name

def FirewallObject.target : FirewallObject → Text
  | .zone name _ => "zones/".toList ++ name
  | .policy p => "policies/".toList ++ p.name

def RichRule.json (rule : RichRule) : Plain F :=
  .object ([("family".toList, .scalar (.string rule.family)),
    ("destination".toList, .scalar (.string rule.destination))] ++
    match rule.port with
    | none => []
    | some (port, protocol) =>
      [("port".toList, .scalar (.string port)), ("protocol".toList, .scalar (.string protocol))])

def PolicyObject.json (p : PolicyObject) : Object F :=
  [("kind".toList, text "policy"), ("name".toList, .scalar (.string p.name)),
    ("target".toList, .scalar (.string p.target)), ("priority".toList, number p.priority),
    ("ingress".toList, .scalar (.string p.ingress)), ("egress".toList, .scalar (.string p.egress)),
    ("ports".toList, .array (p.ports.map fun e ↦ texts [e.1, e.2])),
    ("forwardPorts".toList, .array (p.forwardPorts.map fun e ↦ texts [e.1, e.2.1, e.2.2])),
    ("richRules".toList, .array (p.richRules.map RichRule.json))]

def FirewallObject.json : FirewallObject → Object F
  | .zone name interface => [("kind".toList, text "zone"), ("name".toList, .scalar (.string name)),
    ("interface".toList, .scalar (.string interface))]
  | .policy p => p.json

section Names

variable (sha256 : Text → Text)

def ownedName (letter : Char) (serviceId : Text) : Text :=
  "nv2".toList ++ letter :: (sha256 serviceId).take 12

def bridgeInterfaceName (serviceId : Text) : Text := "nv2".toList ++ (sha256 serviceId).take 11

def zoneName (serviceId : Text) : Text := ownedName sha256 'z' serviceId

def hostPolicyName (serviceId : Text) : Text := ownedName sha256 'h' serviceId

def lanPolicyName (serviceId : Text) : Text := ownedName sha256 'l' serviceId

def worldPolicyName (serviceId : Text) : Text := ownedName sha256 'w' serviceId

def routePolicyName (serviceId : Text) : Text := ownedName sha256 'r' serviceId

def listenerPolicyName (serviceId : Text) : Text := ownedName sha256 'i' serviceId

def hostListenerPolicyName : Text := listenerPolicyName sha256 ":host-listeners".toList

def remoteAdminPolicyName : Text := ownedName sha256 'm' "remote-admin".toList

end Names

/-- `_policy`. -/
def policyObject (name : Text) (target : String) (priority : Int) (ingress egress : Text)
    (ports : List (Text × Text)) (forwardPorts : List (Text × Text × Text)) (richRules : List RichRule) :
    Except FirewalldError FirewallObject :=
  if target ∉ ["ACCEPT", "DROP", "CONTINUE"] ∨ priority = 0 ∨ priority < -32767 ∨ 32767 < priority then
    .error .policy
  else .ok (.policy ⟨name, target.toList, priority, ingress, egress, ports, forwardPorts, richRules⟩)

def allowPolicy (name ingress egress : Text) (ports : List (Text × Text))
    (forwardPorts : List (Text × Text × Text)) : Except FirewalldError FirewallObject :=
  policyObject name "DROP" (-50) ingress egress ports forwardPorts []

/-! ## Rules of a service -/

def protocols : List Text := ["tcp".toList, "udp".toList]

/-- An integer of a port's range that is no truth value. -/
def portNumber : Plain F → Option Int
  | .scalar (.integer n) => if 1 ≤ n ∧ n ≤ 65535 then some n else none
  | _ => none

def egressRules (networks : IpNetworks) (rule : Object F) : Except FirewalldError (List RichRule) :=
  match find "cidr".toList rule with
  | some (.scalar (.string raw)) =>
    match networks.network raw with
    | none => .error (.cidr raw)
    | some (version, shown) =>
      match (find "ports".toList rule).getD (.array []) with
      | .array ports =>
        match ports.mapM portNumber with
        | none => .error (.egressPorts raw)
        | some [] => .ok [⟨version.family, shown, none⟩]
        | some ports => .ok ((ports.dedup.insertionSort (· ≤ ·)).flatMap fun port ↦
          protocols.map fun protocol ↦ ⟨version.family, shown, some (intText port, protocol)⟩)
      | _ => .error (.egressPorts raw)
  | _ => .error .cidrType

/-- `a <= b` on pairs. -/
abbrev PairLe (a b : Text × Text) : Prop := a.1 < b.1 ∨ a.1 = b.1 ∧ a.2 ≤ b.2

/-- `sorted(set(pairs))`. -/
def sortedPairs (pairs : List (Text × Text)) : List (Text × Text) := pairs.dedup.insertionSort PairLe

/-- `sorted(set(triples))`. -/
def sortedTriples (triples : List (Text × Text × Text)) : List (Text × Text × Text) :=
  triples.dedup.insertionSort fun a b ↦ a.1 < b.1 ∨ a.1 = b.1 ∧ PairLe a.2 b.2

section Rules

variable (numbers : Numbers F)

def integerText (value : Option (Plain F)) : Option Text :=
  value.bind fun value ↦ (integerOf value).map fun _ ↦ numbers.text value

def exposurePort (exposure : Object F) : Except FirewalldError Text :=
  match integerText numbers (find "port".toList exposure) with
  | some port => .ok port
  | none =>
    match integerText numbers (find "start".toList exposure),
      integerText numbers (find "end".toList exposure) with
    | some start, some stop => .ok (start ++ '-' :: stop)
    | _, _ => .error .exposure

/-- `listener.get("firewall", True) is True`. -/
def wantsFirewall (listener : Object F) : Bool :=
  match find "firewall".toList listener with
  | none => true
  | some (.scalar (.boolean b)) => b
  | some _ => false

def exposureOf (listener : Object F) : Object F := asObject (find "exposure".toList listener)

def protocolOf (listener : Object F) : Text := (textAt "protocol" listener).getD []

/-- One turn of `_iter_listeners`. -/
def keepListener (listener : Plain F) : Except FirewalldError (Option (Object F)) :=
  match listener with
  | .object o =>
    if !wantsFirewall o then .ok none
    else if (keyIs "protocol" "tcp" o || keyIs "protocol" "udp" o) && (objectAt "exposure" o).isSome then
      .ok (some o)
    else .error .listener
  | _ => .ok none

def iterListeners (service : Object F) : Except FirewalldError (List (Object F)) := do
  let kept ← (asObject (find "listeners".toList service)).mapM fun entry ↦ keepListener entry.2
  .ok (kept.filterMap id)

/-- One turn of `_listener_ports`. -/
def listenerPort (listener : Object F) : Except FirewalldError (Text × Text) := do
  if Has "targetPort".toList listener then .error .targetPortRange
  else
    let port ← exposurePort numbers (exposureOf listener)
    .ok (port, protocolOf listener)

def listenerPorts (service : Object F) : Except FirewalldError (List (Text × Text)) := do
  let listeners ← iterListeners service
  let entries ← listeners.mapM (listenerPort numbers)
  .ok (sortedPairs entries)

def forwardTarget (listener : Object F) : Except FirewalldError (Option Int) :=
  match presentAt "targetPort" listener with
  | none => .ok none
  | some target =>
    match (find "port".toList (exposureOf listener)).bind integerOf with
    | none => .error .targetPortRange
    | some exposed =>
      match portNumber target with
      | none => .error .targetPort
      | some target => .ok (if target = exposed then none else some target)

/-- One turn of `_host_listener_rules`: a port, or a forward to another port. -/
def hostListenerRule (listener : Object F) :
    Except FirewalldError ((Text × Text) ⊕ (Text × Text × Text)) := do
  let forward ← forwardTarget listener
  match forward, integerText numbers (find "port".toList (exposureOf listener)) with
  | some target, some port => .ok (.inr (port, protocolOf listener, intText target))
  | _, _ =>
    let port ← exposurePort numbers (exposureOf listener)
    .ok (.inl (port, protocolOf listener))

def hostListenerRules (service : Object F) :
    Except FirewalldError (List (Text × Text) × List (Text × Text × Text)) := do
  let listeners ← iterListeners service
  let rules ← listeners.mapM (hostListenerRule numbers)
  .ok (sortedPairs (rules.filterMap Sum.getLeft?), sortedTriples (rules.filterMap Sum.getRight?))

def publishes (port listener : Plain F) : Bool :=
  keyIs "protocol" "tcp" (asObject (some listener)) &&
    (find "port".toList (exposureOf (asObject (some listener)))).any (eq numbers.float · port)

/-- The container's port behind the port of a route: the target of the first listener that publishes
it. -/
def containerPort (service : Object F) (port : Plain F) : Plain F :=
  match ((asObject (find "listeners".toList service)).map Prod.snd).find? (publishes numbers port) with
  | some listener => (find "targetPort".toList (asObject (some listener))).getD port
  | none => port

/-- One turn of `_route_ports`. -/
def routePort (service : Object F) (entry : Text × Plain F) : Except FirewalldError (Text × Text) :=
  match objectAt "target" (asObject (some entry.2)) with
  | none => .error (.route entry.1)
  | some target =>
    if keyIs "type" "unix-http" target then .error (.socketRoute entry.1)
    else match find "port".toList target with
      | none => .error (.routePort entry.1)
      | some port =>
        if (integerOf port).isSome then
          .ok (numbers.text (containerPort numbers service port), "tcp".toList)
        else .error (.routePort entry.1)

def routePorts (service : Object F) : Except FirewalldError (List (Text × Text)) := do
  let ports ← (asObject (find "routes".toList service)).mapM (routePort numbers service)
  .ok (sortedPairs ports)

def hostPorts (policy : Object F) : List (Text × Text) :=
  (numbers.sorted (asArray (find "allowedHostPorts".toList policy))).flatMap fun port ↦
    protocols.map fun protocol ↦ (numbers.text port, protocol)

end Rules

/-! ## The projection -/

/-- `_validate_lan_zone`. -/
def isLanZone (name : Text) : Bool :=
  match name with
  | [] => false
  | c :: rest => (c.isAlphanum || c = '_') && rest.length ≤ 16 &&
    rest.all fun c ↦ c.isAlphanum || c = '_' || c = '-'

def validateLanZone (lanZone : Text) : Except FirewalldError Unit :=
  if isLanZone lanZone then .ok () else .error (.lanZone lanZone)

/-- `object.get(key, True)`. -/
def truthyDefault (key : String) (o : Object F) : Bool := (find key.toList o).all truthy

structure Projection where
  objects : List FirewallObject
  /-- The service of each object, with the key of the object. -/
  owners : List (Text × Text)
  deriving DecidableEq, Repr

structure Collected extends Projection where
  ports : List (Text × Text)
  forwards : List (Text × Text × Text)
  hostOwners : List Text

section Projection

variable (numbers : Numbers F) (networks : IpNetworks) (sha256 : Text → Text)

def isolatedObjects (lanZone serviceId : Text) (service policy : Object F) :
    Except FirewalldError (List FirewallObject) := do
  let listeners ← listenerPorts numbers service
  if !truthyDefault "managed" service then .error (.unmanaged serviceId)
  else if !(["oci", "quadlet", "compose"].any (runtimeIs · service)) then .error (.runtime serviceId)
  else do
    let zone := zoneName sha256 serviceId
    let host ← policyObject (hostPolicyName sha256 serviceId) "DROP" (-50) zone "HOST".toList
      (hostPorts numbers policy) [] []
    let lan ← policyObject (lanPolicyName sha256 serviceId)
      (if truthyAt "lanAccess" policy then "ACCEPT" else "DROP") (-100) zone lanZone [] [] []
    let rules ← (asArray (find "allowedEgress".toList policy)).mapM fun entry ↦
      match entry with
      | .object rule => egressRules networks rule
      | _ => .error .egressEntry
    let world ← policyObject (worldPolicyName sha256 serviceId)
      (if defaultIs "outboundDefault" "allow" "allow" policy then "ACCEPT" else "DROP") 50 zone
      "ANY".toList [] [] rules.flatten
    let routes ← routePorts numbers service
    let route ← allowPolicy (routePolicyName sha256 serviceId) "HOST".toList zone routes []
    let listener ← allowPolicy (listenerPolicyName sha256 serviceId) lanZone zone listeners []
    .ok (.zone zone (bridgeInterfaceName sha256 serviceId) :: host :: lan :: world ::
      ((if routes.isEmpty then [] else [route]) ++ if listeners.isEmpty then [] else [listener]))

def addObject (serviceId : Text) (state : Collected) (o : FirewallObject) :
    Except FirewalldError Collected :=
  if o.target ∈ state.objects.map FirewallObject.target then .error (.duplicate o.target)
  else .ok { state with
    objects := state.objects ++ [o]
    owners := state.owners ++ [(serviceId, o.target)] }

def serviceRound (lanZone : Text) (effective services : Object F) (state : Collected)
    (serviceId : Text) : Except FirewalldError Collected :=
  match find serviceId services with
  | some (.object service) =>
    if !truthyDefault "enabled" service then .ok state
    else do
      let policy ← (networkPolicy effective service).mapError .network
      if defaultIs "mode" "host" "isolated" policy then do
        let generated ← isolatedObjects numbers networks sha256 lanZone serviceId service policy
        generated.foldlM (addObject serviceId) state
      else if defaultIs "mode" "host" "host" policy then do
        let (ports, forwards) ← hostListenerRules numbers service
        if ports.isEmpty && forwards.isEmpty then .ok state
        else .ok { state with
          ports := state.ports ++ ports
          forwards := state.forwards ++ forwards
          hostOwners := state.hostOwners ++ [serviceId] }
      else if defaultIs "mode" "host" "none" policy then do
        let ports ← listenerPorts numbers service
        if ports.isEmpty then .ok state else .error (.noneListeners serviceId)
      else .error .mode
  | _ => .ok state

/-- `compile_remote_admin_projection`. -/
def compileRemoteAdmin (lanZone : Text) : Except FirewalldError FirewallObject := do
  validateLanZone lanZone
  policyObject (remoteAdminPolicyName sha256) "CONTINUE" (-300) lanZone "HOST".toList
    [("22".toList, "tcp".toList), ("443".toList, "tcp".toList)] [] []

/-- `compile_application_projection`. -/
def compileApplication (effective : Object F) (lanZone : Text) : Except FirewalldError Projection := do
  validateLanZone lanZone
  match objectAt "services" effective with
  | none => .error .services
  | some services => do
    let state ← ((services.map Prod.fst).insertionSort (· ≤ ·)).foldlM
      (serviceRound numbers networks sha256 lanZone effective services) ⟨⟨[], []⟩, [], [], []⟩
    if state.ports.isEmpty && state.forwards.isEmpty then .ok state.toProjection
    else do
      let o ← allowPolicy (hostListenerPolicyName sha256) lanZone "HOST".toList
        (sortedPairs state.ports) (sortedTriples state.forwards)
      if o.target ∈ state.objects.map FirewallObject.target then .error (.duplicate o.target)
      else .ok ⟨state.objects ++ [o], state.owners ++ state.hostOwners.map fun id ↦ (id, o.target)⟩

def compileProjection (effective : Object F) (lanZone : Text) : Except FirewalldError Projection := do
  let remote ← compileRemoteAdmin sha256 lanZone
  let app ← compileApplication numbers networks sha256 effective lanZone
  if remote.target ∈ app.objects.map FirewallObject.target then .error .duplicateRemote
  else .ok ⟨remote :: app.objects, ("_remote-admin".toList, remote.target) :: app.owners⟩

end Projection

def Projection.sorted (p : Projection) : List FirewallObject :=
  p.objects.insertionSort fun a b ↦ a.target ≤ b.target

/-- The manifest that `materialize_projection` writes. -/
def Projection.manifest (p : Projection) : Object F :=
  [("schemaVersion".toList, number 2),
    ("objects".toList, .array (p.sorted.map fun o ↦ .object o.json)),
    ("owners".toList, .array ((p.owners.insertionSort PairLe).map fun owner ↦
      .object [("service".toList, .scalar (.string owner.1)),
        ("target".toList, .scalar (.string owner.2))]))]

end NixNas.Firewalld
