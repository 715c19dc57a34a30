import NixNas.Network.Validation

/-!
# Ingress of isolated services

`_apply_isolated_ingress` of `services/nas_v2_compose.py` and `_publish_lines` of
`services/nas_v2_quadlet.py`.
-/

open Admission Dictionary Fallible Journal

namespace NixNas.Network

/-- `_LOOPBACK_HOSTS`, the same in both modules. -/
def loopbackHosts : List (Text × Text) :=
  [("127.0.0.1".toList, "127.0.0.1".toList), ("localhost".toList, "127.0.0.1".toList),
    ("::1".toList, "[::1]".toList)]

def bindHost (host : Text) : Option Text := loopbackHosts.lookup host

inductive Ports where
  | single (host container : Nat)
  | range (start stop : Nat)
  deriving DecidableEq, Repr

/-- One published line; without a bind address it is on every interface. -/
structure Publication where
  bind : Option Text
  protocol : Protocol
  ports : Ports
  deriving DecidableEq, Repr

def Protocol.text : Protocol → Text
  | .tcp => "tcp".toList
  | .udp => "udp".toList

def Ports.text : Ports → Text
  | .single host container => (Nat.repr host).toList ++ ':' :: (Nat.repr container).toList
  | .range start stop =>
    let ports := (Nat.repr start).toList ++ '-' :: (Nat.repr stop).toList
    ports ++ ':' :: ports

def Publication.text (publication : Publication) : Text :=
  (match publication.bind with
    | some host => host ++ [':']
    | none => []) ++ publication.ports.text ++ '/' :: publication.protocol.text

def Ports.mappings : Ports → List (Nat × Nat)
  | .single host container => [(host, container)]
  | .range start stop => (List.range' start (stop + 1 - start)).map fun port ↦ (port, port)

def Publication.tuples (publication : Publication) : List (Option Text × Protocol × Nat × Nat) :=
  publication.ports.mappings.map fun mapping ↦
    (publication.bind, publication.protocol, mapping.1, mapping.2)

def Publication.sockets (publication : Publication) : List Socket :=
  publication.ports.mappings.map fun mapping ↦ (publication.protocol, mapping.1)

def Listener.ports (listener : Listener) : Ports :=
  match listener.exposure with
  | .port p => .single p ((listener.targetPort.getD p : Port) : Nat)
  | .range start stop => .range start stop

inductive Endpoint where
  | listener (id : Text)
  | route (id : Text)
  deriving DecidableEq, Repr

/-- The network part of `ComposeProjectionError`. -/
inductive ComposeError where
  | profileMissing (profile : Text)
  | networkFields (name : Text) (conflicts : List Text)
  | noTarget (endpoint : Endpoint)
  | unknownTarget (endpoint : Endpoint) (target : Text)
  | range (listener : Text)
  | unixRoute (route : Text)
  | hostRoute (route : Text)
  | conflict (endpoint : Endpoint) (socket : Socket)
  | hostRestrictions (service : Text)
  | noneExceptions (service : Text)
  | noneEndpoints (service : Text)
  deriving DecidableEq, Repr

/-- The published sockets with container and container port, and the lines of the containers. -/
structure Ingress where
  published : Store Socket (Text × Nat)
  lines : List (Text × Publication)

section

variable (names : List Text)

def composeIngressTarget (endpoint : Endpoint) : Option Text → Except ComposeError Text
  | none | some [] => .error (.noTarget endpoint)
  | some target =>
    if names.contains target then .ok target else .error (.unknownTarget endpoint target)

def publish (endpoint : Endpoint) (target : Text) (line : Publication) (ingress : Ingress) :
    Except ComposeError Ingress := do
  let claims := line.ports.mappings.map fun mapping ↦
    ((line.protocol, mapping.1), (target, mapping.2))
  let published ← (claims.foldlM claim ingress.published).mapError fun held ↦
    .conflict endpoint held.1
  let isNew := claims.any fun entry ↦ (ingress.published.lookup entry.1).isNone
  .ok ⟨published, if isNew then ingress.lines ++ [(target, line)] else ingress.lines⟩

def composeListener (ingress : Ingress) (entry : Text × Listener) : Except ComposeError Ingress := do
  let target ← composeIngressTarget names (.listener entry.1) entry.2.runtimeTarget
  match entry.2.exposure with
  | .port _ => publish (.listener entry.1) target ⟨none, entry.2.protocol, entry.2.ports⟩ ingress
  | .range start stop =>
    if stop < start then .error (.range entry.1)
    else publish (.listener entry.1) target ⟨none, entry.2.protocol, entry.2.ports⟩ ingress

def composeRoute (ingress : Ingress) (entry : Text × Route) : Except ComposeError Ingress := do
  let target ← composeIngressTarget names (.route entry.1) entry.2.runtimeTarget
  match entry.2.target with
  | .unixHttp _ => .error (.unixRoute entry.1)
  | .http host port =>
    match bindHost host with
    | none => .error (.hostRoute entry.1)
    | some bind => publish (.route entry.1) target ⟨some bind, .tcp, .single port port⟩ ingress

def applyIsolatedIngress (service : Service) : Except ComposeError Ingress := do
  let ingress ← (byKey service.listeners).foldlM (composeListener names) ⟨∅, []⟩
  (byKey service.routes).foldlM (composeRoute names) ingress

end

inductive QuadletError where
  | network (error : NetworkError)
  | targetPort (listener : Text)
  | unixRoute (route : Text)
  | hostRoute (route : Text)
  deriving DecidableEq, Repr

structure Published where
  sockets : Finset Socket
  lines : List Publication
  deriving DecidableEq

def addBindHost (hosts : Store Socket Text) (entry : Text × Route) : Store Socket Text :=
  match entry.2.target with
  | .unixHttp _ => hosts
  | .http host port =>
    match bindHost host with
    | some bind => hosts.insert (.tcp, (port : Nat)) bind
    | none => hosts

/-- `route_bind_hosts`: the last route of a port decides. -/
def routeBindHosts (service : Service) : Store Socket Text :=
  (items service.routes).foldl addBindHost ∅

def publishListener (hosts : Store Socket Text) (state : Published) (entry : Text × Listener) :
    Except QuadletError Published :=
  let listener := entry.2
  let sockets := state.sockets ∪ listener.sockets.toFinset
  match listener.exposure with
  | .port port =>
    let bind := hosts.lookup (listener.protocol, (port : Nat))
    .ok ⟨sockets, state.lines ++ [⟨bind, listener.protocol, listener.ports⟩]⟩
  | .range _ _ =>
    if listener.targetPort.isSome then .error (.targetPort entry.1)
    else .ok ⟨sockets, state.lines ++ [⟨none, listener.protocol, listener.ports⟩]⟩

def publishLoopback (state : Published) (entry : Text × Route) : Except QuadletError Published :=
  match entry.2.target with
  | .unixHttp _ => .error (.unixRoute entry.1)
  | .http host port =>
    match bindHost host with
    | none => .error (.hostRoute entry.1)
    | some bind =>
      if (.tcp, (port : Nat)) ∈ state.sockets then .ok state
      else .ok ⟨insert (.tcp, (port : Nat)) state.sockets,
        state.lines ++ [⟨some bind, .tcp, .single port port⟩]⟩

def isolatedLines (service : Service) : Except QuadletError Published := do
  let state ← (byKey service.listeners).foldlM (publishListener (routeBindHosts service)) ⟨∅, []⟩
  (byKey service.routes).foldlM publishLoopback state

def publishLines (effective : Effective) (service : Service) :
    Except QuadletError (List Publication) := do
  let policy ← (networkPolicy effective service).mapError .network
  if policy.mode ≠ .isolated then .ok []
  else do
    let published ← isolatedLines service
    .ok published.lines

end NixNas.Network
