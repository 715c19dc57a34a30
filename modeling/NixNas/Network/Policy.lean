import Mathlib.Data.Char
import Mathlib.Data.List.Lex
import NixNas.Lib.Dictionary
import NixNas.Lib.Fallible
import NixNas.Names

/-!
# Network policies (`services/nas_v2_network.py`)

The network part of a compiled document, and the reference of a service to its Podman network.
-/

open Dictionary Fallible

namespace NixNas.Network

open Caddy (isSchemaId)

/-- A port of a document, as the schema bounds it. -/
abbrev Port := { n : Nat // 1 ≤ n ∧ n ≤ 65535 }

inductive Mode where
  | host | isolated | none
  deriving DecidableEq, Repr

inductive Outbound where
  | allow | deny
  deriving DecidableEq, Repr

structure EgressRule where
  cidr : Text
  ports : List Port
  deriving DecidableEq, Repr

/-- `networkPolicy` after `_normalize_network`; `vlanParent` is not of the schema and is bound
later. -/
structure Policy where
  mode : Mode
  vlanId : Option Nat
  vlanParent : Option Text
  outboundDefault : Outbound
  lanAccess : Bool
  allowedHostPorts : List Port
  allowedEgress : List EgressRule
  deriving DecidableEq, Repr

inductive Protocol where
  | tcp | udp
  deriving DecidableEq, Repr

inductive Exposure where
  | port (port : Port)
  | range (start stop : Port)
  deriving DecidableEq, Repr

structure Listener where
  protocol : Protocol
  exposure : Exposure
  targetPort : Option Port
  runtimeTarget : Option Text
  deriving DecidableEq, Repr

/-- `http` stands for `https` as well. -/
inductive Target where
  | http (host : Text) (port : Port)
  | unixHttp (socket : Text)
  deriving DecidableEq, Repr

structure Route where
  target : Target
  runtimeTarget : Option Text
  deriving DecidableEq, Repr

inductive RuntimeType where
  | exec | python | vm | systemd | oci | quadlet | compose
  deriving DecidableEq, Repr

inductive WorkloadKind where
  | daemon | job | session
  deriving DecidableEq, Repr

structure Service where
  enabled : Bool
  managed : Bool
  runtime : RuntimeType
  kind : WorkloadKind
  network : Option Policy
  networkProfile : Option Text
  listeners : Dict Text Listener
  routes : Dict Text Route

structure Effective where
  networkProfiles : Dict Text Policy
  services : Dict Text Service
  identifiers : ∀ id ∈ services.keys, isSchemaId id = true

/-- `PodmanNetworkProjectionError`. -/
inductive NetworkError where
  | profileMissing
  | vlanTogether
  | vlanId
  | vlanParent
  | noneEndpoints (service : Text)
  | noneExceptions (service : Text)
  | hostRestrictions (service : Text)
  | isolatedRuntime (service : Text) (runtime : RuntimeType)
  | sessionRuntime (service : Text)
  | sessionEndpoints (service : Text)
  | firewalld (service : Text)
  | duplicateTarget (reference : Text)
  deriving DecidableEq, Repr

def hostPolicy : Policy := ⟨.host, none, none, .allow, false, [], []⟩

def networkPolicy (effective : Effective) (service : Service) : Except NetworkError Policy :=
  match service.networkProfile with
  | some profile =>
    match effective.networkProfiles.lookup profile with
    | some policy => .ok policy
    | none => .error .profileMissing
  | none => .ok (service.network.getD hostPolicy)

/-- `_INTERFACE_RE`. -/
def isInterface (value : Text) : Bool :=
  value ≠ [] && value.length ≤ 64 &&
    value.all fun c ↦ c.isAlphanum || ['_', '.', ':', '-'].contains c

def hexDigit (c : Char) : Nat := if c.isDigit then c.toNat - '0'.toNat else c.toNat - 'a'.toNat + 10

/-- `int(digits, 16)`. -/
def hexNat (digits : Text) : Nat := digits.foldl (fun n c ↦ 16 * n + hexDigit c) 0

structure VlanBinding where
  id : Nat
  parent : Text
  key : Text
  table : Nat
  vrfInterface : Text
  vlanInterface : Text
  vrfProfile : Text
  vlanProfile : Text
  unit : Text
  deriving DecidableEq, Repr

section

variable (sha256 : Text → Text)

def bindVlan (vid : Nat) (parent : Text) : VlanBinding :=
  let digest := (sha256 (parent ++ Char.ofNat 0 :: (Nat.repr vid).toList)).take 10
  { id := vid
    parent := parent
    key := digest
    table := 1000000000 + hexNat digest % 3000000000
    vrfInterface := "nv2vrf".toList ++ digest.take 7
    vlanInterface := "nv2vl".toList ++ digest.take 8
    vrfProfile := "nas-v2-vrf-".toList ++ digest
    vlanProfile := "nas-v2-vlan-".toList ++ digest
    unit := "nas-v2-vlan-".toList ++ digest ++ ".service".toList }

def vlanBinding (policy : Policy) : Except NetworkError (Option VlanBinding) :=
  match policy.vlanId, policy.vlanParent with
  | none, none => .ok none
  | some vid, some parent =>
    if vid < 1 || 4094 < vid then .error .vlanId
    else if !isInterface parent then .error .vlanParent
    else .ok (some (bindVlan sha256 vid parent))
  | _, _ => .error .vlanTogether

def externalEgress (policy : Policy) : Bool :=
  policy.outboundDefault = .allow || policy.lanAccess || policy.allowedEgress ≠ []

def needsIsolatedFirewalld (service : Service) (policy : Policy) : Bool :=
  policy.outboundDefault ≠ .deny || policy.lanAccess || policy.allowedHostPorts ≠ [] ||
    policy.allowedEgress ≠ [] || service.routes.entries ≠ [] || service.listeners.entries ≠ []

def RuntimeType.isContainer (runtime : RuntimeType) : Bool :=
  [RuntimeType.oci, .quadlet, .compose].contains runtime

/-- `bool(service.get("routes")) or bool(service.get("listeners"))`. -/
def Service.hasEndpoints (service : Service) : Bool :=
  service.routes.entries ≠ [] || service.listeners.entries ≠ []

def isolatedSupported (serviceId : Text) (service : Service) (policy : Policy)
    (firewalldEnabled : Bool) : Except NetworkError Unit := do
  let _ ← vlanBinding sha256 policy
  if !service.runtime.isContainer then .error (.isolatedRuntime serviceId service.runtime)
  else if service.kind = .session && service.runtime ≠ .oci then .error (.sessionRuntime serviceId)
  else if service.kind = .session && service.hasEndpoints then .error (.sessionEndpoints serviceId)
  else if needsIsolatedFirewalld service policy && !firewalldEnabled then
    .error (.firewalld serviceId)
  else .ok ()

def networkReference (serviceId : Text) (service : Service) : Text :=
  (if service.kind = .session then "nas-v2-snet-".toList else "nas-v2-net-".toList) ++ serviceId ++
    ".network".toList

def modeReference (serviceId : Text) (service : Service) (policy : Policy)
    (vlan : Option VlanBinding) (firewalldEnabled : Bool) : Except NetworkError Text :=
  match policy.mode with
  | .none =>
    if service.hasEndpoints then .error (.noneEndpoints serviceId)
    else if policy.allowedHostPorts ≠ [] || policy.allowedEgress ≠ [] || policy.lanAccess ||
        vlan.isSome then
      .error (.noneExceptions serviceId)
    else .ok "none".toList
  | .host =>
    if policy.outboundDefault ≠ .allow || policy.lanAccess || policy.allowedHostPorts ≠ [] ||
        policy.allowedEgress ≠ [] || vlan.isSome then
      .error (.hostRestrictions serviceId)
    else .ok "host".toList
  | .isolated => do
    isolatedSupported sha256 serviceId service policy firewalldEnabled
    .ok (networkReference serviceId service)

def quadletNetworkReference (effective : Effective) (serviceId : Text) (service : Service)
    (firewalldEnabled : Bool) : Except NetworkError Text := do
  let policy ← networkPolicy effective service
  let vlan ← vlanBinding sha256 policy
  modeReference sha256 serviceId service policy vlan firewalldEnabled

end

/-- The policy is without a VLAN, or with a valid one whose parent is bound. -/
def Policy.VlanFits (policy : Policy) : Prop :=
  (policy.vlanId = none ∧ policy.vlanParent = none) ∨
    ∃ vid parent, policy.vlanId = some vid ∧ policy.vlanParent = some parent ∧
      1 ≤ vid ∧ vid ≤ 4094 ∧ isInterface parent = true

variable {sha256 : Text → Text}
variable {policy : Policy}

theorem vlanBinding_ok_iff : (∃ vlan, vlanBinding sha256 policy = .ok vlan) ↔ policy.VlanFits := by
  unfold vlanBinding Policy.VlanFits
  cases hvid : policy.vlanId with
  | none => cases hparent : policy.vlanParent <;> simp
  | some vid =>
    cases hparent : policy.vlanParent with
    | none => simp
    | some parent =>
      simp only [Bool.or_eq_true, decide_eq_true_eq, Bool.not_eq_true']
      split
      · rename_i hrange
        constructor
        · rintro ⟨_, h⟩
          cases h
        · rintro (⟨h, _⟩ | ⟨v, p, hv, _, hlow, hhigh, _⟩)
          · cases h
          · cases hv
            omega
      · rename_i hrange
        split
        · rename_i hbad
          constructor
          · rintro ⟨_, h⟩
            cases h
          · rintro (⟨h, _⟩ | ⟨v, p, _, hp, _, _, hsafe⟩)
            · cases h
            · cases hp
              rw [hbad] at hsafe
              cases hsafe
        · rename_i hsafe
          constructor
          · intro _
            exact .inr ⟨vid, parent, rfl, rfl, by omega, by omega, by simpa using hsafe⟩
          · intro _
            exact ⟨_, rfl⟩

theorem vlanBinding_isSome {vlan : Option VlanBinding}
    (h : vlanBinding sha256 policy = .ok vlan) : vlan.isSome = policy.vlanId.isSome := by
  unfold vlanBinding at h
  split at h
  · rename_i hvid _
    cases h
    rw [hvid]
    rfl
  · rename_i hvid _
    split at h
    · cases h
    · split at h
      · cases h
      · cases h
        rw [hvid]
        rfl
  · cases h

end NixNas.Network
