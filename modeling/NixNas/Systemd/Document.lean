import NixNas.Lib.Journal
import NixNas.Network.Policy

/-!
# Compiled documents (`services/nas_v2_spec.py`)

What the systemd projection reads of a compiled document.
-/

open Dictionary

namespace NixNas.Systemd

open Network (RuntimeType WorkloadKind Policy Listener Route)
open Caddy (isSchemaId)

inductive Condition where
  | started | ready | completed
  deriving DecidableEq, Repr

structure Dependency where
  service : Text
  condition : Condition
  deriving DecidableEq, Repr

inductive Activation where
  | persistent | onDemand
  deriving DecidableEq, Repr

/-- The limits of `resources`; a number is kept as it is printed. -/
structure Limits where
  cpuQuotaPercent : Option Text
  memoryHighBytes : Option Text
  memoryMaxBytes : Option Text
  pidsMax : Option Text
  deriving DecidableEq, Repr

structure Tmpfs where
  path : Text
  sizeBytes : Option Text
  deriving DecidableEq, Repr

inductive SandboxMode where
  | inherit | strict
  deriving DecidableEq, Repr

structure Sandbox where
  mode : SandboxMode
  readOnlyRoot : Bool
  noNewPrivileges : Bool
  writablePaths : List Text
  tmpfs : List Tmpfs
  addCapabilities : List Text
  dropCapabilities : List Text
  deriving DecidableEq, Repr

inductive Access where
  | read | write
  deriving DecidableEq, Repr

structure StorageAttachment where
  resource : Text
  mountPath : Text
  access : Access
  deriving DecidableEq, Repr

inductive CredentialUse where
  | file | environmentFile | nativeReference
  deriving DecidableEq, Repr

structure CredentialAttachment where
  credential : Text
  use : CredentialUse
  mountPath : Option Text
  deriving DecidableEq, Repr

inductive AcceleratorMode where
  | shared | passthrough
  deriving DecidableEq, Repr

structure Accelerator where
  mode : AcceleratorMode
  device : Option Text
  deriving DecidableEq, Repr

/-- `runtime.unit` is read of a systemd runtime only, `dynamicIdentity` of `exec` and `python`, and
`activation` of a daemon. -/
structure Service extends Network.Service where
  unit : Text
  dynamicIdentity : Bool
  activation : Activation
  schedules : Nat
  readiness : Bool
  dependencies : List Dependency
  limits : Limits
  accelerators : List Accelerator
  sandbox : Sandbox
  storage : List StorageAttachment
  credentials : List CredentialAttachment

structure Credential where
  path : Text
  required : Bool
  deriving DecidableEq, Repr

structure Effective where
  networkProfiles : Dict Text Policy
  /-- The paths of `storageResources`. -/
  storageResources : Dict Text Text
  credentials : Dict Text Credential
  services : Dict Text Service
  identifiers : ∀ id ∈ services.keys, isSchemaId id = true

def Effective.network (effective : Effective) : Network.Effective where
  networkProfiles := effective.networkProfiles
  services := mapValues (fun _ service ↦ service.toService) effective.services
  identifiers := by
    rw [keys_mapValues]
    exact effective.identifiers

/-- `[A-Za-z0-9_.@:-]`. -/
def unitChar (c : Char) : Bool := c.isAlphanum || ['_', '.', '@', ':', '-'].contains c

/-- `SYSTEMD_UNIT_RE`. -/
def isSystemdUnit (unit : Text) : Bool :=
  [".service".toList, ".timer".toList, ".target".toList, ".path".toList, ".socket".toList,
    ".mount".toList].any fun suffix ↦
    match unit.dropSuffix? suffix with
    | some stem => 1 ≤ stem.length && stem.length ≤ 255 && stem.all unitChar
    | none => false

/-- The `ownerUnit` of `build_effective`. -/
def derivedOwner (id : Text) (service : Service) : Text :=
  match service.runtime with
  | .systemd => service.unit
  | .compose => "nas-v2-".toList ++ id ++ ".target".toList
  | _ => "nas-v2-".toList ++ id ++ ".service".toList

def isOnDemand (service : Service) : Bool :=
  service.managed && service.kind = .daemon && service.activation = .onDemand

/-- What `_validate_runtime_paths` checks of a systemd runtime. -/
def UnitsValid (effective : Effective) : Prop :=
  ∀ entry ∈ items effective.services, entry.2.runtime = .systemd →
    isSystemdUnit entry.2.unit = true

end NixNas.Systemd
