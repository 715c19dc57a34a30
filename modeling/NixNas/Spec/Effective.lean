import NixNas.Spec.Dictionaries

/-!
# The effective document (`compile_document` of `services/nas_v2_spec.py`)

The schema validator is a parameter.  Of `semantic_validate` the rules about workloads and
accelerators are kept; the other rules are a parameter that runs after them.
-/

open Fallible

namespace NixNas.Spec

variable {F : Type}

/-- `object.get(key) == name`. -/
def keyIs (key name : String) (o : Object F) : Bool := (find key.toList o).any (isText · name)

/-- Python's truth of a value; a float is true here, and no rule asks one. -/
def truthy : Plain F → Bool
  | .scalar (.string t) => t ≠ []
  | .scalar (.integer n) => n ≠ 0
  | .scalar (.boolean b) => b
  | .scalar .null => false
  | .scalar _ => true
  | .array items => !items.isEmpty
  | .object o => !o.isEmpty

/-- `object[key]` where it has to be an array. -/
def arrayItem (key : String) (o : Object F) : Except Malformed (List (Plain F)) := do
  match ← getItem key.toList o with
  | .array items => .ok items
  | _ => .error .typeError

/-- The entry that the source unpacks as an object. -/
def asEntry : Plain F → Except Malformed (Object F)
  | .object o => .ok o
  | _ => .error .typeError

def servicePath (serviceId : Text) (fields : List PathPart) : Text :=
  jsonPath (.key "services".toList :: .key serviceId :: fields)

def refuse (message : String) (path : Text) (code : String) : Except SpecError Unit :=
  .error ⟨message.toList, path, code.toList⟩

def checkWorkload (serviceId : Text) (service : Object F) : Except SpecError Unit :=
  let workload := asObject (find "workload".toList service)
  let path fields := servicePath serviceId (.key "workload".toList :: fields)
  if keyIs "kind" "daemon" workload then
    if keyIs "activation" "on-demand" workload ∧ ¬ Has "idleSeconds".toList workload then
      refuse "On-demand daemons require idleSeconds" (path [.key "idleSeconds".toList])
        "workload-lifecycle"
    else if (find "schedules".toList workload).any truthy then
      refuse "Daemon workloads cannot declare schedules" (path [.key "schedules".toList])
        "workload-lifecycle"
    else .ok ()
  else if keyIs "kind" "job" workload then
    if Has "activation".toList workload ∨ Has "idleSeconds".toList workload then
      refuse "Job workloads cannot declare daemon activation/idle fields" (path [])
        "workload-lifecycle"
    else .ok ()
  else if keyIs "kind" "session" workload then
    if Has "activation".toList workload ∨ Has "schedules".toList workload ∨
        Has "idleSeconds".toList workload then
      refuse "Session workloads cannot declare daemon/job lifecycle fields" (path [])
        "workload-lifecycle"
    else if keyIs "type" "oci" (asObject (find "runtime".toList service)) then .ok ()
    else refuse "Session workloads require direct OCI runtime"
      (servicePath serviceId [.key "runtime".toList, .key "type".toList]) "runtime-session"
  else .ok ()

/-- `accelerator.get("device", "").startswith("pci:")`. -/
def isPciDevice (accelerator : Object F) : Bool :=
  match find "device".toList accelerator with
  | some (.scalar (.string device)) => "pci:".toList.isPrefixOf device
  | _ => false

def checkAccelerator (serviceId : Text) (runtime : Object F) (index : Nat)
    (accelerator : Object F) : Except SpecError Unit :=
  let path fields := servicePath serviceId
    (.key "resources".toList :: .key "accelerators".toList :: .index index :: fields)
  if keyIs "type" "vm" runtime then
    if keyIs "mode" "passthrough" accelerator && isPciDevice accelerator then .ok ()
    else refuse "VM GPU access requires passthrough mode and an explicit pci: selector" (path [])
      "gpu-passthrough"
  else if keyIs "type" "compose" runtime && !(find "target".toList accelerator).any truthy then
    refuse "Compose accelerator requests require an explicit target service"
      (path [.key "target".toList]) "compose-target"
  else if keyIs "mode" "passthrough" accelerator then
    refuse "GPU passthrough is currently valid only for VM runtimes" (path [.key "mode".toList])
      "gpu-mode"
  else .ok ()

def checkAccelerators (serviceId : Text) (runtime : Object F) :
    Nat → List (Plain F) → Except SpecError Unit
  | _, [] => .ok ()
  | index, accelerator :: rest => do
    checkAccelerator serviceId runtime index (asObject (some accelerator))
    checkAccelerators serviceId runtime (index + 1) rest

def asArray : Option (Plain F) → List (Plain F)
  | some (.array items) => items
  | _ => []

/-- `service["resources"]["accelerators"]`. -/
def accelerators (service : Object F) : List (Plain F) :=
  asArray (find "accelerators".toList (asObject (find "resources".toList service)))

def checkService (serviceId : Text) (service : Object F) : Except SpecError Unit := do
  checkWorkload serviceId service
  checkAccelerators serviceId (asObject (find "runtime".toList service)) 0 (accelerators service)

def semanticValidate (otherRules : Object F → Except SpecError Unit) (document : Object F) :
    Except SpecError Unit := do
  (asObject (find "services".toList document)).forM fun entry ↦
    checkService entry.1 (asObject (some entry.2))
  otherRules document

def joinText (parts : List Text) : Plain F := .scalar (.string parts.flatten)

def serviceCapabilities (serviceId : Text) (service : Object F) : Except Malformed (Object F) := do
  let name capability := joinText ["application.".toList, serviceId, ".".toList, capability]
  let authorization ← objectItem "authorization" service
  let declared ← arrayItem "capabilities" authorization
  declared.foldlM (fun capabilities capability ↦ do
    let capability ← asEntry capability
    match ← getItem "id".toList capability with
    | .scalar (.string id) => .ok (setItem capabilities id (name id))
    | _ => .error .typeError) [("access".toList, name "access".toList)]

def runtimeOwner (serviceId : Text) (runtime : Object F) : Except Malformed (Plain F) := do
  let runtimeType ← getItem "type".toList runtime
  if isText runtimeType "systemd" then getItem "unit".toList runtime
  else if isText runtimeType "compose" then
    .ok (joinText ["nas-v2-".toList, serviceId, ".target".toList])
  else .ok (joinText ["nas-v2-".toList, serviceId, ".service".toList])

def derivedRuntime (serviceId : Text) (service : Object F) : Except Malformed (Object F) := do
  let runtime ← objectItem "runtime" service
  let runtimeType ← getItem "type".toList runtime
  let ownerUnit ← runtimeOwner serviceId runtime
  let managed ← getItem "managed".toList service
  .ok [("type".toList, runtimeType), ("ownerUnit".toList, ownerUnit), ("managed".toList, managed)]

def derivedRoute (serviceId : Text) (capabilities : Object F) (onDemand : Bool) (routeId : Text)
    (route : Object F) : Except Malformed (Plain F) := do
  let auth ← objectItem "auth" route
  let mode ← getItem "mode".toList auth
  let required ←
    if isText mode "identity" then do
      match ← getItem "capability".toList auth with
      | .scalar (.string capability) => getItem capability capabilities
      | _ => .error .typeError
    else .ok (.scalar .null)
  let target ← getItem "target".toList route
  let exposure ← getItem "exposure".toList route
  let proxy ← getItem "proxy".toList route
  let portal ← getItem "portal".toList route
  .ok (.object [("service".toList, .scalar (.string serviceId)),
    ("route".toList, .scalar (.string routeId)), ("authMode".toList, mode),
    ("requiredCapability".toList, required), ("onDemandWake".toList, boolean onDemand),
    ("target".toList, target), ("exposure".toList, exposure), ("proxy".toList, proxy),
    ("portal".toList, portal)])

def derivedRoutes (serviceId : Text) (service : Object F) : Except Malformed (List (Plain F)) := do
  let capabilities ← serviceCapabilities serviceId service
  let workload ← objectItem "workload" service
  let onDemand := keyIs "kind" "daemon" workload && keyIs "activation" "on-demand" workload
  let routes ← objectItem "routes" service
  routes.mapM fun entry ↦ do
    let route ← asEntry entry.2
    derivedRoute serviceId capabilities onDemand entry.1 route

def backupResources (resources : Object F) : Except Malformed (List Text) := do
  let ids ← resources.filterMapM fun entry ↦ do
    let resource ← asEntry entry.2
    let backup ← objectItem "backup" resource
    let enabled ← getItem "enabled".toList backup
    if truthy enabled then do
      let stateClass ← getItem "stateClass".toList resource
      .ok (if isText stateClass "authoritative" then some entry.1 else none)
    else .ok none
  .ok (ids.mergeSort (fun a b ↦ decide (a ≤ b)))

def deriveServices {α : Type} (derive : Text → Object F → Except Malformed α) (services : Object F) :
    Except Malformed (List (Text × α)) :=
  services.mapM fun entry ↦ do
    let service ← asEntry entry.2
    let derived ← derive entry.1 service
    .ok (entry.1, derived)

def objects (entries : List (Text × Object F)) : Object F := entries.map fun e ↦ (e.1, .object e.2)

def buildEffective (document : Object F) : Except Malformed (Object F) := do
  let services ← objectItem "services" document
  let authorization ← deriveServices (fun serviceId service ↦ do
    let capabilities ← serviceCapabilities serviceId service
    .ok [("capabilities".toList, .object capabilities)]) services
  let runtime ← deriveServices derivedRuntime services
  let routes ← deriveServices derivedRoutes services
  let resources ← objectItem "storageResources" document
  let ids ← backupResources resources
  .ok (setItem document "derived".toList (.object [
    ("authorization".toList, .object (objects authorization)),
    ("runtime".toList, .object (objects runtime)),
    ("routes".toList, .array (routes.flatMap Prod.snd)),
    ("backupResources".toList, .array (ids.map fun id ↦ .scalar (.string id)))]))

/-- A pass that raised an exception of another class. -/
def Malformed.asError : Malformed → SpecError
  | .keyError key => ⟨"KeyError".toList, key, []⟩
  | .attributeError => ⟨"AttributeError".toList, [], []⟩
  | .typeError => ⟨"TypeError".toList, [], []⟩

def compileDocument (validateSchema otherRules : Object F → Except SpecError Unit)
    (document : Object F) : Except SpecError (Object F) := do
  validateSchema document
  let normalized ← (normalize document).mapError Malformed.asError
  validateSchema normalized
  semanticValidate otherRules normalized
  (buildEffective normalized).mapError Malformed.asError

end NixNas.Spec
