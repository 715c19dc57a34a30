import NixNas.Network.Policy
import NixNas.Session.Storage
import NixNas.Spec.Effective

/-!
# Descriptors and fingerprints of sessions (`generate_projection` of `services/nas_v2_session.py`)

A descriptor says how an instance of a session is launched.  The fingerprint of the session's target
is the digest of what the source picks by hand.  A value that the schema does not allow is malformed
here where the source would print it.
-/

open Fallible NixNas.Spec NixNas.Authentik

namespace NixNas.Session

variable {F : Type}

/-! ## The network of a service (`services/nas_v2_network.py`) -/

/-- `PodmanNetworkProjectionError`. -/
inductive ReferenceError where
  | profileMissing
  | vlanTogether
  | vlanId
  | vlanParent
  | noneEndpoints (serviceId : Text)
  | noneExceptions (serviceId : Text)
  | hostRestrictions (serviceId : Text)
  | unsupportedMode
  | isolatedRuntime (serviceId : Text)
  | sessionRuntime (serviceId : Text)
  | sessionEndpoints (serviceId : Text)
  | firewalld (serviceId : Text)
  deriving DecidableEq, Repr

/-- `bool(object.get(key))`. -/
def truthyAt (key : String) (o : Object F) : Bool := (find key.toList o).any truthy

/-- `object.get(key, default) == name`. -/
def defaultIs (key default name : String) (o : Object F) : Bool :=
  match find key.toList o with
  | some value => isText value name
  | none => default = name

/-- `object.get(key)`, where `None` stands for nothing. -/
def presentAt (key : String) (o : Object F) : Option (Plain F) :=
  match find key.toList o with
  | some (.scalar .null) => none
  | value => value

def hostPolicy : Object F :=
  [("mode".toList, text "host"), ("outboundDefault".toList, text "allow"),
    ("lanAccess".toList, boolean false), ("allowedHostPorts".toList, .array []),
    ("allowedEgress".toList, .array [])]

def networkPolicy (effective service : Object F) : Except ReferenceError (Object F) :=
  match find "networkProfile".toList service with
  | some (.scalar (.string name)) =>
    match find name (asObject (find "networkProfiles".toList effective)) with
    | some (.object policy) => .ok policy
    | _ => .error .profileMissing
  | some _ => .error .profileMissing
  | none => .ok ((objectAt "network" service).getD hostPolicy)

def vlanBinding (sha256 : Text → Text) (policy : Object F) :
    Except ReferenceError (Option Network.VlanBinding) :=
  match presentAt "vlanId" policy, presentAt "vlanParent" policy with
  | none, none => .ok none
  | some (.scalar (.integer vid)), some parent =>
    if vid < 1 ∨ 4094 < vid then .error .vlanId
    else match parent with
      | .scalar (.string parent) =>
        if Network.isInterface parent then .ok (some (Network.bindVlan sha256 vid.toNat parent))
        else .error .vlanParent
      | _ => .error .vlanParent
  | some _, some _ => .error .vlanId
  | _, _ => .error .vlanTogether

/-- `service.get("workload", {}).get("kind") == "session"`. -/
def isSessionService (service : Object F) : Bool :=
  keyIs "kind" "session" (asObject (find "workload".toList service))

def hasListeners (service : Object F) : Bool := !(asObject (find "listeners".toList service)).isEmpty

def needsIsolatedFirewalld (service policy : Object F) : Bool :=
  !defaultIs "outboundDefault" "allow" "deny" policy || truthyAt "lanAccess" policy ||
    truthyAt "allowedHostPorts" policy || truthyAt "allowedEgress" policy ||
    truthyAt "routes" service || hasListeners service

/-- `runtime.get("type") == name`, where the runtime is an object. -/
def runtimeIs (name : String) (service : Object F) : Bool :=
  keyIs "type" name (asObject (find "runtime".toList service))

def isolatedSupported (sha256 : Text → Text) (serviceId : Text) (service policy : Object F)
    (firewalldEnabled : Bool) : Except ReferenceError Unit := do
  let _ ← vlanBinding sha256 policy
  if !(["oci", "quadlet", "compose"].any (runtimeIs · service)) then .error (.isolatedRuntime serviceId)
  else if isSessionService service && !runtimeIs "oci" service then .error (.sessionRuntime serviceId)
  else if isSessionService service && (truthyAt "routes" service || truthyAt "listeners" service) then
    .error (.sessionEndpoints serviceId)
  else if needsIsolatedFirewalld service policy && !firewalldEnabled then .error (.firewalld serviceId)
  else .ok ()

def quadletNetworkReference (sha256 : Text → Text) (effective : Object F) (serviceId : Text)
    (service : Object F) (firewalldEnabled : Bool) : Except ReferenceError Text := do
  let policy ← networkPolicy effective service
  let vlan ← vlanBinding sha256 policy
  if defaultIs "mode" "host" "none" policy then
    if truthyAt "listeners" service || truthyAt "routes" service then .error (.noneEndpoints serviceId)
    else if truthyAt "allowedHostPorts" policy || truthyAt "allowedEgress" policy ||
        truthyAt "lanAccess" policy || vlan.isSome then .error (.noneExceptions serviceId)
    else .ok "none".toList
  else if defaultIs "mode" "host" "host" policy then
    if !defaultIs "outboundDefault" "allow" "allow" policy || truthyAt "lanAccess" policy ||
        truthyAt "allowedHostPorts" policy || truthyAt "allowedEgress" policy || vlan.isSome then
      .error (.hostRestrictions serviceId)
    else .ok "host".toList
  else if !defaultIs "mode" "host" "isolated" policy then .error .unsupportedMode
  else
    isolatedSupported sha256 serviceId service policy firewalldEnabled
    let front := if isSessionService service then "nas-v2-snet" else "nas-v2-net"
    .ok (front.toList ++ '-' :: serviceId ++ ".network".toList)

def podmanNetworkName (serviceId : Text) (service : Object F) : Text :=
  if isSessionService service then "nas-v2-session-".toList ++ serviceId
  else "nas-v2-".toList ++ serviceId

/-! ## Fields -/

/-- `SessionProjectionError`, and what else the source raises. -/
inductive ProjectionError where
  | malformed (error : Malformed)
  | network (error : ReferenceError)
  | notOci (serviceId : Text)
  | endpoints (serviceId : Text)
  | readiness (serviceId : Text)
  | schedules (serviceId : Text)
  | binary
  | path
  | controlCharacter
  | missingStorage (name : Text)
  | unsupportedScope
  | missingTemplate (scope : Scope)
  | templateToken (scope : Scope)
  | templatePlaceholder (scope : Scope)
  | templateOutside
  | missingCredential (name : Text)
  | optionalCredential
  | mountPath
  | nativeReference
  | accelerators
  | unresolvedAccelerator
  | cdiTarget
  | hostDevice
  | acceleratorTarget
  | writablePaths
  | owner (serviceId : Text)
  | sessionDependency (serviceId target : Text)
  | dependsOnSession (serviceId target : Text)
  deriving DecidableEq, Repr

/-- `object[key]`. -/
def field (key : String) (o : Object F) : Except ProjectionError (Plain F) :=
  match find key.toList o with
  | some value => .ok value
  | none => .error (.malformed (.keyError key.toList))

def objectField (key : String) (o : Object F) : Except ProjectionError (Object F) := do
  match ← field key o with
  | .object value => .ok value
  | _ => .error (.malformed .typeError)

def listField (key : String) (o : Object F) : Except ProjectionError (List (Plain F)) := do
  match ← field key o with
  | .array items => .ok items
  | _ => .error (.malformed .typeError)

def textValue : Plain F → Except ProjectionError Text
  | .scalar (.string value) => .ok value
  | _ => .error (.malformed .typeError)

def textField (key : String) (o : Object F) : Except ProjectionError Text := do
  textValue (← field key o)

def objectValue : Plain F → Except ProjectionError (Object F)
  | .object value => .ok value
  | _ => .error (.malformed .typeError)

structure Printing (F : Type) where
  float : FloatEq F
  /-- `str(value)`. -/
  str : Scalar F → Text
  /-- `format(value / 100, ".12g")`. -/
  cpus : Scalar F → Text

def Printing.text (printing : Printing F) : Plain F → Except ProjectionError Text
  | .scalar (.string value) => .ok value
  | .scalar value => .ok (printing.str value)
  | _ => .error (.malformed .typeError)

def Printing.cpuCount (printing : Printing F) : Plain F → Except ProjectionError Text
  | .scalar (.string _) => .error (.malformed .typeError)
  | .scalar value => .ok (printing.cpus value)
  | _ => .error (.malformed .typeError)

/-! ## Paths -/

def absoluteBinary (value : Text) : Except ProjectionError Text :=
  if (rootOf value).isEmpty || (Accelerator.pathParts value).contains "..".toList then .error .binary
  else .ok value

def safeVolumePath (value : Text) : Except ProjectionError Text :=
  if (rootOf value).isEmpty || (Accelerator.pathParts value).contains "..".toList ||
      value.contains ':' then .error .path
  else if value.any fun c ↦ c = '\x00' || c = '\r' || c = '\n' then .error .controlCharacter
  else .ok value

def templateBeneathRoot (root template : Text) (scope : Scope) : Except ProjectionError Unit := do
  let root ← safeVolumePath root
  let probed := Template.replace scope.token (scope.token.tail.dropLast ++ "-probe".toList) template
  if ¬ scope.token <:+: template then .error (.templateToken scope)
  else if hasBrace probed then .error (.templatePlaceholder scope)
  else
    let probe ← safeVolumePath probed
    if Beneath (purePath probe) (purePath root) then .ok () else .error .templateOutside

/-! ## The parts of a descriptor -/

def argsOfReference (serviceId : Text) (service : Object F) (reference : Text) :
    List Text × Option Text :=
  if reference = "host".toList then (["--network=host".toList], none)
  else if reference = "none".toList then (["--network=none".toList], none)
  else (["--network=".toList ++ podmanNetworkName serviceId service],
    some ((reference.dropSuffix? ".network".toList).getD reference ++ "-network.service".toList))

def networkArgs (sha256 : Text → Text) (effective : Object F) (serviceId : Text) (service : Object F) :
    Except ProjectionError (List Text × Option Text) := do
  let reference ← (quadletNetworkReference sha256 effective serviceId service true).mapError .network
  .ok (argsOfReference serviceId service reference)

/-- What an attachment makes of a storage resource. -/
inductive Mount where
  | volume (root destination : Text) (access : Access)
  | template (entry : VolumeTemplate)
  deriving DecidableEq, Repr

def resourceScope : Option (Plain F) → Except ProjectionError (Option Scope)
  | none => .ok none
  | some value =>
    if isText value "system" then .ok none
    else if isText value "instance" then .ok (some .inst)
    else if isText value "user" then .ok (some .user)
    else .error .unsupportedScope

def mountOf (attachment : Object F) (path template : Option Text) (scope : Option (Plain F)) :
    Except ProjectionError Mount := do
  let name ← textField "resource" attachment
  match path with
  | none => .error (.missingStorage name)
  | some path => do
    let root ← safeVolumePath path
    let destination ← safeVolumePath (← textField "mountPath" attachment)
    let access := if isText (← field "access" attachment) "read" then Access.ro else .rw
    match ← resourceScope scope with
    | none => .ok (.volume root destination access)
    | some scope =>
      match template with
      | none => .error (.missingTemplate scope)
      | some template => do
        templateBeneathRoot root template scope
        .ok (.template ⟨root, template, destination, access, scope⟩)

def resourceAt (resources : Object F) (name : Text) : Object F := asObject (find name resources)

/-- One turn of `_storage_projection`. -/
def storageMount (resources : Object F) (attachment : Plain F) : Except ProjectionError Mount := do
  let attachment ← objectValue attachment
  let name ← textField "resource" attachment
  let resource := resourceAt resources name
  mountOf attachment (textAt "path" resource) (textAt "pathTemplate" resource)
    (find "scope".toList resource)

def Access.word : Access → Text
  | .ro => "ro".toList
  | .rw => "rw".toList

def Mount.args : Mount → List Text
  | .volume root destination access =>
    ["--volume".toList, root ++ ':' :: destination ++ ':' :: access.word]
  | .template _ => []

def Mount.entry : Mount → Option VolumeTemplate
  | .volume _ _ _ => none
  | .template entry => some entry

/-- `_storage_projection`: the mounts; the source returns their arguments, their templates and
whether one is of the user. -/
def storageProjection (effective service : Object F) : Except ProjectionError (List Mount) := do
  let attachments ← listField "storage" service
  attachments.mapM (storageMount (asObject (find "storageResources".toList effective)))

def requiresUser (mounts : List Mount) : Bool :=
  (mounts.filterMap Mount.entry).any fun entry ↦ entry.scope = .user

def credentialArgsOf (attachment : Object F) (path : Option Text) (required : Option (Plain F)) :
    Except ProjectionError (List Text) := do
  let name ← textField "credential" attachment
  match path with
  | none => .error (.missingCredential name)
  | some path =>
    if !required.all fun value ↦ (match value with
        | .scalar (.boolean b) => b
        | _ => false) then .error .optionalCredential
    else do
      let source ← safeVolumePath path
      let use ← field "use" attachment
      if isText use "environment-file" then .ok ["--env-file".toList, source]
      else if isText use "file" then
        match textAt "mountPath" attachment with
        | none => .error .mountPath
        | some mount => do
          let destination ← safeVolumePath mount
          .ok ["--volume".toList, source ++ ':' :: destination ++ ":ro".toList]
      else .error .nativeReference

/-- One turn of `_credential_args`. -/
def credentialMount (credentials : Object F) (attachment : Plain F) :
    Except ProjectionError (List Text) := do
  let attachment ← objectValue attachment
  let name ← textField "credential" attachment
  let credential := resourceAt credentials name
  credentialArgsOf attachment (textAt "path" credential) (find "required".toList credential)

def credentialArgs (effective service : Object F) : Except ProjectionError (List Text) := do
  let attachments ← listField "credentials" service
  let args ← attachments.mapM (credentialMount (asObject (find "credentials".toList effective)))
  .ok args.flatten

def optionAt (key option : String) (print : Plain F → Except ProjectionError Text) (suffix : String)
    (resources : Object F) : Except ProjectionError (List Text) :=
  match find key.toList resources with
  | none => .ok []
  | some value => (print value).map fun t ↦ [option.toList, t ++ suffix.toList]

/-- One accelerator of `_resource_args`. -/
def acceleratorArgs (printing : Printing F) (accelerator : Plain F) :
    Except ProjectionError (List Text) := do
  let accelerator ← objectValue accelerator
  let mode ← field "mode" accelerator
  if !isText mode "shared" ||
      !(find "quantity".toList accelerator).all (eq printing.float · (number 1)) then
    .error .accelerators
  else
    match textAt "device" accelerator, presentAt "target" accelerator with
    | none, _ => .error .unresolvedAccelerator
    | some device, target =>
      if Accelerator.isCdiSelector device then
        if target.isSome then .error .cdiTarget else .ok ["--device".toList, device]
      else if !"/dev/".toList.isPrefixOf device then .error .hostDevice
      else do
        let source ← safeVolumePath device
        match target with
        | none => .ok ["--device".toList, source ++ ':' :: source ++ ":rw".toList]
        | some (.scalar (.string target)) => do
          let destination ← safeVolumePath target
          .ok ["--device".toList, source ++ ':' :: destination ++ ":rw".toList]
        | some _ => .error .acceleratorTarget

/-- `_resource_args`, of the resources of a service. -/
def resourceArgs (printing : Printing F) (resources : Object F) : Except ProjectionError (List Text) := do
  let cpus ← optionAt "cpuQuotaPercent" "--cpus" printing.cpuCount "" resources
  let reservation ← optionAt "memoryHighBytes" "--memory-reservation" printing.text "b" resources
  let memory ← optionAt "memoryMaxBytes" "--memory" printing.text "b" resources
  let pids ← optionAt "pidsMax" "--pids-limit" printing.text "" resources
  let accelerators ← listField "accelerators" resources
  let devices ← accelerators.mapM (acceleratorArgs printing)
  .ok (cpus ++ reservation ++ memory ++ pids ++ devices.flatten)

def flagArgs (key : String) (args : List Text) (sandbox : Object F) :
    Except ProjectionError (List Text) := do
  if truthy (← field key sandbox) then .ok args else .ok []

def capabilityArgs (key option : String) (sandbox : Object F) : Except ProjectionError (List Text) := do
  let capabilities ← listField key sandbox
  let names ← capabilities.mapM textValue
  .ok (names.flatMap fun name ↦ [option.toList, name])

/-- One mount of `tmpfs`. -/
def tmpfsArgs (printing : Printing F) (mount : Plain F) : Except ProjectionError (List Text) := do
  let mount ← objectValue mount
  let path ← safeVolumePath (← textField "path" mount)
  match find "sizeBytes".toList mount with
  | none => .ok ["--tmpfs".toList, path]
  | some size => (printing.text size).map fun t ↦
    ["--tmpfs".toList, path ++ ":size=".toList ++ t]

/-- `_sandbox_args`, of the sandbox of a service. -/
def sandboxArgs (printing : Printing F) (sandbox : Object F) : Except ProjectionError (List Text) := do
  let mode ← field "mode" sandbox
  if isText mode "inherit" then .ok []
  else do
    let writable ← field "writablePaths" sandbox
    if truthy writable then .error .writablePaths
    else do
      let root ← flagArgs "readOnlyRoot" ["--read-only".toList] sandbox
      let privileges ← flagArgs "noNewPrivileges"
        ["--security-opt".toList, "no-new-privileges".toList] sandbox
      let added ← capabilityArgs "addCapabilities" "--cap-add" sandbox
      let dropped ← capabilityArgs "dropCapabilities" "--cap-drop" sandbox
      let mounts ← listField "tmpfs" sandbox
      let tmpfs ← mounts.mapM (tmpfsArgs printing)
      .ok (root ++ privileges ++ added ++ dropped ++ tmpfs.flatten)

/-! ## Dependencies -/

def ownerUnit (effective : Object F) (serviceId : Text) : Except ProjectionError Text := do
  let derived ← objectField "derived" effective
  let runtime ← objectField "runtime" derived
  match find serviceId runtime with
  | some (.object entry) => do
    match ← field "ownerUnit" entry with
    | .scalar (.string unit) =>
      if ".service".toList.isSuffixOf unit || ".target".toList.isSuffixOf unit then .ok unit
      else .error (.owner serviceId)
    | _ => .error (.owner serviceId)
  | some _ => .error (.malformed .typeError)
  | none => .error (.malformed (.keyError serviceId))

structure Dependency where
  target : Text
  owner : Text
  ready : Bool
  deriving DecidableEq, Repr

def readyUnit (serviceId : Text) : Text := "nas-v2-ready-".toList ++ serviceId ++ ".service".toList

/-- `effective["services"][target]["workload"]["kind"] == "session"`. -/
def targetIsSession (effective : Object F) (target : Text) : Except ProjectionError Bool := do
  let services ← objectField "services" effective
  match find target services with
  | some (.object service) => do
    let workload ← objectField "workload" service
    let kind ← field "kind" workload
    .ok (isText kind "session")
  | some _ => .error (.malformed .typeError)
  | none => .error (.malformed (.keyError target))

/-- One turn of `_dependency_units`. -/
def dependencyOf (effective : Object F) (serviceId : Text) (dependency : Plain F) :
    Except ProjectionError Dependency := do
  let dependency ← objectValue dependency
  let target ← textField "service" dependency
  if ← targetIsSession effective target then .error (.sessionDependency serviceId target)
  else do
    let owner ← ownerUnit effective target
    let condition ← field "condition" dependency
    .ok ⟨target, owner, isText condition "ready"⟩

/-- The dependencies of `_dependency_units`. -/
def dependencies (effective : Object F) (serviceId : Text) (service : Object F) :
    Except ProjectionError (List Dependency) := do
  let declared ← listField "dependencies" service
  declared.mapM (dependencyOf effective serviceId)

def Dependency.requires (d : Dependency) : List Text :=
  d.owner :: if d.ready then [readyUnit d.target] else []

def Dependency.after (d : Dependency) : List Text := [if d.ready then readyUnit d.target else d.owner]

/-- `sorted(set(units))`. -/
def sortedUnits (units : List Text) : List Text := units.dedup.insertionSort fun a b ↦ a ≤ b

/-! ## Descriptors -/

def sessionTarget (serviceId : Text) : Text := "nas-v2-session-".toList ++ serviceId ++ ".target".toList

structure SessionDescriptor (F : Type) where
  serviceId : Text
  podman : Text
  systemctl : Text
  systemdRun : Text
  targetUnit : Text
  requires : List Text
  after : List Text
  requiresUser : Bool
  image : Plain F
  command : Plain F
  runArgs : List Text
  volumeTemplates : List VolumeTemplate

structure Tools where
  systemctl : Text
  podman : Text

/-- `str(PurePosixPath(systemctl).with_name("systemd-run"))`. -/
def systemdRunOf (systemctl : Text) : Except ProjectionError Text :=
  let parts := Accelerator.pathParts systemctl
  if parts.isEmpty then .error .binary
  else .ok (rootOf systemctl ++ ['/'].intercalate (parts.dropLast ++ ["systemd-run".toList]))

/-- The tests at the front of `_descriptor`. -/
def checkSession (serviceId : Text) (service : Object F) : Except ProjectionError Unit :=
  if !runtimeIs "oci" service then .error (.notOci serviceId)
  else if truthyAt "routes" service || truthyAt "listeners" service then .error (.endpoints serviceId)
  else if Has "readiness".toList service then .error (.readiness serviceId)
  else if truthyAt "schedules" (asObject (find "workload".toList service)) then
    .error (.schedules serviceId)
  else .ok ()

def descriptor (printing : Printing F) (sha256 : Text → Text) (tools : Tools) (effective : Object F)
    (serviceId : Text) (service : Object F) : Except ProjectionError (SessionDescriptor F) := do
  let runtime ← objectField "runtime" service
  checkSession serviceId service
  let podman ← absoluteBinary tools.podman
  let systemctl ← absoluteBinary tools.systemctl
  let systemdRun ← systemdRunOf systemctl
  let systemdRun ← absoluteBinary systemdRun
  let network ← networkArgs sha256 effective serviceId service
  let mounts ← storageProjection effective service
  let depends ← dependencies effective serviceId service
  let target := sessionTarget serviceId
  let image ← field "image" runtime
  let command ← field "command" runtime
  let pull ← field "pull" runtime
  let pull ← printing.text pull
  let credentials ← credentialArgs effective service
  let resources ← objectField "resources" service
  let resources ← resourceArgs printing resources
  let sandbox ← objectField "sandbox" service
  let sandbox ← sandboxArgs printing sandbox
  .ok { serviceId := serviceId
        podman := podman
        systemctl := systemctl
        systemdRun := systemdRun
        targetUnit := target
        requires := sortedUnits (depends.flatMap Dependency.requires ++ target :: network.2.toList)
        after := sortedUnits (depends.flatMap Dependency.after ++ target :: network.2.toList)
        requiresUser := requiresUser mounts
        image := image
        command := command
        runArgs := ("--pull=".toList ++ pull) :: network.1 ++ mounts.flatMap Mount.args ++
          credentials ++ resources ++ sandbox
        volumeTemplates := mounts.filterMap Mount.entry }

def texts (values : List Text) : Plain F := .array (values.map fun value ↦ .scalar (.string value))

def Scope.word : Scope → Text
  | .inst => "instance".toList
  | .user => "user".toList

def VolumeTemplate.json (entry : VolumeTemplate) : Plain F :=
  .object [("root".toList, .scalar (.string entry.root)),
    ("sourceTemplate".toList, .scalar (.string entry.sourceTemplate)),
    ("target".toList, .scalar (.string entry.target)),
    ("access".toList, .scalar (.string entry.access.word)),
    ("scope".toList, .scalar (.string entry.scope.word))]

def SessionDescriptor.json (d : SessionDescriptor F) : Object F :=
  [("schemaVersion".toList, number 3), ("serviceId".toList, .scalar (.string d.serviceId)),
    ("podman".toList, .scalar (.string d.podman)), ("systemctl".toList, .scalar (.string d.systemctl)),
    ("systemdRun".toList, .scalar (.string d.systemdRun)),
    ("targetUnit".toList, .scalar (.string d.targetUnit)), ("requires".toList, texts d.requires),
    ("after".toList, texts d.after), ("requiresUser".toList, boolean d.requiresUser),
    ("image".toList, d.image), ("command".toList, d.command), ("runArgs".toList, texts d.runArgs),
    ("volumeTemplates".toList, .array (d.volumeTemplates.map VolumeTemplate.json))]

/-! ## Fingerprints -/

def resolvedBinding (resources : Object F) (key : String) (attachment : Plain F) : Plain F :=
  let name := find key.toList (asObject (some attachment))
  let resource := match name with
    | some (.scalar (.string name)) => resourceAt resources name
    | _ => []
  let get (key : String) := (find key.toList resource).getD (.scalar .null)
  .object [("name".toList, name.getD (.scalar .null)), ("path".toList, get "path"),
    ("pathTemplate".toList, get "pathTemplate"), ("scope".toList, get "scope")]

/-- The bindings of `service.get(key) or []`. -/
def bindings (resources : Object F) (key field : String) (service : Object F) : Plain F :=
  .array ((asArray (find key.toList service)).map (resolvedBinding resources field))

def fingerprintInput (sha256 : Text → Text) (effective : Object F) (serviceId : Text)
    (service : Object F) (requiresUser : Bool) : Except ProjectionError (Object F) := do
  let runtime ← field "runtime" service
  let dependencies ← field "dependencies" service
  let resources ← field "resources" service
  let sandbox ← field "sandbox" service
  let storage ← field "storage" service
  let credentials ← field "credentials" service
  let get (key : String) := (find key.toList service).getD (.scalar .null)
  let reference := match quadletNetworkReference sha256 effective serviceId service true with
    | .ok reference => .scalar (.string reference)
    | .error _ => .scalar .null
  .ok [("runtime".toList, runtime), ("dependencies".toList, dependencies),
    ("resources".toList, resources), ("sandbox".toList, sandbox), ("storage".toList, storage),
    ("credentials".toList, credentials),
    ("storageBindings".toList, bindings (asObject (find "storageResources".toList effective))
      "storage" "resource" service),
    ("credentialBindings".toList, bindings (asObject (find "credentials".toList effective))
      "credentials" "credential" service),
    ("network".toList, get "network"), ("networkProfile".toList, get "networkProfile"),
    ("networkReference".toList, reference), ("requiresUser".toList, boolean requiresUser)]

/-- `_fingerprint`: the digest of the JSON text, which the stored value determines. -/
def fingerprint (digest : Plain F → Text) (input : Object F) : Text := digest (stored (.object input))

/-! ## The projection -/

/-- The descriptors by their services, and the fingerprints by their units. -/
structure SessionOutput (F : Type) where
  descriptors : List (Text × SessionDescriptor F)
  fingerprints : List (Text × Text)

def sessionIds (services : Object F) : List Text :=
  ((services.filter fun e ↦ isSessionService (asObject (some e.2))).map Prod.fst).insertionSort
    fun a b ↦ a ≤ b

def sessionRound (printing : Printing F) (sha256 : Text → Text) (digest : Plain F → Text)
    (tools : Tools) (effective services : Object F) (out : SessionOutput F) (serviceId : Text) :
    Except ProjectionError (SessionOutput F) := do
  let service := asObject (find serviceId services)
  let managed ← field "managed" service
  if !truthy managed then .ok out
  else do
    let enabled ← field "enabled" service
    if !truthy enabled then .ok out
    else do
      let d ← descriptor printing sha256 tools effective serviceId service
      let input ← fingerprintInput sha256 effective serviceId service d.requiresUser
      .ok { descriptors := setItem out.descriptors serviceId d
            fingerprints := setItem out.fingerprints (sessionTarget serviceId)
              (fingerprint digest input) }

/-- No other service depends on a session (`_filtered_effective`). -/
def checkFiltered (services : Object F) : Except ProjectionError Unit :=
  (services.filter fun e ↦ !isSessionService (asObject (some e.2))).forM fun e ↦ do
    let declared ← listField "dependencies" (asObject (some e.2))
    declared.forM fun dependency ↦ do
      let dependency ← objectValue dependency
      let target ← textField "service" dependency
      if target ∈ sessionIds services then .error (.dependsOnSession e.1 target) else .ok ()

/-- `generate_projection` behind the units of the other services, whose fingerprints are given. -/
def generateSessions (printing : Printing F) (sha256 : Text → Text) (digest : Plain F → Text)
    (tools : Tools) (base : List (Text × Text)) (effective : Object F) :
    Except ProjectionError (SessionOutput F) := do
  let services ← objectField "services" effective
  checkFiltered services
  (sessionIds services).foldlM (sessionRound printing sha256 digest tools effective services) ⟨[], base⟩

end NixNas.Session
