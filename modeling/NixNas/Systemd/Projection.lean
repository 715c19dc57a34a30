import NixNas.Network.Vlan
import NixNas.Reconcile.Model
import NixNas.Systemd.Dropin

/-!
# The systemd projection

`generate_projection` of `services/nas_v2_systemd_native.py` and of `services/nas_v2_session.py`,
and `augment_projection` of `services/nas_v2_podman_network.py`.  What is produced is kept with the
service and the role it is produced for.
-/

open Dictionary Fallible Journal

namespace NixNas.Systemd

open Network (RuntimeType WorkloadKind NetworkFile)
open Reconcile (Manifest)

inductive Role where
  | owner | execDescriptor | domain | domainDescriptor | dropin | quadlet
  | readiness | readinessDescriptor
  | socket (route : Text) | proxy (route : Text)
  | timer (index : Nat)
  | imported (name : Text)
  | sessionTarget | sessionDescriptor
  deriving DecidableEq, Repr

structure File where
  service : Text
  role : Role
  path : Text
  bytes : Text
  deriving DecidableEq, Repr

structure Link where
  service : Text
  role : Role
  target : Text
  source : Text
  deriving DecidableEq, Repr

structure Output where
  files : List File
  links : List Link
  quadletLinks : List Link
  owned : List Text
  start : List Text
  stop : List Text
  fingerprints : List (Text × Text)
  deriving DecidableEq, Repr

def Output.empty : Output := ⟨[], [], [], [], [], [], []⟩

def Output.append (a b : Output) : Output where
  files := a.files ++ b.files
  links := a.links ++ b.links
  quadletLinks := a.quadletLinks ++ b.quadletLinks
  owned := a.owned ++ b.owned
  start := a.start ++ b.start
  stop := a.stop ++ b.stop
  fingerprints := a.fingerprints ++ b.fingerprints

instance : EmptyCollection Output := ⟨.empty⟩

instance : Append Output := ⟨.append⟩

def Output.join (outputs : List Output) : Output := outputs.foldr (· ++ ·) ∅

/-- What `import_compose` returns. -/
structure Imported where
  files : List (Text × Text)
  entryUnits : List Text
  fingerprint : Text

/-- What the files and the fingerprints of a service contain, and the imports.  A renderer may
refuse a service. -/
structure Renderers where
  file : Text → Role → Except ProjectionError Text
  fingerprint : Text → Role → Text
  importCompose : Text → Except ProjectionError Imported
  sha256 : Text → Text

/-! ## Names -/

def safeId (field : String) (value : Text) : Except ProjectionError Text :=
  if !isIdentifier value then .error (.identifier field.toList) else .ok value

section

variable (sha256 : Text → Text)

/-- `/run/nas-control/activate/NAME.sock`. -/
def socketPath (name : Text) : Text := "/run/nas-control/activate/".toList ++ name ++ ".sock".toList

/-- `_route_name`; identifiers have one byte for each character. -/
def routeName (serviceId routeId : Text) : Except ProjectionError Text := do
  let service ← safeId "service" serviceId
  let route ← safeId "route" routeId
  let name := service ++ '-' :: route
  .ok (if service.contains '-' || route.contains '-' || 107 < (socketPath name).length then
    "h_".toList ++ sha256 (service ++ Char.ofNat 0 :: route)
  else name)

def unitBase (serviceId routeId : Text) : Except ProjectionError Text :=
  (routeName sha256 serviceId routeId).map fun name ↦ "nas-v2-activate-".toList ++ name

def socketUnit (serviceId routeId : Text) : Except ProjectionError Text :=
  (unitBase sha256 serviceId routeId).map fun base ↦ base ++ ".socket".toList

def proxyUnit (serviceId routeId : Text) : Except ProjectionError Text :=
  (unitBase sha256 serviceId routeId).map fun base ↦ base ++ ".service".toList

end

/-- The name in `_timer_unit`. -/
def timerUnit (serviceId : Text) (index : Nat) : Text :=
  "nas-v2-timer-".toList ++ serviceId ++ '-' :: (Nat.repr index).toList ++ ".timer".toList

def sessionTarget (serviceId : Text) : Text :=
  "nas-v2-session-".toList ++ serviceId ++ ".target".toList

def dropinTarget (owner : Text) : Text := owner ++ ".d/50-nas-v2.conf".toList

def containerFile (serviceId : Text) : Text := "nas-v2-".toList ++ serviceId ++ ".container".toList

/-! ## One service -/

section

variable (r : Renderers) (outputDir : Text) (effective : Effective)

def unitPath (name : Text) : Text := outputDir ++ "/units/".toList ++ name

def descriptorPath (name : Text) : Text := outputDir ++ "/descriptors/".toList ++ name

def domainPath (name : Text) : Text := outputDir ++ "/vm/".toList ++ name

def quadletPath (name : Text) : Text := outputDir ++ "/quadlet/".toList ++ name

def plainFile (id : Text) (role : Role) (path : Text) : Except ProjectionError Output := do
  let bytes ← r.file id role
  .ok { Output.empty with files := [⟨id, role, path, bytes⟩] }

def linkedUnit (id : Text) (role : Role) (name bytes : Text) : Output :=
  { Output.empty with
    files := [⟨id, role, unitPath outputDir name, bytes⟩]
    links := [⟨id, role, name, unitPath outputDir name⟩] }

def linkedQuadlet (id : Text) (role : Role) (name bytes : Text) : Output :=
  { Output.empty with
    files := [⟨id, role, quadletPath outputDir name, bytes⟩]
    quadletLinks := [⟨id, role, name, quadletPath outputDir name⟩] }

def unitFile (id : Text) (role : Role) (name : Text) : Except ProjectionError Output :=
  (r.file id role).map (linkedUnit outputDir id role name)

/-- The branches on the runtime in `generate_projection`. -/
def runtimeOutput (id : Text) (service : Service) (owner : Text) : Except ProjectionError Output :=
  match service.runtime with
  | .exec => do
    let descriptor ← plainFile r id .execDescriptor
      (descriptorPath outputDir (id ++ ".exec.json".toList))
    let unit ← unitFile r outputDir id .owner owner
    .ok (descriptor ++ unit)
  | .python => unitFile r outputDir id .owner owner
  | .vm => do
    let domain ← plainFile r id .domain (domainPath outputDir (id ++ ".xml".toList))
    let descriptor ← plainFile r id .domainDescriptor
      (descriptorPath outputDir (id ++ ".vm.json".toList))
    let unit ← unitFile r outputDir id .owner owner
    .ok (domain ++ descriptor ++ unit)
  | .systemd => do
    match ← existingDropin effective service with
    | none => .ok ∅
    | some text => .ok (linkedUnit outputDir id .dropin (dropinTarget owner) text)
  | .oci | .quadlet =>
    (r.file id .quadlet).map (linkedQuadlet outputDir id .quadlet (containerFile id))
  | .compose => .error (.renderer id)

def readinessOutput (id : Text) (service : Service) : Except ProjectionError Output :=
  if service.readiness then do
    let descriptor ← plainFile r id .readinessDescriptor
      (descriptorPath outputDir (id ++ ".readiness.json".toList))
    let unit ← unitFile r outputDir id .readiness (readyUnit id)
    .ok (descriptor ++ unit ++
      { Output.empty with
        owned := if service.managed then [readyUnit id] else []
        fingerprints := [(readyUnit id, r.fingerprint id .readiness)] })
  else .ok ∅

/-- One item of `_activation_units`, and what the loop over them adds. -/
def routeOutput (id : Text) (service : Service) (route : Text) : Except ProjectionError Output := do
  let socket ← socketUnit r.sha256 id route
  let proxy ← proxyUnit r.sha256 id route
  let socketFile ← unitFile r outputDir id (.socket route) socket
  let proxyFile ← unitFile r outputDir id (.proxy route) proxy
  .ok (socketFile ++ proxyFile ++
    { Output.empty with
      owned := [socket, proxy]
      start := if service.enabled then [socket] else []
      stop := if service.enabled then [] else [socket, proxy] })

def activationOutput (id : Text) (service : Service) : Except ProjectionError Output :=
  if !isOnDemand service then .ok ∅
  else if service.routes.entries = [] then .error (.noRoutes id)
  else ((byKey service.routes).mapM fun entry ↦ routeOutput r outputDir id service entry.1).map
    Output.join

def timerOutput (id : Text) (service : Service) (index : Nat) : Except ProjectionError Output := do
  let unit ← unitFile r outputDir id (.timer index) (timerUnit id index)
  .ok (unit ++
    { Output.empty with
      owned := if service.managed then [timerUnit id index] else []
      start := if service.managed && service.enabled then [timerUnit id index] else []
      stop := if service.managed && !service.enabled then [timerUnit id index] else [] })

def scheduleOutput (id : Text) (service : Service) : Except ProjectionError Output :=
  if service.kind = .job then
    ((List.range service.schedules).mapM (timerOutput r outputDir id service)).map Output.join
  else .ok ∅

def lifecycleOutput (id : Text) (service : Service) (owner : Text) : Output :=
  { Output.empty with
    owned := if service.managed then [owner] else []
    start := if service.managed && service.enabled && service.kind = .daemon &&
      service.activation = .persistent then [owner] else []
    stop := if service.managed && !service.enabled then
      owner :: if service.readiness then [readyUnit id] else [] else []
    fingerprints := [(owner, r.fingerprint id .owner)] }

/-- One step of the loop in `generate_projection`. -/
def serviceOutput (entry : Text × Service) : Except ProjectionError Output := do
  let owner ← ownerUnit effective entry.1
  let runtime ← runtimeOutput r outputDir effective entry.1 entry.2 owner
  let readiness ← readinessOutput r outputDir entry.1 entry.2
  let activation ← activationOutput r outputDir entry.1 entry.2
  let schedules ← scheduleOutput r outputDir entry.1 entry.2
  .ok (runtime ++ readiness ++ activation ++ schedules ++ lifecycleOutput r entry.1 entry.2 owner)

/-! ## The whole document -/

/-- The Compose part of `_compose_native_view`. -/
def nativeView (id : Text) (service : Service) : Service :=
  if service.runtime = .compose then
    { service with
      runtime := .systemd
      unit := derivedOwner id service
      dependencies := []
      limits := ⟨none, none, none, none⟩
      accelerators := []
      sandbox := ⟨.inherit, false, false, [], [], [], []⟩
      storage := []
      credentials := [] }
  else service

def nativeEffective (effective : Effective) : Effective where
  networkProfiles := effective.networkProfiles
  storageResources := effective.storageResources
  credentials := effective.credentials
  services := mapValues nativeView effective.services
  identifiers := by
    rw [keys_mapValues]
    exact effective.identifiers

/-- One import of `_augment_compose_imports`. -/
def importOutput (entry : Text × Service) : Except ProjectionError Output := do
  let owner ← ownerUnit effective entry.1
  let imported ← r.importCompose entry.1
  let bytes ← r.file entry.1 .owner
  .ok (Output.join (imported.files.map fun file ↦
      linkedQuadlet outputDir entry.1 (.imported file.1) file.1 file.2) ++
    linkedUnit outputDir entry.1 .owner owner bytes ++
    { Output.empty with
      owned := imported.entryUnits
      stop := if entry.2.enabled then [] else imported.entryUnits
      fingerprints := [(owner, imported.fingerprint)] })

def sessionOutput (entry : Text × Service) : Except ProjectionError Output :=
  if !entry.2.managed then .ok ∅
  else if !entry.2.enabled then
    .ok { Output.empty with
      owned := [sessionTarget entry.1]
      stop := [sessionTarget entry.1] }
  else do
    let descriptor ← plainFile r entry.1 .sessionDescriptor
      (descriptorPath outputDir (entry.1 ++ ".session.json".toList))
    let target ← unitFile r outputDir entry.1 .sessionTarget (sessionTarget entry.1)
    .ok (descriptor ++ target ++
      { Output.empty with
        owned := [sessionTarget entry.1]
        fingerprints := [(sessionTarget entry.1, r.fingerprint entry.1 .sessionTarget)] })

/-- `_filtered_effective`: a service that is no session depends on none. -/
def checkSessionDependencies (entry : Text × Service) : Except ProjectionError Unit :=
  entry.2.dependencies.forM fun dep ↦
    if (effective.services.lookup dep.service).any fun target ↦ target.kind = .session then
      .error (.sessionDependency entry.1 dep.service)
    else .ok ()

def plainServices (effective : Effective) : List (Text × Service) :=
  (byKey effective.services).filter fun entry ↦ entry.2.kind ≠ .session

def sessionServices (effective : Effective) : List (Text × Service) :=
  (byKey effective.services).filter fun entry ↦ entry.2.kind = .session

/-- What is produced for the services, those that are no sessions first. -/
structure Produced where
  base : Output
  imports : Output
  sessions : Output
  deriving DecidableEq, Repr

def Produced.all (p : Produced) : Output := p.base ++ p.imports ++ p.sessions

/-- `generate_projection` of the sessions around the base one. -/
def produce : Except ProjectionError Produced := do
  (plainServices effective).forM (checkSessionDependencies effective)
  let base ← (plainServices (nativeEffective effective)).mapM
    (serviceOutput r outputDir (nativeEffective effective))
  let imports ← ((plainServices effective).filter fun entry ↦ entry.2.runtime = .compose).mapM
    (importOutput r outputDir effective)
  let sessions ← (sessionServices effective).mapM (sessionOutput r outputDir)
  .ok ⟨Output.join base, Output.join imports, Output.join sessions⟩

end

/-! ## The manifest -/

def written (entries : List (Text × Text)) : List (Text × Text) :=
  let store : Store Text Text := entries.foldl (fun store entry ↦ store.insert entry.1 entry.2) ∅
  (sorted store.keys).filterMap fun key ↦ (store.lookup key).map fun value ↦ (key, value)

def Link.entry (link : Link) : Text × Text := (link.target, link.source)

def byTarget (links : List (Text × Text)) : List (Text × Text) :=
  links.insertionSort fun a b ↦ a.1 ≤ b.1

def Produced.manifest (p : Produced) : Manifest where
  schemaVersion := 1
  links := byTarget (written ((p.base ++ p.imports).links.map Link.entry) ++
    p.sessions.links.map Link.entry)
  quadletLinks := written ((p.base ++ p.imports).quadletLinks.map Link.entry)
  ownedUnits := sorted p.all.owned.toFinset
  startUnits := sorted p.all.start.toFinset
  stopUnits := sorted p.all.stop.toFinset
  fingerprints := p.all.fingerprints.foldl (fun store entry ↦ store.insert entry.1 (.text entry.2)) ∅

section

variable (r : Renderers) (outputDir : Text) (effective : Effective) (firewalldEnabled : Bool)

/-- The manifest after `augment_projection`. -/
def augmented (p : Produced) (networks : List NetworkFile) : Manifest :=
  { p.manifest with
    quadletLinks := byTarget (p.manifest.quadletLinks ++ networks.map fun file ↦
      (file.reference, quadletPath outputDir file.reference)) }

def project : Except ProjectionError (Produced × List NetworkFile) := do
  let p ← produce r outputDir effective
  let known := (p.manifest.quadletLinks.map Prod.fst).toFinset
  let networks ← ((byKey effective.network.services).foldlM
    (Network.addNetwork r.sha256 effective.network firewalldEnabled known) []).mapError .network
  .ok (p, networks)

end

end NixNas.Systemd
