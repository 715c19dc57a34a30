import NixNas.Spec.Object

/-!
# Defaults (`normalize` of `services/nas_v2_spec.py`)

A document is a tree, so a default set in one place is seen nowhere else.
-/

open Fallible

namespace NixNas.Spec

variable {F : Type}
variable {keys : List Text} {o o' o'' service result : Object F} {key : String}
  {f : Object F → Except Malformed (Object F)}

def normalizeNetwork (policy : Object F) : Except Malformed (Object F) :=
  policy
    |> setDefault "mode" (text "host")
    |> setDefault "outboundDefault" (text "allow")
    |> setDefault "lanAccess" (boolean false)
    |> setDefault "allowedHostPorts" (.array [])
    |> setDefault "allowedEgress" (.array [])
    |> onItems "allowedEgress" fun rule ↦ .ok (setDefault "ports" (.array []) rule)

/-- The identity and the restart policy of the `exec` and `python` runtimes. -/
def normalizeIdentity (runtime : Object F) : Except Malformed (Object F) := do
  let runtime := runtime
    |> setDefault "environment" (.object [])
    |> setDefault "identity" (.object [("mode".toList, text "dynamic")])
  let runtime ← onKey "identity" (fun identity ↦
    .ok (setDefault "mode" (text "dynamic") identity)) runtime
  .ok (setDefault "restart" (text "on-failure") runtime)

def normalizeRuntime (runtime : Object F) : Except Malformed (Object F) := do
  let runtimeType ← getItem "type".toList runtime
  if isText runtimeType "exec" then normalizeIdentity runtime
  else if isText runtimeType "python" then
    let runtime := runtime
      |> setDefault "interpreter" (text "/run/current-system/sw/bin/python3")
      |> setDefault "dependencies" (.object [])
    let runtime ← onKey "dependencies" (fun dependencies ↦
      .ok (setDefault "requireHashes" (boolean true) dependencies)) runtime
    let runtime ← normalizeIdentity runtime
    onKey "entrypoint" (fun entrypoint ↦ .ok (setDefault "args" (.array []) entrypoint)) runtime
  else if isText runtimeType "oci" then
    .ok (runtime |> setDefault "command" (.array []) |> setDefault "pull" (text "missing"))
  else .ok runtime

def normalizeSandbox (generatedRuntime : Bool) (sandbox : Object F) :
    Except Malformed (Object F) := do
  let sandbox := setDefault "mode" (text (if generatedRuntime then "strict" else "inherit")) sandbox
  let mode ← getItem "mode".toList sandbox
  if isText mode "strict" then
    .ok (sandbox
      |> setDefault "readOnlyRoot" (boolean true)
      |> setDefault "writablePaths" (.array [])
      |> setDefault "tmpfs" (.array [])
      |> setDefault "addCapabilities" (.array [])
      |> setDefault "dropCapabilities" (.array [])
      |> setDefault "noNewPrivileges" (boolean true))
  else .ok sandbox

def normalizeFiles (service : Object F) : Except Malformed (Object F) :=
  if Has "files".toList service then
    onItems "files" (fun file ↦ .ok (file
      |> setDefault "delivery" (text "generation")
      |> setDefault "mode" (text "0444")
      |> setDefault "onChange" (text "restart"))) service
  else .ok service

def normalizeHead (service : Object F) : Except Malformed (Object F) := do
  let service := service
    |> setDefault "enabled" (boolean true)
    |> setDefault "managed" (boolean true)
    |> setDefault "dependencies" (.array [])
    |> setDefault "requiresCapabilities" (.array [])
    |> setDefault "authorization" (.object [("capabilities".toList, .array [])])
  let service ← onKey "authorization" (fun authorization ↦
    .ok (setDefault "capabilities" (.array []) authorization)) service
  let service := setDefault "resources" (.object []) service
  let service ← onKey "resources" (fun resources ↦
    .ok (setDefault "accelerators" (.array []) resources)) service
  let service := setDefault "sandbox" (.object []) service
  let runtime ← objectItem "runtime" service
  let runtimeType ← getItem "type".toList runtime
  let generatedRuntime ← inTexts runtimeType ["exec", "python", "oci"]
  let service ← onKey "sandbox" (normalizeSandbox generatedRuntime) service
  let service := service
    |> setDefault "storage" (.array [])
    |> setDefault "credentials" (.array [])
  let service ← normalizeFiles service
  .ok (service
    |> setDefault "routes" (.object [])
    |> setDefault "listeners" (.object []))

def normalizeWorkload (workload : Object F) : Except Malformed (Object F) := do
  let kind ← getItem "kind".toList workload
  if isText kind "daemon" then .ok (setDefault "activation" (text "persistent") workload)
  else if isText kind "job" then
    onItems "schedules" (fun schedule ↦ .ok (schedule
      |> setDefault "randomizedDelaySeconds" (number 0)
      |> setDefault "persistent" (boolean true)))
      (setDefault "schedules" (.array []) workload)
  else .ok workload

def normalizeProbe (probe : Object F) : Except Malformed (Object F) := do
  let probeType ← getItem "type".toList probe
  if isText probeType "tcp" then .ok (setDefault "host" (text "127.0.0.1") probe)
  else if isText probeType "http" then
    .ok (probe
      |> setDefault "acceptStatusMin" (number 200)
      |> setDefault "acceptStatusMax" (number 399))
  else .ok probe

def normalizeReadiness (service : Object F) : Except Malformed (Object F) :=
  if Has "readiness".toList service then
    onKey "readiness" (fun readiness ↦
      readiness
        |> setDefault "timeoutSeconds" (number 60)
        |> setDefault "intervalMilliseconds" (number 500)
        |> onItems "probes" normalizeProbe) service
  else .ok service

/-- `workload.get("kind") == "session"`. -/
def isSession (workload : Object F) : Bool :=
  (find "kind".toList workload).any (isText · "session")

def normalizeServiceNetwork (workload service : Object F) : Except Malformed (Object F) :=
  if Has "network".toList service then onKey "network" normalizeNetwork service
  else if isSession workload then
    service
      |> setDefault "network" (.object [])
      |> onKey "network" fun policy ↦ normalizeNetwork (policy
        |> setDefault "mode" (text "isolated")
        |> setDefault "outboundDefault" (text "deny"))
  else .ok service

def normalizeAccelerator (accelerator : Object F) : Object F :=
  accelerator
    |> setDefault "vendor" (text "any")
    |> setDefault "quantity" (number 1)
    |> setDefault "required" (boolean false)
    |> setDefault "mode" (text "shared")

def normalizeProxy (proxy : Object F) : Object F :=
  proxy
    |> setDefault "requestHeaders" (.object [])
    |> setDefault "removeRequestHeaders" (.array [])
    |> setDefault "responseHeaders" (.object [])
    |> setDefault "trustedIdentityHeaders" (.array [])
    |> setDefault "requireHeaders" (.object [])

def normalizeRoute (route : Object F) : Except Malformed (Object F) := do
  let route ← onKey "proxy" (fun proxy ↦ .ok (normalizeProxy proxy))
    (setDefault "proxy" (.object []) route)
  let route ← onKey "portal" (fun portal ↦ .ok (portal
      |> setDefault "visible" (boolean false)
      |> setDefault "order" (number 0)))
    (setDefault "portal" (.object []) route)
  let route ← onKey "auth" (fun auth ↦ do
    let mode ← getItem "mode".toList auth
    .ok (if isText mode "identity" then setDefault "capability" (text "access") auth else auth)) route
  let route ← onKey "target" (fun target ↦ do
    let targetType ← getItem "type".toList target
    let isHttp ← inTexts targetType ["http", "https"]
    .ok (if isHttp then setDefault "host" (text "127.0.0.1") target else target)) route
  onKey "exposure" (fun exposure ↦ do
    let exposureType ← getItem "type".toList exposure
    .ok (if isText exposureType "hostname" then setDefault "path" (text "/") exposure
      else exposure)) route

def normalizeTail (service : Object F) : Except Malformed (Object F) := do
  let service ← onItems "dependencies" (fun dependency ↦
    .ok (setDefault "condition" (text "ready") dependency)) service
  let service ← onItems "storage" (fun attachment ↦
    .ok (setDefault "access" (text "read") attachment)) service
  let service ← onKey "resources" (onItems "accelerators" fun accelerator ↦
    .ok (normalizeAccelerator accelerator)) service
  let service ← onValues "routes" normalizeRoute service
  onValues "listeners" (fun listener ↦
    .ok (setDefault "firewall" (boolean true) listener)) service

def normalizeService (service : Object F) : Except Malformed (Object F) := do
  let service ← normalizeHead service
  let service ← onKey "workload" normalizeWorkload service
  let service ← onKey "runtime" normalizeRuntime service
  let service ← normalizeReadiness service
  let workload ← objectItem "workload" service
  let service ← normalizeServiceNetwork workload service
  normalizeTail service

def asObject : Option (Plain F) → Object F
  | some (.object o) => o
  | _ => []

def normalizeBackup (document : Object F) : Object F :=
  let backup := asObject (find "backup".toList document)
  let remote := asObject (find "remote".toList backup)
    |> setDefault "provider" (text "local")
    |> setDefault "scope" (text "config-only")
    |> setDefault "rcloneRemote" (text "")
    |> setDefault "rcloneConfigFile" (text "")
  setItem document "backup".toList (.object (setItem backup "remote".toList (.object remote)))

def normalizeResource (resource : Object F) : Except Malformed (Object F) := do
  let resource := resource
    |> setDefault "scope" (text "system")
    |> setDefault "capabilities" (.array [text "read"])
    |> setDefault "backup" (.object [("enabled".toList, boolean false),
      ("consistency".toList, text "filesystem")])
  let resource ← onKey "backup" (fun backup ↦ .ok (backup
      |> setDefault "enabled" (boolean false)
      |> setDefault "consistency" (text "filesystem"))) resource
  onKey "fileBrowser" (fun fileBrowser ↦ .ok (setDefault "visible" (boolean false) fileBrowser))
    (setDefault "fileBrowser" (.object [("visible".toList, boolean false)]) resource)

def normalize (document : Object F) : Except Malformed (Object F) := do
  let result := document
    |> setDefault "generation" (number 1)
    |> setDefault "storageResources" (.object [])
    |> setDefault "credentials" (.object [])
    |> setDefault "networkProfiles" (.object [])
    |> normalizeBackup
  let result ← onValues "storageResources" normalizeResource result
  let result ← onValues "credentials" (fun credential ↦
    .ok (setDefault "required" (boolean true) credential)) result
  let result ← onValues "networkProfiles" normalizeNetwork result
  onValues "services" normalizeService result

theorem frame_normalizeBackup (document : Object F) :
    Frame ["backup".toList] document (normalizeBackup document) :=
  frame_setItem _ _ _

def headKeys : List Text :=
  ["enabled", "managed", "dependencies", "requiresCapabilities", "authorization", "resources",
    "sandbox", "storage", "credentials", "files", "routes", "listeners"].map String.toList

def tailKeys : List Text :=
  ["dependencies", "storage", "resources", "routes", "listeners"].map String.toList

theorem Frame.setDefault (h : Frame keys o o') (key : String)
    (value : Plain F) (hkey : key.toList ∈ keys) : Frame keys o (setDefault key value o') :=
  h.trans ((frame_setDefault key value o').mono (List.cons_subset.mpr ⟨hkey, List.nil_subset _⟩))

theorem Frame.onKey (h : Frame keys o o') (hpass : onKey key f o' = .ok o'')
    (hkey : key.toList ∈ keys) : Frame keys o o'' :=
  h.trans ((frame_onKey hpass).mono (List.cons_subset.mpr ⟨hkey, List.nil_subset _⟩))

theorem Frame.onItems (h : Frame keys o o') (hpass : onItems key f o' = .ok o'')
    (hkey : key.toList ∈ keys) : Frame keys o o'' :=
  h.trans ((frame_onItems hpass).mono (List.cons_subset.mpr ⟨hkey, List.nil_subset _⟩))

theorem Frame.onValues (h : Frame keys o o') (hpass : onValues key f o' = .ok o'')
    (hkey : key.toList ∈ keys) : Frame keys o o'' :=
  h.trans ((frame_onValues hpass).mono (List.cons_subset.mpr ⟨hkey, List.nil_subset _⟩))

theorem frame_normalizeHead (h : normalizeHead service = .ok result) :
    Frame headKeys service result := by
  obtain ⟨s₁, h₁, h⟩ := bind_ok h
  obtain ⟨s₂, h₂, h⟩ := bind_ok h
  obtain ⟨runtime, -, h⟩ := bind_ok h
  obtain ⟨runtimeType, -, h⟩ := bind_ok h
  obtain ⟨generatedRuntime, -, h⟩ := bind_ok h
  obtain ⟨s₃, h₃, h⟩ := bind_ok h
  obtain ⟨s₄, h₄, h⟩ := bind_ok h
  cases h
  unfold normalizeFiles at h₄
  have hdefaults := (((((Frame.refl headKeys service).setDefault "enabled" (boolean true)
    (by decide)).setDefault "managed" (boolean true) (by decide)).setDefault "dependencies"
    (.array []) (by decide)).setDefault "requiresCapabilities" (.array []) (by decide)).setDefault
    "authorization" (.object [("capabilities".toList, .array [])]) (by decide)
  have hauthorization := hdefaults.onKey h₁ (by decide)
  have hresources := (hauthorization.setDefault "resources" (.object []) (by decide)).onKey h₂
    (by decide)
  have hsandbox := (hresources.setDefault "sandbox" (.object []) (by decide)).onKey h₃ (by decide)
  have hlists := (hsandbox.setDefault "storage" (.array []) (by decide)).setDefault "credentials"
    (.array []) (by decide)
  have hfiles : Frame headKeys service s₄ := by
    split at h₄
    · exact hlists.onItems h₄ (by decide)
    · cases h₄
      exact hlists
  exact (hfiles.setDefault "routes" (.object []) (by decide)).setDefault "listeners" (.object [])
    (by decide)

theorem frame_normalizeTail (h : normalizeTail service = .ok result) :
    Frame tailKeys service result := by
  obtain ⟨s₁, h₁, h⟩ := bind_ok h
  obtain ⟨s₂, h₂, h⟩ := bind_ok h
  obtain ⟨s₃, h₃, h⟩ := bind_ok h
  obtain ⟨s₄, h₄, h⟩ := bind_ok h
  have hdependencies := (Frame.refl tailKeys service).onItems h₁ (by decide)
  have hstorage := hdependencies.onItems h₂ (by decide)
  have hresources := hstorage.onKey h₃ (by decide)
  have hroutes := hresources.onValues h₄ (by decide)
  exact hroutes.onValues h (by decide)

end NixNas.Spec
