import NixNas.Spec.Preserved

/-!
# The defaults settle

A second `normalize` finds nothing to do.  The passes of a service are taken one after the other:
a run of defaults lasts whatever is added behind it, and the other passes look at keys that no
later pass writes.
-/

open Fallible

namespace NixNas.Spec

variable {F : Type}
variable {key : String} {v : Object F}

/-! ## Networks and runtimes -/

theorem settles_normalizeNetwork : Settles (normalizeNetwork (F := F)) := by
  have hpolicy : Lasting (defaulting (F := F) [("mode", text "host"),
      ("outboundDefault", text "allow"), ("lanAccess", boolean false),
      ("allowedHostPorts", .array []), ("allowedEgress", .array [])]) :=
    lasting_defaulting (by simp [Dict, DictItems])
  have hrule : Lasting (defaulting (F := F) [("ports", .array [])]) :=
    lasting_defaulting (by simp [Dict, DictItems])
  exact hpolicy.then_settles (settles_onItems hrule.settles "allowedEgress")

theorem lasting_normalizeIdentity : Lasting (normalizeIdentity (F := F)) := by
  have hhead : Lasting (defaulting (F := F) [("environment", .object []),
      ("identity", .object [("mode".toList, text "dynamic")])]) :=
    lasting_defaulting (by simp [Dict, DictEntries])
  have hmode : Lasting (defaulting (F := F) [("mode", text "dynamic")]) :=
    lasting_defaulting (by simp)
  have hrestart : Lasting (defaulting (F := F) [("restart", text "on-failure")]) :=
    lasting_defaulting (by simp)
  exact hhead.then ((lasting_onKey hmode "identity").then hrestart)

theorem lasting_normalizeRuntime : Lasting (normalizeRuntime (F := F)) := by
  apply lasting_getItem
  · intro runtimeType
    show Lasting fun runtime ↦ _
    -- The branches of the source, each a run of passes of its own.
    cases hexec : isText runtimeType "exec" with
    | true => exact lasting_normalizeIdentity
    | false =>
      cases hpython : isText runtimeType "python" with
      | true =>
        have hhead : Lasting (defaulting (F := F)
            [("interpreter", text "/run/current-system/sw/bin/python3"),
              ("dependencies", .object [])]) :=
          lasting_defaulting (by simp [Dict, DictEntries])
        have hhashes : Lasting (defaulting (F := F) [("requireHashes", boolean true)]) :=
          lasting_defaulting (by simp)
        have hargs : Lasting (defaulting (F := F) [("args", .array [])]) :=
          lasting_defaulting (by simp [Dict, DictItems])
        exact hhead.then ((lasting_onKey hhashes "dependencies").then
          (lasting_normalizeIdentity.then (lasting_onKey hargs "entrypoint")))
      | false =>
        cases hoci : isText runtimeType "oci" with
        | true =>
          have hcommand : Lasting (defaulting (F := F) [("command", .array []),
              ("pull", text "missing")]) := lasting_defaulting (by simp [Dict, DictItems])
          exact hcommand
        | false => exact lasting_ok
  · intro runtimeType runtimeType' hpreserved
    simp only [isText_preserved hpreserved]

def strictDefaults : List (String × Plain F) :=
  [("readOnlyRoot", boolean true), ("writablePaths", .array []), ("tmpfs", .array []),
    ("addCapabilities", .array []), ("dropCapabilities", .array []),
    ("noNewPrivileges", boolean true)]

theorem lasting_normalizeSandbox (generatedRuntime : Bool) :
    Lasting (normalizeSandbox (F := F) generatedRuntime) := by
  have hmode : Lasting (defaulting (F := F)
      [("mode", text (if generatedRuntime then "strict" else "inherit"))]) :=
    lasting_defaulting (by simp)
  have hstrict : Lasting (defaulting (F := F) strictDefaults) :=
    lasting_defaulting (by simp [strictDefaults, Dict, DictItems])
  have hrest : Lasting fun sandbox : Object F ↦ getItem "mode".toList sandbox >>= fun mode ↦
      if isText mode "strict" then defaulting strictDefaults sandbox else .ok sandbox := by
    apply lasting_getItem
    · intro mode
      cases isText mode "strict" with
      | true => exact hstrict
      | false => exact lasting_ok
    · intro mode mode' hpreserved
      simp only [isText_preserved hpreserved]
  exact hmode.then hrest

/-! ## Workloads and readiness -/

theorem settles_normalizeWorkload : Settles (normalizeWorkload (F := F)) := by
  apply settles_getItem
  · intro kind
    show Settles fun workload ↦ _
    cases isText kind "daemon" with
    | true =>
      have hactivation : Lasting (defaulting (F := F) [("activation", text "persistent")]) :=
        lasting_defaulting (by simp)
      exact hactivation.settles
    | false =>
      cases isText kind "job" with
      | true =>
        have hschedules : Lasting (defaulting (F := F) [("schedules", .array [])]) :=
          lasting_defaulting (by simp [Dict, DictItems])
        have hschedule : Lasting (defaulting (F := F)
            [("randomizedDelaySeconds", number 0), ("persistent", boolean true)]) :=
          lasting_defaulting (by simp)
        exact hschedules.then_settles (settles_onItems hschedule.settles "schedules")
      | false => exact lasting_ok.settles
  · intro kind kind' hpreserved
    simp only [isText_preserved hpreserved]

theorem lasting_normalizeProbe : Lasting (normalizeProbe (F := F)) := by
  apply lasting_getItem
  · intro probeType
    show Lasting fun probe ↦ _
    cases isText probeType "tcp" with
    | true =>
      have hhost : Lasting (defaulting (F := F) [("host", text "127.0.0.1")]) :=
        lasting_defaulting (by simp)
      exact hhost
    | false =>
      cases isText probeType "http" with
      | true =>
        have hstatus : Lasting (defaulting (F := F) [("acceptStatusMin", number 200),
            ("acceptStatusMax", number 399)]) := lasting_defaulting (by simp)
        exact hstatus
      | false => exact lasting_ok
  · intro probeType probeType' hpreserved
    simp only [isText_preserved hpreserved]

theorem settles_normalizeFiles : Settles (normalizeFiles (F := F)) := by
  have hfile : Lasting (defaulting (F := F) [("delivery", text "generation"),
      ("mode", text "0444"), ("onChange", text "restart")]) := lasting_defaulting (by simp)
  exact settles_ifPresent (settles_onItems hfile.settles "files") "files".toList

theorem settles_normalizeReadiness : Settles (normalizeReadiness (F := F)) := by
  have htimes : Lasting (defaulting (F := F) [("timeoutSeconds", number 60),
      ("intervalMilliseconds", number 500)]) := lasting_defaulting (by simp)
  have hprobes := settles_onItems (lasting_normalizeProbe (F := F)).settles "probes"
  exact settles_ifPresent (settles_onKey (htimes.then_settles hprobes) "readiness") "readiness".toList

/-! ## The network of a service -/

variable {workload service result : Object F}

def sessionNetwork (policy : Object F) : Except Malformed (Object F) :=
  normalizeNetwork (policy
    |> setDefault "mode" (text "isolated")
    |> setDefault "outboundDefault" (text "deny"))

theorem settles_sessionNetwork : Settles (sessionNetwork (F := F)) := by
  have hisolated : Lasting (defaulting (F := F) [("mode", text "isolated"),
      ("outboundDefault", text "deny")]) := lasting_defaulting (by simp)
  exact hisolated.then_settles settles_normalizeNetwork

theorem normalizeServiceNetwork_ok (h : normalizeServiceNetwork workload service = .ok result) :
    (Has "network".toList service ∧ onKey "network" normalizeNetwork service = .ok result) ∨
    (¬ Has "network".toList service ∧ isSession workload = true ∧
      onKey "network" sessionNetwork (setDefault "network" (.object []) service) = .ok result) ∨
    (¬ Has "network".toList service ∧ isSession workload = false ∧ result = service) := by
  unfold normalizeServiceNetwork at h
  split at h
  · rename_i hhas
    exact .inl ⟨hhas, h⟩
  · rename_i hnot
    split at h
    · rename_i hsession
      exact .inr (.inl ⟨hnot, hsession, h⟩)
    · rename_i hother
      cases h
      exact .inr (.inr ⟨hnot, Bool.not_eq_true _ ▸ hother, rfl⟩)

theorem lasting_noNetwork : Lasting (defaulting (F := F) [("network", .object [])]) :=
  lasting_defaulting (by simp [Dict, DictEntries])

theorem settles_newNetwork :
    Settles (defaulting (F := F) [("network", .object [])] >=> onKey "network" sessionNetwork) :=
  lasting_noNetwork.then_settles (settles_onKey settles_sessionNetwork "network")

theorem has_network_onKey {f : Object F → Except Malformed (Object F)}
    (h : onKey "network" f service = .ok result) : Has "network".toList result := by
  obtain ⟨v, v', -, -, rfl⟩ := onKey_ok h
  unfold Has
  rw [find_setItem, if_pos rfl]
  rfl

theorem normalizeNetwork_session {policy policy' : Object F} (hdict : Dict (.object policy))
    (h : sessionNetwork policy = .ok policy') : normalizeNetwork policy' = .ok policy' := by
  have hisolated : Lasting (defaulting (F := F) [("mode", text "isolated"),
      ("outboundDefault", text "deny")]) := lasting_defaulting (by simp)
  exact settles_normalizeNetwork.again _ _ (hisolated.keeps _ _ rfl hdict) h

theorem settles_normalizeServiceNetwork (workload : Object F) :
    Settles (normalizeServiceNetwork workload) where
  keeps := keeps_normalizeServiceNetwork workload
  preserves service result hdict hpass := by
    rcases normalizeServiceNetwork_ok hpass with ⟨-, hpass⟩ | ⟨-, -, hpass⟩ | ⟨-, -, rfl⟩
    · exact (settles_onKey settles_normalizeNetwork "network").preserves _ _ hdict hpass
    · exact settles_newNetwork.preserves _ _ hdict hpass
    · exact .refl _
  again service result hdict hpass := by
    rcases normalizeServiceNetwork_ok hpass with ⟨-, hpass⟩ | ⟨-, -, hpass⟩ | ⟨hnot, hother, rfl⟩
    · unfold normalizeServiceNetwork
      rw [if_pos (has_network_onKey hpass)]
      exact (settles_onKey settles_normalizeNetwork "network").again _ _ hdict hpass
    · -- The second time there is a network, and the pass for those takes over.
      unfold normalizeServiceNetwork
      rw [if_pos (has_network_onKey hpass)]
      have hdict₁ := lasting_noNetwork.keeps _ _ rfl hdict
      have hdict' := hdict₁.onKey hpass settles_sessionNetwork.keeps
      obtain ⟨policy, policy', hfind, hpolicy, rfl⟩ := onKey_ok hpass
      exact onKey_self hdict' (find_setItem_self _ _ _)
        (normalizeNetwork_session (hdict₁.of_find hfind) hpolicy)
    · unfold normalizeServiceNetwork
      rw [if_neg hnot, if_neg (by rw [hother]; exact Bool.false_ne_true)]

def networkPass (service : Object F) : Except Malformed (Object F) :=
  objectItem "workload" service >>= fun workload ↦ normalizeServiceNetwork workload service

theorem frames_normalizeServiceNetwork (workload : Object F) :
    Frames ["network".toList] (normalizeServiceNetwork workload) := by
  intro service result hpass
  rcases normalizeServiceNetwork_ok hpass with ⟨-, hpass⟩ | ⟨-, -, hpass⟩ | ⟨-, -, rfl⟩
  · exact frame_onKey hpass
  · exact (frame_setDefault "network" _ _).trans (frame_onKey hpass)
  · exact .refl _ _

theorem objectItem_congr (h : find key.toList result = find key.toList service) :
    objectItem key result = objectItem key service := by
  unfold objectItem getItem
  rw [h]

theorem settles_networkPass : Settles (networkPass (F := F)) where
  keeps service result hpass hdict := by
    obtain ⟨workload, -, hpass⟩ := bind_ok hpass
    exact keeps_normalizeServiceNetwork workload _ _ hpass hdict
  preserves service result hdict hpass := by
    obtain ⟨workload, -, hpass⟩ := bind_ok hpass
    exact (settles_normalizeServiceNetwork workload).preserves _ _ hdict hpass
  again service result hdict hpass := by
    obtain ⟨workload, hworkload, hpass⟩ := bind_ok hpass
    have hframe := frames_normalizeServiceNetwork workload _ _ hpass
    unfold networkPass
    rw [objectItem_congr (hframe "workload".toList (by decide)), hworkload]
    exact (settles_normalizeServiceNetwork workload).again _ _ hdict hpass

theorem frames_networkPass : Frames ["network".toList] (networkPass (F := F)) := by
  intro service result hpass
  obtain ⟨workload, -, hpass⟩ := bind_ok hpass
  exact frames_normalizeServiceNetwork workload _ _ hpass

theorem local_networkPass : Local ["network".toList, "workload".toList] (networkPass (F := F)) := by
  intro service result hdict hpass hkeys
  have hnetwork := hkeys "network".toList (by decide)
  have hworkload := hkeys "workload".toList (by decide)
  obtain ⟨workload, hfound, hpass⟩ := bind_ok hpass
  unfold networkPass
  rw [objectItem_congr hworkload, hfound]
  show normalizeServiceNetwork workload result = _
  unfold normalizeServiceNetwork
  rcases normalizeServiceNetwork_ok hpass with ⟨hhas, hpass⟩ | ⟨hnot, -, hpass⟩ | ⟨hnot, hother, -⟩
  · rw [if_pos ((has_congr hnetwork).mpr hhas)]
    exact local_onKey "network" _ _ _ hdict hpass fun name hname =>
      List.mem_singleton.mp hname ▸ hnetwork
  · exact (hnot (has_network_onKey hpass)).elim
  · rw [if_neg fun hhas => hnot ((has_congr hnetwork).mp hhas),
      if_neg (by rw [hother]; exact Bool.false_ne_true)]

/-! ## Routes and accelerators -/

theorem lasting_normalizeAccelerator :
    Lasting fun accelerator : Object F ↦ .ok (normalizeAccelerator accelerator) := by
  have hdefaults : Lasting (defaulting (F := F) [("vendor", text "any"), ("quantity", number 1),
      ("required", boolean false), ("mode", text "shared")]) := lasting_defaulting (by simp)
  exact hdefaults

theorem lasting_normalizeProxy :
    Lasting fun proxy : Object F ↦ .ok (normalizeProxy proxy) := by
  have hdefaults : Lasting (defaulting (F := F) [("requestHeaders", .object []),
      ("removeRequestHeaders", .array []), ("responseHeaders", .object []),
      ("trustedIdentityHeaders", .array []), ("requireHeaders", .object [])]) :=
    lasting_defaulting (by simp [Dict, DictItems, DictEntries])
  exact hdefaults

theorem lasting_error (err : Malformed) : Lasting fun _ : Object F ↦ .error err where
  keeps _ _ hpass := nomatch hpass
  preserves _ _ _ hpass := nomatch hpass
  later _ _ _ _ _ hpass := nomatch hpass

theorem lasting_whenItem {name : Text} {p : Plain F → Except Malformed Bool} (key : String)
    {value : Plain F} (hvalue : Dict value)
    (hsame : ∀ item item', Preserved item item' → p item' = p item) :
    Lasting fun o ↦ getItem name o >>= fun item ↦ p item >>= fun holds ↦
      .ok (if holds then setDefault key value o else o) := by
  apply lasting_getItem
  · intro item
    cases p item with
    | error err => exact lasting_error err
    | ok holds =>
      cases holds with
      | true =>
        have hdefault : Lasting (defaulting [(key, value)]) :=
          lasting_defaulting fun d hd => List.mem_singleton.mp hd ▸ hvalue
        exact hdefault
      | false => exact lasting_ok
  · intro item item' hpreserved
    simp only [hsame item item' hpreserved]

theorem lasting_normalizeRoute : Lasting (normalizeRoute (F := F)) := by
  have hproxy : Lasting (defaulting (F := F) [("proxy", .object [])]) :=
    lasting_defaulting (by simp [Dict, DictEntries])
  have hportal : Lasting (defaulting (F := F) [("portal", .object [])]) :=
    lasting_defaulting (by simp [Dict, DictEntries])
  have hshown : Lasting (defaulting (F := F) [("visible", boolean false), ("order", number 0)]) :=
    lasting_defaulting (by simp)
  have hauth : Lasting fun auth : Object F ↦ getItem "mode".toList auth >>= fun mode ↦
      .ok (isText mode "identity") >>= fun isIdentity ↦
        .ok (if isIdentity then setDefault "capability" (text "access") auth else auth) := by
    apply lasting_whenItem "capability" (dict_text "access")
    intro mode mode' hpreserved
    rw [isText_preserved hpreserved]
  have htarget : Lasting fun target : Object F ↦ getItem "type".toList target >>= fun targetType ↦
      inTexts targetType ["http", "https"] >>= fun isHttp ↦
        .ok (if isHttp then setDefault "host" (text "127.0.0.1") target else target) :=
    lasting_whenItem "host" (dict_text "127.0.0.1") fun _ _ hpreserved =>
      inTexts_preserved hpreserved _
  have hexposure : Lasting fun exposure : Object F ↦ getItem "type".toList exposure >>=
      fun exposureType ↦ .ok (isText exposureType "hostname") >>= fun isHostname ↦
        .ok (if isHostname then setDefault "path" (text "/") exposure else exposure) := by
    apply lasting_whenItem "path" (dict_text "/")
    intro exposureType exposureType' hpreserved
    rw [isText_preserved hpreserved]
  exact hproxy.then ((lasting_onKey lasting_normalizeProxy "proxy").then
    (hportal.then ((lasting_onKey hshown "portal").then ((lasting_onKey hauth "auth").then
      ((lasting_onKey htarget "target").then (lasting_onKey hexposure "exposure"))))))

/-! ## Services -/

def sandboxPass (service : Object F) : Except Malformed (Object F) := do
  let runtime ← objectItem "runtime" service
  let runtimeType ← getItem "type".toList runtime
  let generatedRuntime ← inTexts runtimeType ["exec", "python", "oci"]
  onKey "sandbox" (normalizeSandbox generatedRuntime) service

theorem sandboxPass_ok (h : sandboxPass service = .ok result) :
    ∃ runtime runtimeType generatedRuntime, find "runtime".toList service = some (.object runtime) ∧
      find "type".toList runtime = some runtimeType ∧
      inTexts runtimeType ["exec", "python", "oci"] = .ok generatedRuntime ∧
      onKey "sandbox" (normalizeSandbox generatedRuntime) service = .ok result := by
  obtain ⟨runtime, hruntime, h⟩ := bind_ok h
  obtain ⟨runtimeType, htype, h⟩ := bind_ok h
  obtain ⟨generatedRuntime, hgenerated, h⟩ := bind_ok h
  exact ⟨runtime, runtimeType, generatedRuntime, objectItem_ok hruntime, getItem_ok.mp htype,
    hgenerated, h⟩

theorem objectItem_of_find
    (h : find key.toList service = some (.object v)) : objectItem key service = .ok v := by
  unfold objectItem
  rw [getItem_ok.mpr h]
  rfl

theorem lasting_sandboxPass : Lasting (sandboxPass (F := F)) where
  keeps service result hpass hdict := by
    obtain ⟨_, _, generatedRuntime, -, -, -, hpass⟩ := sandboxPass_ok hpass
    exact hdict.onKey hpass (lasting_normalizeSandbox generatedRuntime).keeps
  preserves service result hdict hpass := by
    obtain ⟨_, _, generatedRuntime, -, -, -, hpass⟩ := sandboxPass_ok hpass
    exact (lasting_onKey (lasting_normalizeSandbox generatedRuntime) "sandbox").preserves _ _
      hdict hpass
  later service result grown hdict hdict' hpass hgrown := by
    obtain ⟨runtime, runtimeType, generatedRuntime, hruntime, htype, hgenerated, hpass⟩ :=
      sandboxPass_ok hpass
    have hlasting := lasting_onKey (lasting_normalizeSandbox (F := F) generatedRuntime) "sandbox"
    -- The runtime may have grown, and its type is still the same.
    obtain ⟨runtime', hruntime', hpreserved⟩ :=
      ((hlasting.preserves _ _ hdict hpass).trans hgrown).find_object hruntime
    obtain ⟨runtimeType', htype', hsame⟩ := hpreserved.find htype
    unfold sandboxPass
    rw [objectItem_of_find hruntime']
    show getItem "type".toList runtime' >>= _ = _
    rw [getItem_ok.mpr htype']
    show inTexts runtimeType' _ >>= _ = _
    rw [inTexts_preserved hsame, hgenerated]
    exact hlasting.later _ _ _ hdict hdict' hpass hgrown

def headPass : Object F → Except Malformed (Object F) :=
  defaulting [("enabled", boolean true), ("managed", boolean true), ("dependencies", .array []),
      ("requiresCapabilities", .array []),
      ("authorization", .object [("capabilities".toList, .array [])])] >=>
    onKey "authorization" (defaulting [("capabilities", .array [])]) >=>
    defaulting [("resources", .object [])] >=>
    onKey "resources" (defaulting [("accelerators", .array [])]) >=>
    defaulting [("sandbox", .object [])] >=>
    sandboxPass >=>
    defaulting [("storage", .array []), ("credentials", .array [])]

/-- The passes behind them, none of which writes what an earlier one looks at. -/
def bodyPass : Object F → Except Malformed (Object F) :=
  normalizeFiles >=>
    defaulting [("routes", .object []), ("listeners", .object [])] >=>
    onKey "workload" normalizeWorkload >=>
    onKey "runtime" normalizeRuntime >=>
    normalizeReadiness >=>
    networkPass >=>
    onItems "dependencies" (defaulting [("condition", text "ready")]) >=>
    onItems "storage" (defaulting [("access", text "read")]) >=>
    onKey "resources" (onItems "accelerators" fun accelerator ↦
      .ok (normalizeAccelerator accelerator)) >=>
    onValues "routes" normalizeRoute >=>
    onValues "listeners" (defaulting [("firewall", boolean true)])

theorem defaulting_bind {α : Type} (defaults : List (String × Plain F)) (o : Object F)
    (f : Object F → Except Malformed α) : defaulting defaults o >>= f = f (setDefaults defaults o) :=
  rfl

theorem then_def (f g : Object F → Except Malformed (Object F)) : f >=> g = fun o ↦ f o >>= g :=
  rfl

theorem normalizeHead_eq : normalizeHead (F := F) =
    headPass >=> normalizeFiles >=> defaulting [("routes", .object []), ("listeners", .object [])] := by
  funext service
  unfold normalizeHead headPass sandboxPass
  simp only [then_def, bind_assoc, defaulting_bind]
  rfl

theorem normalizeService_eq : normalizeService (F := F) = headPass >=> bodyPass := by
  funext service
  unfold normalizeService bodyPass networkPass
  rw [normalizeHead_eq]
  simp only [then_def, bind_assoc]
  rfl

theorem lasting_headPass : Lasting (headPass (F := F)) := by
  have hfirst : Lasting (defaulting (F := F) [("enabled", boolean true), ("managed", boolean true),
      ("dependencies", .array []), ("requiresCapabilities", .array []),
      ("authorization", .object [("capabilities".toList, .array [])])]) :=
    lasting_defaulting (by simp [Dict, DictItems, DictEntries])
  have hcapabilities : Lasting (defaulting (F := F) [("capabilities", .array [])]) :=
    lasting_defaulting (by simp [Dict, DictItems])
  have hresources : Lasting (defaulting (F := F) [("resources", .object [])]) :=
    lasting_defaulting (by simp [Dict, DictEntries])
  have haccelerators : Lasting (defaulting (F := F) [("accelerators", .array [])]) :=
    lasting_defaulting (by simp [Dict, DictItems])
  have hsandbox : Lasting (defaulting (F := F) [("sandbox", .object [])]) :=
    lasting_defaulting (by simp [Dict, DictEntries])
  have hlast : Lasting (defaulting (F := F) [("storage", .array []), ("credentials", .array [])]) :=
    lasting_defaulting (by simp [Dict, DictItems])
  exact hfirst.then ((lasting_onKey hcapabilities "authorization").then
    (hresources.then ((lasting_onKey haccelerators "resources").then
      (hsandbox.then (lasting_sandboxPass.then hlast)))))

theorem settles_bodyPass : Settles (bodyPass (F := F)) := by
  have hfirewall : Lasting (defaulting (F := F) [("firewall", boolean true)]) :=
    lasting_defaulting (by simp)
  have hcondition : Lasting (defaulting (F := F) [("condition", text "ready")]) :=
    lasting_defaulting (by simp)
  have haccess : Lasting (defaulting (F := F) [("access", text "read")]) :=
    lasting_defaulting (by simp)
  have hnothing : Lasting (defaulting (F := F) [("routes", .object []), ("listeners", .object [])]) :=
    lasting_defaulting (by simp [Dict, DictEntries])
  have haccelerators := settles_onItems (lasting_normalizeAccelerator (F := F)).settles
    "accelerators"
  -- From the last pass to the first: what settles, and which keys it writes.
  have hlisteners := settles_onValues hfirewall.settles "listeners"
  have hlistenersAt := frames_onValues "listeners" (defaulting (F := F) [("firewall", boolean true)])
  have hroutes := (settles_onValues lasting_normalizeRoute.settles "routes").then
    (local_onValues _ _) hlisteners hlistenersAt (by decide)
  have hroutesAt := (frames_onValues "routes" (normalizeRoute (F := F))).then hlistenersAt
  have hresources := (settles_onKey haccelerators "resources").then (local_onKey _ _) hroutes
    hroutesAt (by decide)
  have hresourcesAt := (frames_onKey "resources" (onItems "accelerators" fun accelerator : Object F ↦
    .ok (normalizeAccelerator accelerator))).then hroutesAt
  have hstorage := (settles_onItems haccess.settles "storage").then (local_onItems _ _) hresources
    hresourcesAt (by decide)
  have hstorageAt := (frames_onItems "storage" (defaulting (F := F)
    [("access", text "read")])).then hresourcesAt
  have hdependencies := (settles_onItems hcondition.settles "dependencies").then
    (local_onItems _ _) hstorage hstorageAt (by decide)
  have hdependenciesAt := (frames_onItems "dependencies" (defaulting (F := F)
    [("condition", text "ready")])).then hstorageAt
  have hnetwork := settles_networkPass.then local_networkPass hdependencies hdependenciesAt
    (by decide)
  have hnetworkAt := (frames_networkPass (F := F)).then hdependenciesAt
  have hreadiness := settles_normalizeReadiness.then (local_ifPresent (local_onKey _ _)) hnetwork
    hnetworkAt (by decide)
  have hreadinessAt : Frames _ (normalizeReadiness (F := F) >=> _) :=
    (frames_ifPresent (frames_onKey _ _)).then hnetworkAt
  have hruntime := (settles_onKey (lasting_normalizeRuntime (F := F)).settles "runtime").then
    (local_onKey _ _) hreadiness hreadinessAt (by decide)
  have hruntimeAt := (frames_onKey "runtime" (normalizeRuntime (F := F))).then hreadinessAt
  have hworkload := (settles_onKey (settles_normalizeWorkload (F := F)) "workload").then
    (local_onKey _ _) hruntime hruntimeAt (by decide)
  have hworkloadAt := (frames_onKey "workload" (normalizeWorkload (F := F))).then hruntimeAt
  have hempty := hnothing.then_settles hworkload
  have hemptyAt : Frames (["routes".toList, "listeners".toList] ++ _)
      (defaulting (F := F) [("routes", .object []), ("listeners", .object [])] >=> _) :=
    (frames_defaulting _).then hworkloadAt
  exact settles_normalizeFiles.then (local_ifPresent (local_onItems _ _)) hempty hemptyAt (by decide)

theorem settles_normalizeService : Settles (normalizeService (F := F)) := by
  rw [normalizeService_eq]
  exact lasting_headPass.then_settles settles_bodyPass

/-! ## Resources and documents -/

theorem lasting_normalizeResource : Lasting (normalizeResource (F := F)) := by
  have hdefaults : Lasting (defaulting (F := F) [("scope", text "system"),
      ("capabilities", .array [text "read"]), ("backup", .object [("enabled".toList, boolean false),
        ("consistency".toList, text "filesystem")])]) :=
    lasting_defaulting (by simp [Dict, DictItems, DictEntries])
  have hbackup : Lasting (defaulting (F := F) [("enabled", boolean false),
      ("consistency", text "filesystem")]) := lasting_defaulting (by simp)
  have hbrowser : Lasting (defaulting (F := F)
      [("fileBrowser", .object [("visible".toList, boolean false)])]) :=
    lasting_defaulting (by simp [Dict, DictEntries])
  have hvisible : Lasting (defaulting (F := F) [("visible", boolean false)]) :=
    lasting_defaulting (by simp)
  exact hdefaults.then ((lasting_onKey hbackup "backup").then
    (hbrowser.then (lasting_onKey hvisible "fileBrowser")))

def ObjectAt (key : String) (p : Object F → Prop) (o : Object F) : Prop :=
  ∀ value, find key.toList o = some value → ∃ v, value = .object v ∧ p v

def BackupShape (document : Object F) : Prop :=
  ObjectAt "backup" (ObjectAt "remote" fun _ ↦ True) document

def remoteDefaults : List (String × Plain F) :=
  [("provider", text "local"), ("scope", text "config-only"), ("rcloneRemote", text ""),
    ("rcloneConfigFile", text "")]

variable {document : Object F}

theorem normalizeBackup_eq (document : Object F) :
    normalizeBackup document = setItem document "backup".toList (.object
      (setItem (asObject (find "backup".toList document)) "remote".toList (.object
        (setDefaults remoteDefaults (asObject (find "remote".toList
          (asObject (find "backup".toList document)))))))) :=
  rfl

/-- Where there is an object under the key, the value is what `asObject` reads. -/
theorem preserved_asObject {p : Object F → Prop} (h : ObjectAt key p document)
    (hv : Preserved (.object (asObject (find key.toList document))) (.object v)) :
    Preserved (.object document) (.object (setItem document key.toList (.object v))) := by
  apply preserved_setItem
  intro old hold
  obtain ⟨o, rfl, -⟩ := h old hold
  rw [hold] at hv
  exact hv

theorem preserved_normalizeBackup (h : BackupShape document) :
    Preserved (.object document) (.object (normalizeBackup document)) := by
  have hremote : ObjectAt "remote" (fun _ ↦ True) (asObject (find "backup".toList document)) := by
    cases hfind : find "backup".toList document with
    | none => exact nofun
    | some value =>
      obtain ⟨backup, rfl, hbackup⟩ := h value hfind
      exact hbackup
  rw [normalizeBackup_eq]
  apply preserved_asObject h
  exact preserved_asObject hremote (preserved_setDefaults _ _)

theorem find_backup_normalizeBackup (document : Object F) :
    ∃ backup remote, find "backup".toList (normalizeBackup document) = some (.object backup) ∧
      find "remote".toList backup = some (.object (setDefaults remoteDefaults remote)) := by
  rw [normalizeBackup_eq]
  exact ⟨_, _, find_setItem_self _ _ _, find_setItem_self _ _ _⟩

theorem normalizeBackup_self (hdict : Dict (.object document)) {backup remote : Object F}
    (hbackup : find "backup".toList document = some (.object backup))
    (hremote : find "remote".toList backup = some (.object (setDefaults remoteDefaults remote))) :
    normalizeBackup document = document := by
  have hagain : setDefaults remoteDefaults (setDefaults remoteDefaults remote) =
      setDefaults remoteDefaults remote := setDefaults_later (.refl _)
  rw [normalizeBackup_eq, hbackup]
  show setItem document _ (.object (setItem backup _ (.object (setDefaults remoteDefaults
    (asObject (find "remote".toList backup)))))) = document
  rw [hremote]
  show setItem document _ (.object (setItem backup _ (.object (setDefaults remoteDefaults
    (setDefaults remoteDefaults remote))))) = document
  rw [hagain, setItem_self (hdict.of_find hbackup).1 hremote, setItem_self hdict.1 hbackup]

def documentPass : Object F → Except Malformed (Object F) :=
  onValues "storageResources" normalizeResource >=>
    onValues "credentials" (defaulting [("required", boolean true)]) >=>
    onValues "networkProfiles" normalizeNetwork >=>
    onValues "services" normalizeService

def documentDefaults : List (String × Plain F) :=
  [("generation", number 1), ("storageResources", .object []), ("credentials", .object []),
    ("networkProfiles", .object [])]

theorem normalize_eq (document : Object F) :
    normalize document = documentPass (normalizeBackup (setDefaults documentDefaults document)) :=
  rfl

theorem settles_documentPass :
    Settles (documentPass (F := F)) ∧
      Frames ["storageResources".toList, "credentials".toList, "networkProfiles".toList,
        "services".toList] (documentPass (F := F)) := by
  have hrequired : Lasting (defaulting (F := F) [("required", boolean true)]) :=
    lasting_defaulting (by simp)
  have hservices := settles_onValues (settles_normalizeService (F := F)) "services"
  have hservicesAt := frames_onValues "services" (normalizeService (F := F))
  have hprofiles := (settles_onValues (settles_normalizeNetwork (F := F)) "networkProfiles").then
    (local_onValues _ _) hservices hservicesAt (by decide)
  have hprofilesAt := (frames_onValues "networkProfiles" (normalizeNetwork (F := F))).then hservicesAt
  have hcredentials := (settles_onValues hrequired.settles "credentials").then
    (local_onValues _ _) hprofiles hprofilesAt (by decide)
  have hcredentialsAt := (frames_onValues "credentials" (defaulting (F := F)
    [("required", boolean true)])).then hprofilesAt
  constructor
  · exact (settles_onValues (lasting_normalizeResource (F := F)).settles "storageResources").then
      (local_onValues _ _) hcredentials hcredentialsAt (by decide)
  · exact (frames_onValues "storageResources" normalizeResource).then hcredentialsAt

theorem normalize_settles {normalized : Object F} (hdict : Dict (.object document))
    (hbackup : BackupShape document) (h : normalize document = .ok normalized) :
    Preserved (.object document) (.object normalized) ∧ normalize normalized = .ok normalized := by
  rw [normalize_eq] at h
  obtain ⟨hsettles, hframes⟩ := settles_documentPass (F := F)
  have hdict₁ : Dict (.object (setDefaults documentDefaults document)) :=
    hdict.setDefaults (by simp [documentDefaults, Dict, DictEntries])
  have hdict₂ := hdict₁.normalizeBackup
  have hdict' := hsettles.keeps _ _ h hdict₂
  have hshape : BackupShape (setDefaults documentDefaults document) := by
    intro value hvalue
    have hframe := frames_defaulting documentDefaults document _ rfl
    rw [hframe "backup".toList (by simp [documentDefaults])] at hvalue
    exact hbackup value hvalue
  have hgrown₂ := (preserved_normalizeBackup hshape).trans (hsettles.preserves _ _ hdict₂ h)
  refine ⟨(preserved_setDefaults documentDefaults document).trans hgrown₂, ?_⟩
  rw [normalize_eq, setDefaults_later hgrown₂]
  obtain ⟨backup, remote, hfind, hremote⟩ :=
    find_backup_normalizeBackup (setDefaults documentDefaults document)
  have hframe := hframes _ _ h "backup".toList (by decide)
  rw [normalizeBackup_self hdict' (hframe.trans hfind) hremote]
  exact hsettles.again _ _ hdict₂ h

end NixNas.Spec
