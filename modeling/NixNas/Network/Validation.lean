import NixNas.Lib.Admission
import NixNas.Lib.Joined
import NixNas.Network.Policy

/-!
# Network checks (`semantic_validate` in `services/nas_v2_spec.py`)

Which policies, listeners and routes of a document are accepted.
-/

open Admission Dictionary Fallible Journal

namespace NixNas.Network

inductive ValidationError where
  | profileVlan (profile : Text)
  | sessionRuntime (service : Text)
  | twoPolicies (service : Text)
  | unknownProfile (service profile : Text)
  | serviceVlan (service : Text)
  | vlanRuntime (service : Text)
  | isolatedRuntime (service : Text)
  | sessionEndpoints (service : Text)
  | listenerRange (service listener : Text)
  | listenerTargetPort (service listener : Text)
  | listenerConflict (service listener : Text) (socket : Protocol × Nat) (owner : Text)
  | routePort (service route : Text) (port : Nat) (conflicts : Finset (Nat × Text × Text))
  deriving DecidableEq

/-- The `code` of the error. -/
def ValidationError.code : ValidationError → String
  | .profileVlan _ | .serviceVlan _ => "network-vlan"
  | .sessionRuntime _ => "runtime-session"
  | .twoPolicies _ => "network-policy"
  | .unknownProfile _ _ => "missing-reference"
  | .vlanRuntime _ => "network-vlan-runtime"
  | .isolatedRuntime _ => "network-isolated-runtime"
  | .sessionEndpoints _ => "network-session-endpoints"
  | .listenerRange _ _ => "listener-range"
  | .listenerTargetPort _ _ => "listener-target-port"
  | .listenerConflict _ _ _ _ => "listener-conflict"
  | .routePort _ _ _ _ => "route-port-conflict"

/-! ## Policies -/

def checkProfile (entry : Text × Policy) : Except ValidationError Unit :=
  if entry.2.vlanId.isSome && entry.2.mode ≠ .isolated then .error (.profileVlan entry.1)
  else .ok ()

/-- `profiles[service["networkProfile"]] if "networkProfile" in service else
service.get("network")`. -/
def declaredPolicy (effective : Effective) (service : Service) : Option Policy :=
  match service.networkProfile with
  | some profile => effective.networkProfiles.lookup profile
  | none => service.network

def checkVlan (id : Text) (service : Service) (policy : Policy) : Except ValidationError Unit :=
  if policy.vlanId.isNone then .ok ()
  else if policy.mode ≠ .isolated then .error (.serviceVlan id)
  else if !service.managed || !service.runtime.isContainer then .error (.vlanRuntime id)
  else .ok ()

def checkIsolated (id : Text) (service : Service) (policy : Policy) :
    Except ValidationError Unit :=
  if policy.mode ≠ .isolated then .ok ()
  else if service.kind ≠ .session && (!service.managed || !service.runtime.isContainer) then
    .error (.isolatedRuntime id)
  else if service.kind = .session && service.hasEndpoints then .error (.sessionEndpoints id)
  else .ok ()

def checkDeclared (id : Text) (service : Service) : Option Policy → Except ValidationError Unit
  | some policy => do
    checkVlan id service policy
    checkIsolated id service policy
  | none => .ok ()

def checkNetwork (effective : Effective) (id : Text) (service : Service) :
    Except ValidationError Unit :=
  if service.kind = .session && service.runtime ≠ .oci then .error (.sessionRuntime id)
  else if service.networkProfile.isSome && service.network.isSome then .error (.twoPolicies id)
  else
    match service.networkProfile with
    | some profile =>
      match effective.networkProfiles.lookup profile with
      | some policy => checkDeclared id service (some policy)
      | none => .error (.unknownProfile id profile)
    | none => checkDeclared id service service.network

/-! ## Listeners -/

abbrev Socket := Protocol × Nat

/-- `_listener_ports`. -/
def Exposure.ports : Exposure → List Nat
  | .port p => [p]
  | .range start stop => List.range' start (stop + 1 - start)

def Listener.sockets (listener : Listener) : List Socket :=
  listener.exposure.ports.map fun port ↦ (listener.protocol, port)

def ownerOf (service endpoint : Text) : Text := service ++ ':' :: endpoint

def checkExposure (service id : Text) (listener : Listener) : Except ValidationError Unit :=
  match listener.exposure with
  | .port _ => .ok ()
  | .range start stop =>
    if stop < start then .error (.listenerRange service id)
    else if listener.targetPort.isSome then .error (.listenerTargetPort service id)
    else .ok ()

def checkListener (service : Text) (owners : Store Socket Text) (entry : Text × Listener) :
    Except ValidationError (Store Socket Text) := do
  checkExposure service entry.1 entry.2
  ((entry.2.sockets.map fun socket ↦ (socket, ownerOf service entry.1)).foldlM reserve
    owners).mapError fun (socket, owner) ↦ .listenerConflict service entry.1 socket owner

def checkService (effective : Effective) (owners : Store Socket Text) (entry : Text × Service) :
    Except ValidationError (Store Socket Text) := do
  checkNetwork effective entry.1 entry.2
  (items entry.2.listeners).foldlM (checkListener entry.1) owners

/-! ## Route publications -/

/-- The names of the loopback host; only ASCII letters lower to theirs. -/
def loopbackNames : List Text := ["127.0.0.1".toList, "localhost".toList, "::1".toList]

def policyMode (effective : Effective) (service : Service) : Mode :=
  match declaredPolicy effective service with
  | some policy => policy.mode
  | none => .host

/-- What a host-mode service holds beside its listeners: a port, the service and the endpoint. -/
def hostOwners (id : Text) (service : Service) : List (Nat × Text × Text) :=
  ((items service.listeners).filterMap fun (listenerId, listener) ↦
    match listener.protocol, listener.targetPort with
    | .tcp, some port => some ((port : Nat), id, ownerOf id listenerId)
    | _, _ => none) ++
  (items service.routes).filterMap fun (routeId, route) ↦
    match route.target with
    | .http host port =>
      if loopbackNames.contains (host.map Char.toLower) then
        some ((port : Nat), id, ownerOf id routeId)
      else none
    | .unixHttp _ => none

def isolatedRoutes (id : Text) (service : Service) : List (Text × Text × Nat) :=
  (items service.routes).filterMap fun (routeId, route) ↦
    match route.target with
    | .http host port =>
      if loopbackNames.contains host then some (id, routeId, (port : Nat)) else none
    | .unixHttp _ => none

def tcpOwners (owners : Store Socket Text) : Finset (Nat × Text × Text) :=
  (owners.keys.filter fun socket ↦ socket.1 = .tcp).image fun socket ↦
    let owner := (owners.lookup socket).getD []
    (socket.2, owner.takeWhile (· ≠ ':'), owner)

/-- One step of the last loop of `_validate_route_publications`. -/
def publishRoute (owners : Finset (Nat × Text × Text)) (entry : Text × Text × Nat) :
    Except ValidationError (Finset (Nat × Text × Text)) :=
  (join owners (entry.2.2, entry.1, ownerOf entry.1 entry.2.1)).mapError
    (.routePort entry.1 entry.2.1 entry.2.2)

def validateRoutePublications (effective : Effective) (listenerOwners : Store Socket Text) :
    Except ValidationError (Finset (Nat × Text × Text)) :=
  let services := items effective.services
  let host := services.flatMap fun (id, service) ↦
    if policyMode effective service = .host then hostOwners id service else []
  let isolated := services.flatMap fun (id, service) ↦
    if policyMode effective service = .isolated then isolatedRoutes id service else []
  (isolated.insertionSort fun a b ↦ a.1 < b.1 ∨ (a.1 = b.1 ∧ a.2.1 ≤ b.2.1)).foldlM publishRoute
    (tcpOwners listenerOwners ∪ host.toFinset)

/-- The network part of `semantic_validate`. -/
def semanticValidate (effective : Effective) : Except ValidationError Unit := do
  (items effective.networkProfiles).forM checkProfile
  let owners ← (items effective.services).foldlM (checkService effective) ∅
  let _ ← validateRoutePublications effective owners
  .ok ()

/-! ## What is accepted -/

def listenerRequests (id : Text) (service : Service) : List (Socket × Text) :=
  (items service.listeners).flatMap fun entry ↦
    entry.2.sockets.map fun socket ↦ (socket, ownerOf id entry.1)

variable {id a b routeId host : Text} {service sa sb : Service} {owners : Store Socket Text}
  {route : Route} {port : Port}

theorem mem_listenerRequests {request : Socket × Text} :
    request ∈ listenerRequests id service ↔
      ∃ entry ∈ items service.listeners, request.1 ∈ entry.2.sockets ∧
        request.2 = ownerOf id entry.1 := by
  unfold listenerRequests
  rw [List.mem_flatMap]
  constructor
  · rintro ⟨entry, hentry, hrequest⟩
    rcases List.mem_map.mp hrequest with ⟨socket, hsocket, rfl⟩
    exact ⟨entry, hentry, hsocket, rfl⟩
  · rintro ⟨entry, hentry, hsocket, howner⟩
    refine ⟨entry, hentry, List.mem_map.mpr ⟨request.1, hsocket, ?_⟩⟩
    rw [← howner]

/-- What `validateRoutePublications` joins, in its order. -/
def routeRequests (effective : Effective) : List (Nat × Text × Text) :=
  (((items effective.services).flatMap fun (id, service) ↦
    if policyMode effective service = .isolated then isolatedRoutes id service else []).insertionSort
      fun a b ↦ a.1 < b.1 ∨ (a.1 = b.1 ∧ a.2.1 ≤ b.2.1)).map
    fun entry ↦ (entry.2.2, entry.1, ownerOf entry.1 entry.2.1)

def hostRequests (effective : Effective) : List (Nat × Text × Text) :=
  (items effective.services).flatMap fun (id, service) ↦
    if policyMode effective service = .host then hostOwners id service else []

/-- What the checks leave of a document that passes them. -/
structure Accepted (effective : Effective) : Prop where
  profiles : ∀ entry ∈ items effective.networkProfiles, entry.2.vlanId.isSome → entry.2.mode = .isolated
  network : ∀ entry ∈ items effective.services, checkNetwork effective entry.1 entry.2 = .ok ()
  exposures : ∀ entry ∈ items effective.services, ∀ listener ∈ items entry.2.listeners,
    checkExposure entry.1 listener.1 listener.2 = .ok ()
  owners : ∃ owners,
    run reserving ∅ ((items effective.services).flatMap fun entry ↦
      listenerRequests entry.1 entry.2) = .ok owners ∧
    ∃ all, run joining (tcpOwners owners ∪ (hostRequests effective).toFinset)
      (routeRequests effective) = .ok all

theorem checkService_ok {effective : Effective} {owners' : Store Socket Text}
    {entry : Text × Service} (h : checkService effective owners entry = .ok owners') :
    checkNetwork effective entry.1 entry.2 = .ok () ∧
      (∀ listener ∈ items entry.2.listeners,
        checkExposure entry.1 listener.1 listener.2 = .ok ()) ∧
      run reserving owners (listenerRequests entry.1 entry.2) = .ok owners' := by
  unfold checkService at h
  rcases bind_ok h with ⟨_, hnetwork, h⟩
  have hsteps : ∀ s listener s', checkListener entry.1 s listener = .ok s' →
      checkExposure entry.1 listener.1 listener.2 = .ok () ∧
        run reserving s (listener.2.sockets.map fun socket ↦
          (socket, ownerOf entry.1 listener.1)) = .ok s' := by
    intro s listener s' hstep
    unfold checkListener at hstep
    rcases bind_ok hstep with ⟨_, hexposure, hstep⟩
    exact ⟨hexposure, mapError_ok.mp hstep⟩
  refine ⟨hnetwork, ?_, run_flatMap (fun s b s' hs => (hsteps s b s' hs).2) h⟩
  intro listener hlistener
  rcases foldlM_step h hlistener with ⟨s, s', hs⟩
  exact (hsteps s listener s' hs).1

theorem accepted_of_valid {effective : Effective} (h : semanticValidate effective = .ok ()) :
    Accepted effective := by
  unfold semanticValidate at h
  rcases bind_ok h with ⟨_, hprofiles, h⟩
  rcases bind_ok h with ⟨owners, howners, h⟩
  rcases bind_ok h with ⟨all, hall, _⟩
  constructor
  · intro entry hentry hvlan
    have hcheck := forM_ok hprofiles entry hentry
    unfold checkProfile at hcheck
    split at hcheck
    · cases hcheck
    · rename_i hmode
      simpa [hvlan] using hmode
  · intro entry hentry
    rcases foldlM_step howners hentry with ⟨s, s', hs⟩
    exact (checkService_ok hs).1
  · intro entry hentry
    rcases foldlM_step howners hentry with ⟨s, s', hs⟩
    exact (checkService_ok hs).2.1
  · refine ⟨owners, ?_, all, ?_⟩
    · apply run_flatMap _ howners
      intro s entry s' hs
      exact (checkService_ok hs).2.2
    unfold validateRoutePublications at hall
    unfold routeRequests
    rw [List.map_eq_flatMap]
    apply run_flatMap _ hall
    intro s entry s' hs
    unfold publishRoute at hs
    show (join s _ >>= _) = _
    rw [mapError_ok.mp hs]
    rfl

/-! ## Policies of accepted services -/

variable {effective : Effective}

theorem checkNetwork_ok (h : checkNetwork effective id service = .ok ()) :
    (service.kind = .session → service.runtime = .oci) ∧
      (∀ profile, service.networkProfile = some profile → service.network = none ∧
        ∃ policy, effective.networkProfiles.lookup profile = some policy) ∧
      ∀ policy, declaredPolicy effective service = some policy →
        checkVlan id service policy = .ok () ∧ checkIsolated id service policy = .ok () := by
  unfold checkNetwork at h
  unfold declaredPolicy
  have hdeclared : ∀ {declared : Option Policy}, checkDeclared id service declared = .ok () →
      ∀ policy, declared = some policy →
        checkVlan id service policy = .ok () ∧ checkIsolated id service policy = .ok () := by
    rintro declared hok policy rfl
    rcases bind_ok hok with ⟨_, hvlan, hisolated⟩
    exact ⟨hvlan, hisolated⟩
  split at h
  · cases h
  · rename_i hsession
    split at h
    · cases h
    · rename_i hboth
      refine ⟨by simpa using hsession, ?_⟩
      cases hprofile : service.networkProfile with
      | none =>
        rw [hprofile] at h
        exact ⟨nofun, hdeclared h⟩
      | some profile =>
        rw [hprofile] at h
        simp only at h
        cases hlookup : effective.networkProfiles.lookup profile with
        | none =>
          rw [hlookup] at h
          cases h
        | some policy =>
          rw [hlookup] at h
          constructor
          · rintro other heq
            cases heq
            exact ⟨by simpa [hprofile] using hboth, policy, hlookup⟩
          · rw [show (match some profile with
              | some profile => effective.networkProfiles.lookup profile
              | none => service.network) = some policy from hlookup]
            exact hdeclared h

theorem Accepted.policy (h : Accepted effective) {id : Text} {service : Service}
    (hservice : (id, service) ∈ items effective.services) :
    ∃ policy, networkPolicy effective service = .ok policy ∧
      policy = (declaredPolicy effective service).getD hostPolicy := by
  rcases checkNetwork_ok (h.network _ hservice) with ⟨_, hprofile, _⟩
  unfold networkPolicy declaredPolicy
  cases hname : service.networkProfile with
  | none => exact ⟨_, rfl, rfl⟩
  | some profile =>
    rcases hprofile profile hname with ⟨_, policy, hpolicy⟩
    simp only [hpolicy]
    exact ⟨policy, rfl, rfl⟩

/-! ## One owner -/

theorem colon_notMem (h : (id, service) ∈ items effective.services) : ':' ∉ id := by
  have hkey : id ∈ effective.services.keys := by
    rw [← keys_items]
    exact List.mem_map_of_mem h
  intro hcolon
  have hchar := schemaIdChar (effective.identifiers id hkey) ':' hcolon
  revert hchar
  decide

theorem Accepted.listener_owner (h : Accepted effective) {l m : Text}
    {la lb : Listener} {socket : Socket} (ha : (a, sa) ∈ items effective.services)
    (hb : (b, sb) ∈ items effective.services) (hla : (l, la) ∈ items sa.listeners)
    (hlb : (m, lb) ∈ items sb.listeners) (hsa : socket ∈ la.sockets) (hsb : socket ∈ lb.sockets) :
    a = b ∧ l = m := by
  rcases h.owners with ⟨owners, howners, _⟩
  have hreq : ∀ {c n : Text} {sc : Service} {lc : Listener}, (c, sc) ∈ items effective.services →
      (n, lc) ∈ items sc.listeners → socket ∈ lc.sockets →
      (socket, ownerOf c n) ∈ (items effective.services).flatMap fun entry ↦
        listenerRequests entry.1 entry.2 := by
    intro c n sc lc hc hn hsocket
    exact List.mem_flatMap.mpr ⟨_, hc, mem_listenerRequests.mpr ⟨_, hn, hsocket, rfl⟩⟩
  have howner : ownerOf a l = ownerOf b m := by
    by_contra hne
    have hdiffer : (socket, ownerOf a l) ≠ (socket, ownerOf b m) := by
      intro heq
      exact hne (congrArg Prod.snd heq)
    have hsymm : ∀ e d : Socket × Text, reserving.Agree e d → reserving.Agree d e :=
      fun e d hed => Ne.symm hed
    exact agree_of_run hsymm howners (hreq ha hla hsa) (hreq hb hlb hsb) hdiffer rfl
  exact (Joined.join_inj (colon_notMem ha) (colon_notMem hb)).mp howner

theorem mem_routeRequests (hservice : (id, service) ∈ items effective.services)
    (hmode : policyMode effective service = .isolated) (hroute : (routeId, route) ∈ items service.routes)
    (htarget : route.target = .http host port) (hhost : loopbackNames.contains host = true) :
    ((port : Nat), id, ownerOf id routeId) ∈ routeRequests effective := by
  unfold routeRequests
  rw [List.mem_map]
  refine ⟨(id, routeId, port), ?_, rfl⟩
  rw [List.mem_insertionSort, List.mem_flatMap]
  refine ⟨(id, service), hservice, ?_⟩
  simp only [hmode, if_true]
  unfold isolatedRoutes
  rw [List.mem_filterMap]
  refine ⟨(routeId, route), hroute, ?_⟩
  simp only [htarget, hhost, if_true]

/-- The sockets of the listeners, as `_validate_route_publications` regroups them. -/
theorem mem_tcpOwners {listenerId : Text} {port : Nat}
    (hid : ':' ∉ id) (h : owners.lookup (.tcp, port) = some (ownerOf id listenerId)) :
    (port, id, ownerOf id listenerId) ∈ tcpOwners owners := by
  unfold tcpOwners
  rw [Finset.mem_image]
  refine ⟨(.tcp, port), ?_, ?_⟩
  · rw [Finset.mem_filter, Finmap.mem_keys]
    exact ⟨Finmap.mem_of_lookup_eq_some h, rfl⟩
  · have htake : (ownerOf id listenerId).takeWhile (· ≠ ':') = id := by
      unfold ownerOf
      rw [List.takeWhile_append_of_pos]
      · simp
      · intro c hc
        rw [decide_eq_true_eq]
        rintro rfl
        exact hid hc
    simp only [h, Option.getD_some, htake]

/-- A TCP port that a service holds against the isolated routes of the others. -/
inductive HoldsPort (effective : Effective) (id : Text) (service : Service) : Nat → Prop
  | listener {listenerId : Text} {listener : Listener} {port : Nat}
      (hlistener : (listenerId, listener) ∈ items service.listeners)
      (hsocket : (.tcp, port) ∈ listener.sockets) : HoldsPort effective id service port
  | targetPort {listenerId : Text} {listener : Listener} {port : Port}
      (hmode : policyMode effective service = .host)
      (hlistener : (listenerId, listener) ∈ items service.listeners)
      (hprotocol : listener.protocol = .tcp) (htarget : listener.targetPort = some port) :
      HoldsPort effective id service port
  | hostRoute {routeId host : Text} {route : Route} {port : Port}
      (hmode : policyMode effective service = .host)
      (hroute : (routeId, route) ∈ items service.routes) (htarget : route.target = .http host port)
      (hhost : loopbackNames.contains (host.map Char.toLower) = true) :
      HoldsPort effective id service port
  | isolatedRoute {routeId host : Text} {route : Route} {port : Port}
      (hmode : policyMode effective service = .isolated)
      (hroute : (routeId, route) ∈ items service.routes) (htarget : route.target = .http host port)
      (hhost : loopbackNames.contains host = true) : HoldsPort effective id service port

theorem mem_hostRequests {request : Nat × Text × Text}
    (hservice : (id, service) ∈ items effective.services)
    (hmode : policyMode effective service = .host) (h : request ∈ hostOwners id service) :
    request ∈ hostRequests effective := by
  unfold hostRequests
  rw [List.mem_flatMap]
  refine ⟨(id, service), hservice, ?_⟩
  simp only [hmode, if_true]
  exact h

theorem Accepted.route_owner (h : Accepted effective) (ha : (a, sa) ∈ items effective.services)
    (hmode : policyMode effective sa = .isolated) (hroute : (routeId, route) ∈ items sa.routes)
    (htarget : route.target = .http host port) (hhost : loopbackNames.contains host = true)
    (hb : (b, sb) ∈ items effective.services) (hholds : HoldsPort effective b sb port) : a = b := by
  rcases h.owners with ⟨owners, howners, all, hall⟩
  have hrequest := mem_routeRequests ha hmode hroute htarget hhost
  -- what is held before the loop over the isolated routes agrees with each of them
  have hheld : ∀ d ∈ tcpOwners owners ∪ (hostRequests effective).toFinset, d.1 = port → d.2.1 = a :=
    fun d hd => (run_ok_iff.mp ⟨all, hall⟩).1 _ hrequest d hd
  have hhost : ∀ d ∈ hostOwners b sb, policyMode effective sb = .host → d.1 = port → d.2.1 = a := by
    intro d hd hmode' hport
    apply hheld d _ hport
    exact Finset.mem_union_right _ (List.mem_toFinset.mpr (mem_hostRequests hb hmode' hd))
  generalize hport : (port : Nat) = n at hholds hheld hhost hrequest
  cases hholds with
  | @listener listenerId listener _ hlistener hsocket =>
    have hlookup : owners.lookup (.tcp, n) = some (ownerOf b listenerId) := by
      apply (held_run howners ((.tcp, n), ownerOf b listenerId)).mpr
      apply Or.inr
      rw [List.mem_flatMap]
      exact ⟨_, hb, mem_listenerRequests.mpr ⟨_, hlistener, hsocket, rfl⟩⟩
    have hmem := mem_tcpOwners (colon_notMem hb) hlookup
    exact (hheld _ (Finset.mem_union_left _ hmem) rfl).symm
  | @targetPort listenerId listener target hmode' hlistener hprotocol htargetPort =>
    have hmem : ((target : Nat), b, ownerOf b listenerId) ∈ hostOwners b sb := by
      unfold hostOwners
      apply List.mem_append_left
      rw [List.mem_filterMap]
      refine ⟨(listenerId, listener), hlistener, ?_⟩
      simp only [hprotocol, htargetPort]
    exact (hhost _ hmem hmode' rfl).symm
  | @hostRoute routeId' host' route' port' hmode' hroute' htarget' hhost' =>
    have hmem : ((port' : Nat), b, ownerOf b routeId') ∈ hostOwners b sb := by
      unfold hostOwners
      apply List.mem_append_right
      rw [List.mem_filterMap]
      refine ⟨(routeId', route'), hroute', ?_⟩
      simp only [htarget', hhost', if_true]
    exact (hhost _ hmem hmode' rfl).symm
  | @isolatedRoute routeId' host' route' port' hmode' hroute' htarget' hhost' =>
    have hrequest' := mem_routeRequests hb hmode' hroute' htarget' hhost'
    have hinst : Std.Symm (joining (K := Nat) (G := Text) (O := Text)).Agree := ⟨fun e d hed hkey =>
      (hed hkey.symm).symm⟩
    exact ((run_ok_iff.mp ⟨all, hall⟩).2.forall_of_forall (fun _ _ _ => rfl) hrequest hrequest' rfl)

end NixNas.Network
