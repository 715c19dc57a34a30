import NixNas.Network.Renderers

/-!
# Where the renderers agree

Compose publishes every listener on all interfaces; `_publish_lines` binds a listener on whose port
a route is served to the loopback address of the route.
-/

open Admission Dictionary Fallible Journal

namespace NixNas.Network

def Ingress.tuples (ingress : Ingress) : List (Option Text × Protocol × Nat × Nat) :=
  ingress.lines.flatMap fun line ↦ line.2.tuples

section

variable (effective : Effective) (names : List Text) (service : Service)

/-- Both renderers succeed or fail together, and publish the same tuples. -/
def RenderersAgree : Prop :=
  ((∃ ingress, applyIsolatedIngress names service = .ok ingress) ↔
    ∃ lines, publishLines effective service = .ok lines) ∧
  ∀ ingress lines, applyIsolatedIngress names service = .ok ingress →
    publishLines effective service = .ok lines →
    ∀ tuple, tuple ∈ ingress.tuples ↔ tuple ∈ lines.flatMap Publication.tuples

/-- All endpoints are in one container, and all routes lead to a loopback host. -/
structure OneContainer (container : Text) : Prop where
  nonempty : container ≠ []
  mem : container ∈ names
  listeners : ∀ entry ∈ items service.listeners, entry.2.runtimeTarget = some container
  routes : ∀ entry ∈ items service.routes, entry.2.runtimeTarget = some container ∧
    ∃ host port, entry.2.target = .http host port ∧ (bindHost host).isSome = true

/-- No route leads to the host port of a single-port TCP listener. -/
def PortsApart : Prop :=
  ∀ r ∈ items service.routes, ∀ l ∈ items service.listeners, ∀ host port p,
    r.2.target = .http host port → l.2.protocol = .tcp → l.2.exposure = .port p → port ≠ p

end

variable {effective : Effective} {names : List Text} {service : Service} {container : Text}
variable {id target : Text} {entry : Text × Route} {l : List (Text × Route)} {line : Publication}
  {e : Socket × (Text × Nat)}

theorem OneContainer.listenerFits (h : OneContainer names service container)
    {entry : Text × Listener} (hentry : entry ∈ items service.listeners)
    (hexposure : checkExposure id entry.1 entry.2 = .ok ()) : ListenerFits names entry.2 := by
  refine ⟨⟨container, h.listeners entry hentry, h.nonempty, h.mem⟩, ?_⟩
  intro start stop hrange
  unfold checkExposure at hexposure
  rw [hrange] at hexposure
  simp only at hexposure
  split at hexposure
  · cases hexposure
  · rename_i hle
    exact not_lt.mp hle

/-- An isolated service of an accepted document is rendered by `isolatedLines`. -/
theorem publishLines_isolated (h : Accepted effective)
    (hservice : (id, service) ∈ items effective.services)
    (hmode : policyMode effective service = .isolated) {lines : List Publication} :
    publishLines effective service = .ok lines ↔
      ∃ published, isolatedLines service = .ok published ∧ published.lines = lines := by
  rcases h.policy hservice with ⟨policy, hpolicy, _⟩
  have hisolated : policy.mode = .isolated := (mode_networkPolicy hpolicy).symm.trans hmode
  unfold publishLines
  rw [hpolicy]
  show (if policy.mode ≠ .isolated then _ else _) = _ ↔ _
  rw [if_neg (not_not.mpr hisolated)]
  constructor
  · intro hlines
    rcases bind_ok hlines with ⟨published, hpublished, hlines⟩
    exact ⟨published, hpublished, Except.ok.inj hlines⟩
  · rintro ⟨published, hpublished, rfl⟩
    rw [hpublished]
    rfl

/-! ## The route loops, side by side -/

/-- The states of the two route loops. -/
structure Paired (container : Text) (IsRoute : Nat → Prop) (ingress : Ingress) (state : Published) :
    Prop where
  lines : state.lines = ingress.lines.map Prod.snd
  sockets : ∀ socket, socket ∈ state.sockets ↔
    ∃ value, ingress.published.lookup socket = some value
  routes : ∀ port value, IsRoute port →
    ingress.published.lookup (.tcp, port) = some value → value = (container, port)

variable {IsRoute : Nat → Prop} {ingress : Ingress} {state : Published}

theorem Paired.route {host bind : Text} {port : Port} (h : Paired container IsRoute ingress state)
    (hruntime : entry.2.runtimeTarget = some container) (hmem : container ≠ [] ∧ container ∈ names)
    (htarget : entry.2.target = .http host port) (hbind : bindHost host = some bind)
    (hroute : IsRoute port) :
    ∃ ingress' state', composeRoute names ingress entry = .ok ingress' ∧
      publishLoopback state entry = .ok state' ∧ Paired container IsRoute ingress' state' := by
  have hcompose := composeRoute_of ingress ⟨container, hruntime, hmem⟩ htarget hbind
  rw [hruntime] at hcompose
  rw [hcompose]
  unfold publishLoopback
  rw [htarget]
  simp only [hbind]
  let line : Publication := ⟨some bind, .tcp, .single port port⟩
  have hclaim : ∃ ingress', publish (.route entry.1) container line ingress = .ok ingress' := by
    rw [publish_ok_iff, run_ok_iff]
    constructor
    · intro claim hclaim held hheld hkey
      rw [List.mem_singleton.mp hclaim] at hkey ⊢
      have hlookup : ingress.published.lookup held.1 = some held.2 := hheld
      rw [hkey] at hlookup
      exact h.routes port held.2 hroute hlookup
    · exact List.pairwise_singleton _ _
  rcases hclaim with ⟨ingress', hpublish⟩
  refine ⟨ingress', ?_⟩
  have hlookup : ∀ {socket : Socket} {value : Text × Nat},
      ingress'.published.lookup socket = some value ↔
        ingress.published.lookup socket = some value ∨
          (socket, value) = ((.tcp, (port : Nat)), (container, (port : Nat))) := by
    intro socket value
    rw [lookup_publish hpublish]
    exact or_congr_right List.mem_singleton
  have hroutes : ∀ p value, IsRoute p →
      ingress'.published.lookup (.tcp, p) = some value → value = (container, p) := by
    intro p value hp hvalue
    rcases hlookup.mp hvalue with hold | hnew
    · exact h.routes p value hp hold
    · rcases Prod.mk.inj hnew with ⟨hsocket, rfl⟩
      rw [(Prod.mk.inj hsocket).2]
  split
  · rename_i hpublished
    refine ⟨state, hpublish, rfl, ?_, ?_, hroutes⟩
    · rw [h.lines, (publish_ok hpublish).2, if_neg]
      rcases (h.sockets _).mp hpublished with ⟨value, hvalue⟩
      simp [lineClaims, line, Ports.mappings, hvalue]
    · intro socket
      rw [h.sockets]
      constructor
      · rintro ⟨value, hvalue⟩
        exact ⟨value, hlookup.mpr (.inl hvalue)⟩
      · rintro ⟨value, hvalue⟩
        rcases hlookup.mp hvalue with hold | hnew
        · exact ⟨value, hold⟩
        · rw [(Prod.mk.inj hnew).1]
          exact (h.sockets _).mp hpublished
  · rename_i hpublished
    have hnone : ∀ socket ∈ line.sockets, ingress.published.lookup socket = none := by
      intro socket hsocket
      rw [List.mem_singleton.mp hsocket, Option.eq_none_iff_forall_ne_some]
      intro value hvalue
      exact hpublished ((h.sockets _).mpr ⟨value, hvalue⟩)
    refine ⟨_, hpublish, rfl, ?_, ?_, hroutes⟩
    · rw [lines_publish hpublish (List.cons_ne_nil _ _) hnone, List.map_append, h.lines]
      rfl
    · intro socket
      show socket ∈ insert _ _ ↔ _
      rw [Finset.mem_insert, h.sockets]
      constructor
      · rintro (rfl | ⟨value, hvalue⟩)
        · exact ⟨_, hlookup.mpr (.inr rfl)⟩
        · exact ⟨value, hlookup.mpr (.inl hvalue)⟩
      · rintro ⟨value, hvalue⟩
        rcases hlookup.mp hvalue with hold | hnew
        · exact .inr ⟨value, hold⟩
        · exact .inl (Prod.mk.inj hnew).1

theorem Paired.run (h : Paired container IsRoute ingress state)
    (hmem : container ≠ [] ∧ container ∈ names)
    (hl : ∀ entry ∈ l, entry.2.runtimeTarget = some container ∧ ∃ host port,
      entry.2.target = .http host port ∧ (bindHost host).isSome = true ∧ IsRoute port) :
    ∃ ingress' state', l.foldlM (composeRoute names) ingress = .ok ingress' ∧
      l.foldlM publishLoopback state = .ok state' ∧ Paired container IsRoute ingress' state' := by
  induction l generalizing ingress state with
  | nil => exact ⟨ingress, state, rfl, rfl, h⟩
  | cons entry l ih =>
    rw [List.forall_mem_cons] at hl
    rcases hl.1 with ⟨hruntime, host, port, htarget, hhost, hroute⟩
    rcases Option.isSome_iff_exists.mp hhost with ⟨bind, hbind⟩
    rcases h.route hruntime hmem htarget hbind hroute with ⟨i, s, hi, hs, hpaired⟩
    rcases ih hpaired hl.2 with ⟨ingress', state', hi', hs', hfinal⟩
    refine ⟨ingress', state', ?_, ?_, hfinal⟩
    · rw [List.foldlM_cons, hi]
      exact hi'
    · rw [List.foldlM_cons, hs]
      exact hs'

/-! ## The listener loops -/

theorem lineClaims_functional {d : Socket × (Text × Nat)}
    (he : e ∈ lineClaims target line) (hd : d ∈ lineClaims target line) (hkey : e.1 = d.1) :
    e.2 = d.2 := by
  unfold lineClaims Ports.mappings at he hd
  rcases line with ⟨bind, protocol, ports⟩
  cases ports with
  | single host port =>
    rw [List.mem_singleton.mp he, List.mem_singleton.mp hd]
  | range start stop =>
    simp only [List.map_map, List.mem_map, Function.comp_apply] at he hd
    rcases he with ⟨m, _, rfl⟩
    rcases hd with ⟨n, _, rfl⟩
    rw [(Prod.mk.inj hkey).2]

theorem mem_lineClaims_socket (h : e ∈ lineClaims target line) : e.1 ∈ line.sockets := by
  rw [← keys_lineClaims target]
  exact List.mem_map_of_mem h

theorem Accepted.same_listener (h : Accepted effective)
    (hservice : (id, service) ∈ items effective.services) {a b : Text × Listener} {socket : Socket}
    (ha : a ∈ items service.listeners) (hb : b ∈ items service.listeners)
    (hsa : socket ∈ a.2.sockets) (hsb : socket ∈ b.2.sockets) : a = b := by
  rcases a with ⟨l, la⟩
  rcases b with ⟨m, lb⟩
  rcases h.listener_owner hservice hservice ha hb hsa hsb with ⟨_, rfl⟩
  rw [eq_of_mem_items ha hb]

theorem listenerClaims_functional (h : Accepted effective)
    (hservice : (id, service) ∈ items effective.services) :
    ∀ e ∈ (byKey service.listeners).flatMap (fun entry ↦ listenerClaims entry.2),
      ∀ d ∈ (byKey service.listeners).flatMap (fun entry ↦ listenerClaims entry.2),
        e.1 = d.1 → e.2 = d.2 := by
  intro e he d hd hkey
  rcases List.mem_flatMap.mp he with ⟨a, ha, hea⟩
  rcases List.mem_flatMap.mp hd with ⟨b, hb, hdb⟩
  have hsa := mem_lineClaims_socket hea
  have hsb := mem_lineClaims_socket hdb
  rw [sockets_ports] at hsa hsb
  rw [hkey] at hsa
  have hab := h.same_listener hservice (mem_byKey.mp ha) (mem_byKey.mp hb) hsa hsb
  rw [← hab] at hdb
  exact lineClaims_functional hea hdb hkey

theorem listeners_ok (h : Accepted effective)
    (hservice : (id, service) ∈ items effective.services) (hone : OneContainer names service container) :
    (∃ ingress, (byKey service.listeners).foldlM (composeListener names) ⟨∅, []⟩ = .ok ingress) ∧
      ∃ state, (byKey service.listeners).foldlM (publishListener (routeBindHosts service)) ⟨∅, []⟩ =
        .ok state := by
  have hexposures := h.exposures _ hservice
  constructor
  · rw [composeListeners_ok_iff]
    constructor
    · intro entry hentry
      exact hone.listenerFits (mem_byKey.mp hentry) (hexposures entry (mem_byKey.mp hentry))
    · rw [run_ok_iff_forall]
      · exact listenerClaims_functional h hservice
      · intro a b hab hkey
        exact (hab hkey.symm).symm
      · intro a _
        rfl
      · intro a ha
        have hlookup : (∅ : Store Socket (Text × Nat)).lookup a.1 = some a.2 := ha
        rw [Finmap.lookup_empty] at hlookup
        cases hlookup
  · apply foldlM_total
    intro entry hentry state
    exact publishListener_ok_of (hexposures entry (mem_byKey.mp hentry))

def IsRoutePort (service : Service) (port : Nat) : Prop :=
  ∃ r ∈ items service.routes, ∃ host p, r.2.target = .http host p ∧ (p : Nat) = port

/-- Where no listener shares its port with a route, the listener loops leave paired states. -/
theorem listeners_paired (h : Accepted effective)
    (hservice : (id, service) ∈ items effective.services) (hone : OneContainer names service container)
    (hports : PortsApart service)
    (hcompose : (byKey service.listeners).foldlM (composeListener names) ⟨∅, []⟩ = .ok ingress)
    (hquadlet : (byKey service.listeners).foldlM (publishListener (routeBindHosts service)) ⟨∅, []⟩ =
      .ok state) : Paired container (IsRoutePort service) ingress state := by
  have hlookup : ∀ {socket : Socket} {value : Text × Nat},
      ingress.published.lookup socket = some value ↔
        ∃ entry ∈ items service.listeners, (socket, value) ∈ listenerClaims entry.2 := by
    intro socket value
    have hheld := held_run (composeListeners_published hcompose) (socket, value)
    rw [show claiming.Held ingress.published (socket, value) ↔
      ingress.published.lookup socket = some value from Iff.rfl] at hheld
    rw [hheld, List.mem_flatMap]
    constructor
    · rintro (hempty | ⟨entry, hentry, hclaim⟩)
      · have hnone : (∅ : Store Socket (Text × Nat)).lookup socket = some value := hempty
        rw [Finmap.lookup_empty] at hnone
        cases hnone
      · exact ⟨entry, mem_byKey.mp hentry, hclaim⟩
    · rintro ⟨entry, hentry, hclaim⟩
      exact .inr ⟨entry, mem_byKey.mpr hentry, hclaim⟩
  have hnew : ∀ entry ∈ byKey service.listeners, ∀ socket ∈ entry.2.sockets,
      (⟨∅, []⟩ : Ingress).published.lookup socket = none := fun _ _ _ _ => Finmap.lookup_empty _
  have hempty : ∀ entry ∈ byKey service.listeners, ∀ socket ∈ entry.2.sockets,
      socket ∉ (⟨∅, []⟩ : Published).sockets := fun _ _ socket _ => Finset.notMem_empty socket
  rcases sound_empty.listeners (h.apart hservice) hempty hquadlet with ⟨_, hmem⟩
  constructor
  · rw [publishListeners_lines hquadlet, composeListeners_lines (h.apart hservice) hnew hcompose,
      List.nil_append, List.nil_append, List.map_map]
    apply List.map_congr_left
    intro entry hentry
    show listenerLine (routeBindHosts service) entry.2 = (composeLine entry).2
    unfold listenerLine composeLine
    cases hexposure : entry.2.exposure with
    | range start stop => rfl
    | port port =>
      have hnone : (routeBindHosts service).lookup (entry.2.protocol, (port : Nat)) = none := by
        rw [← Option.not_isSome_iff_eq_none, routeBindHosts_isSome]
        rintro ⟨r, hr, host, p, htarget, _, hsocket⟩
        rcases Prod.mk.inj hsocket with ⟨hprotocol, hport⟩
        exact hports r hr entry (mem_byKey.mp hentry) host p port htarget hprotocol hexposure
          (Subtype.ext hport.symm)
      simp only [hnone]
  · intro socket
    rw [hmem]
    constructor
    · rintro (hin | ⟨entry, hentry, hsocket⟩)
      · exact (Finset.notMem_empty _ hin).elim
      · rw [← sockets_ports entry.2 none, ← keys_lineClaims (entry.2.runtimeTarget.getD [])]
          at hsocket
        rcases List.mem_map.mp hsocket with ⟨claim, hclaim, rfl⟩
        exact ⟨claim.2, hlookup.mpr ⟨entry, mem_byKey.mp hentry, hclaim⟩⟩
    · rintro ⟨value, hvalue⟩
      rcases hlookup.mp hvalue with ⟨entry, hentry, hclaim⟩
      have hsocket := mem_lineClaims_socket hclaim
      rw [sockets_ports] at hsocket
      exact .inr ⟨entry, mem_byKey.mpr hentry, hsocket⟩
  · rintro port value ⟨r, hr, host, p, htarget, rfl⟩ hvalue
    rcases hlookup.mp hvalue with ⟨entry, hentry, hclaim⟩
    unfold listenerClaims at hclaim
    rw [hone.listeners entry hentry] at hclaim
    unfold lineClaims Ports.mappings Listener.ports at hclaim
    cases hexposure : entry.2.exposure with
    | port q =>
      simp only [hexposure, List.map_cons, List.map_nil, List.mem_singleton, Prod.mk.injEq] at hclaim
      exact (hports r hr entry hentry host p q htarget hclaim.1.1.symm hexposure
        (Subtype.ext hclaim.1.2)).elim
    | range start stop =>
      simp only [hexposure, List.map_map, List.mem_map, Function.comp_apply, Prod.mk.injEq] at hclaim
      rcases hclaim with ⟨m, _, ⟨_, rfl⟩, rfl⟩
      rfl

/-! ## The condition -/

theorem publishLoopback_ok (hone : OneContainer names service container)
    (hentry : entry ∈ items service.routes) (state : Published) :
    ∃ state', publishLoopback state entry = .ok state' := by
  rcases (hone.routes entry hentry).2 with ⟨host, port, htarget, hhost⟩
  rcases Option.isSome_iff_exists.mp hhost with ⟨bind, hbind⟩
  unfold publishLoopback
  rw [htarget]
  simp only [hbind]
  split
  · exact ⟨_, rfl⟩
  · exact ⟨_, rfl⟩

theorem mem_tuples {tuple : Option Text × Protocol × Nat × Nat}
    (h : tuple ∈ line.tuples) : line.bind = tuple.1 ∧ (tuple.2.1, tuple.2.2.1) ∈ line.sockets := by
  unfold Publication.tuples at h
  rcases List.mem_map.mp h with ⟨mapping, hmapping, rfl⟩
  exact ⟨rfl, List.mem_map.mpr ⟨mapping, hmapping, rfl⟩⟩

theorem composeRoutes_lines {ingress' : Ingress}
    (h : l.foldlM (composeRoute names) ingress = .ok ingress') : ingress.lines ⊆ ingress'.lines := by
  induction l generalizing ingress with
  | nil =>
    cases h
    exact List.Subset.refl _
  | cons entry l ih =>
    rw [List.foldlM_cons] at h
    rcases bind_ok h with ⟨t, ht, h⟩
    rcases composeRoute_eq ht with ⟨_, _, _, _, _, _, hpublish⟩
    refine List.Subset.trans ?_ (ih h)
    rw [(publish_ok hpublish).2]
    split
    · exact List.subset_append_left _ _
    · exact List.Subset.refl _

theorem loopback_lines {state' : Published}
    (h : l.foldlM publishLoopback state = .ok state') : state.lines ⊆ state'.lines := by
  induction l generalizing state with
  | nil =>
    cases h
    exact List.Subset.refl _
  | cons entry l ih =>
    rw [List.foldlM_cons] at h
    rcases bind_ok h with ⟨t, ht, h⟩
    refine List.Subset.trans ?_ (ih h)
    unfold publishLoopback at ht
    split at ht
    · cases ht
    · split at ht
      · cases ht
      · split at ht
        · cases ht
          exact List.Subset.refl _
        · cases ht
          exact List.subset_append_left _ _

/-- The renderers agree on an isolated service exactly when no route leads to the host port of one
of its single-port TCP listeners. -/
theorem renderersAgree_iff (h : semanticValidate effective = .ok ()) {id : Text}
    (hservice : (id, service) ∈ items effective.services)
    (hmode : policyMode effective service = .isolated)
    (hone : OneContainer names service container) :
    RenderersAgree effective names service ↔ PortsApart service := by
  have haccepted := accepted_of_valid h
  rcases listeners_ok haccepted hservice hone with ⟨⟨ingress, hcompose⟩, state, hquadlet⟩
  constructor
  · rintro ⟨hok, htuples⟩ r hr l hl host p q htarget hprotocol hexposure rfl
    -- the Quadlet renderer succeeds whatever the routes are
    rcases foldlM_total (fun entry hentry => publishLoopback_ok hone (mem_byKey.mp hentry)) state with
      ⟨final, hfinal⟩
    have hisolated : isolatedLines service = .ok final := by
      unfold isolatedLines
      rw [hquadlet]
      exact hfinal
    have hlines := (publishLines_isolated haccepted hservice hmode).mpr ⟨final, hisolated, rfl⟩
    rcases hok.mpr ⟨_, hlines⟩ with ⟨ingress', hingress'⟩
    -- the claims of the listener and of the route are for one container port
    have hclaims := (applyIsolatedIngress_ok_iff.mp ⟨ingress', hingress'⟩).2.2
    have hports : l.2.ports = .single p ((l.2.targetPort.getD p : Port) : Nat) := by
      unfold Listener.ports
      rw [hexposure]
    have hclaim : ((l.2.protocol, (p : Nat)), (container, ((l.2.targetPort.getD p : Port) : Nat))) ∈
        ingressClaims service := by
      unfold ingressClaims
      apply List.mem_append_left
      rw [List.mem_flatMap]
      refine ⟨l, mem_byKey.mpr hl, ?_⟩
      unfold listenerClaims lineClaims
      rw [hports, hone.listeners l hl]
      exact .head _
    have hclaim' : ((Protocol.tcp, (p : Nat)), (container, (p : Nat))) ∈ ingressClaims service := by
      unfold ingressClaims
      apply List.mem_append_right
      rw [List.mem_flatMap]
      refine ⟨r, mem_byKey.mpr hr, ?_⟩
      rw [routeClaims_eq htarget none, (hone.routes r hr).1]
      exact .head _
    have hport : ((l.2.targetPort.getD p : Port) : Nat) = p := by
      have heq := hclaims _ hclaim _ hclaim' (by rw [hprotocol])
      exact (Prod.mk.inj heq).2
    rw [hport] at hports
    -- so Compose publishes the port on every interface
    have htuple : (none, Protocol.tcp, (p : Nat), (p : Nat)) ∈ ingress'.tuples := by
      unfold applyIsolatedIngress at hingress'
      rw [hcompose] at hingress'
      unfold Ingress.tuples
      rw [List.mem_flatMap]
      refine ⟨composeLine l, composeRoutes_lines hingress' ?_, ?_⟩
      · rw [composeListeners_lines (haccepted.apart hservice)
          (fun _ _ _ _ => Finmap.lookup_empty _) hcompose]
        exact List.mem_map_of_mem (mem_byKey.mpr hl)
      · unfold composeLine Publication.tuples
        rw [hports, hprotocol]
        exact .head _
    rcases List.mem_flatMap.mp ((htuples _ _ hingress' hlines _).mp htuple) with ⟨line, hline, hin⟩
    rcases mem_tuples hin with ⟨hbind, hsocket⟩
    -- and the only Quadlet line with that socket is the one of the listener, which is bound
    have hempty : ∀ entry ∈ byKey service.listeners, ∀ socket ∈ entry.2.sockets,
        socket ∉ (⟨∅, []⟩ : Published).sockets := fun _ _ socket _ => Finset.notMem_empty socket
    have hsound := ((sound_empty.listeners (haccepted.apart hservice) hempty hquadlet).1.routes
      hfinal).1
    have hown : listenerLine (routeBindHosts service) l.2 ∈ final.lines := by
      apply loopback_lines hfinal
      rw [publishListeners_lines hquadlet]
      exact List.mem_map.mpr ⟨l, mem_byKey.mpr hl, rfl⟩
    have hownSocket : (Protocol.tcp, (p : Nat)) ∈
        (listenerLine (routeBindHosts service) l.2).sockets := by
      rw [sockets_listenerLine]
      unfold Listener.sockets
      rw [hexposure, hprotocol]
      exact .head _
    have heq : line = listenerLine (routeBindHosts service) l.2 := by
      by_contra hne
      have hsymm : Std.Symm fun a b : Publication ↦ ∀ socket ∈ a.sockets, socket ∉ b.sockets :=
        ⟨fun a b hab socket hb ha => hab socket ha hb⟩
      exact hsound.apart.forall hline hown hne _ hsocket hownSocket
    have hbound : ((routeBindHosts service).lookup (.tcp, (p : Nat))).isSome := by
      rcases (hone.routes r hr).2 with ⟨host', port', htarget', hhost'⟩
      rw [htarget] at htarget'
      cases htarget'
      exact routeBindHosts_isSome.mpr ⟨r, hr, host, p, htarget, hhost', rfl⟩
    rw [heq] at hbind
    unfold listenerLine at hbind
    rw [hexposure, hprotocol] at hbind
    simp only at hbind
    rw [hbind] at hbound
    cases hbound
  · intro hports
    have hpaired := listeners_paired haccepted hservice hone hports hcompose hquadlet
    have hroutes : ∀ entry ∈ byKey service.routes, entry.2.runtimeTarget = some container ∧
        ∃ host port, entry.2.target = .http host port ∧ (bindHost host).isSome = true ∧
          IsRoutePort service port := by
      intro entry hentry
      have hitem := mem_byKey.mp hentry
      rcases hone.routes entry hitem with ⟨hruntime, host, port, htarget, hhost⟩
      exact ⟨hruntime, host, port, htarget, hhost, entry, hitem, host, port, htarget, rfl⟩
    rcases hpaired.run ⟨hone.nonempty, hone.mem⟩ hroutes with
      ⟨ingress', state', hingress', hstate', hfinal⟩
    have happly : applyIsolatedIngress names service = .ok ingress' := by
      unfold applyIsolatedIngress
      rw [hcompose]
      exact hingress'
    have hisolated : isolatedLines service = .ok state' := by
      unfold isolatedLines
      rw [hquadlet]
      exact hstate'
    have hlines := (publishLines_isolated haccepted hservice hmode).mpr ⟨state', hisolated, rfl⟩
    refine ⟨⟨fun _ => ⟨_, hlines⟩, fun _ => ⟨_, happly⟩⟩, ?_⟩
    intro i lines hi hl tuple
    cases happly.symm.trans hi
    cases hlines.symm.trans hl
    unfold Ingress.tuples
    rw [hfinal.lines, List.flatMap_map]

def web (listenerPort routePort : Port) : Service :=
  ⟨true, true, .compose, .daemon, some ⟨.isolated, none, none, .deny, false, [], []⟩, none,
    .singleton "http".toList ⟨.tcp, .port listenerPort, none, some "app".toList⟩,
    .singleton "home".toList ⟨.http "127.0.0.1".toList routePort, some "app".toList⟩⟩

def webOnly (listenerPort routePort : Port) : Effective :=
  ⟨∅, .singleton "web".toList (web listenerPort routePort),
    forall_mem_of_all (l := ["web".toList]) (by decide)⟩

theorem mem_webOnly (listenerPort routePort : Port) :
    ("web".toList, web listenerPort routePort) ∈ items (webOnly listenerPort routePort).services :=
  .head _

theorem oneContainer_web (listenerPort routePort : Port) :
    OneContainer ["app".toList] (web listenerPort routePort) "app".toList where
  nonempty := by decide
  mem := .head _
  listeners entry hentry := by
    cases List.mem_singleton.mp hentry
    rfl
  routes entry hentry := by
    cases List.mem_singleton.mp hentry
    exact ⟨rfl, "127.0.0.1".toList, routePort, rfl, by decide⟩

theorem webPort_bounds : 1 ≤ 8080 ∧ 8080 ≤ 65535 := by decide

def webPort : Port := ⟨8080, webPort_bounds⟩

def adminPort : Port := ⟨9000, by decide⟩

/-- The listener backs the route: Compose opens it to every interface. -/
theorem not_renderersAgree_webPort : semanticValidate (webOnly webPort webPort) = .ok () ∧
    policyMode (webOnly webPort webPort) (web webPort webPort) = .isolated ∧
    OneContainer ["app".toList] (web webPort webPort) "app".toList ∧
    ¬ RenderersAgree (webOnly webPort webPort) ["app".toList] (web webPort webPort) := by
  have hvalid : isOk (semanticValidate (webOnly webPort webPort)) = true := by decide
  rcases exists_of_isOk hvalid with ⟨_, hvalid⟩
  refine ⟨hvalid, rfl, oneContainer_web _ _, ?_⟩
  rintro ⟨_, htuples⟩
  have hcompose : ((applyIsolatedIngress ["app".toList] (web webPort webPort)).map
      fun ingress ↦ ingress.tuples) = .ok [(none, .tcp, 8080, 8080)] := by
    decide
  have hquadlet : publishLines (webOnly webPort webPort) (web webPort webPort) =
      .ok [⟨some "127.0.0.1".toList, .tcp, .single 8080 8080⟩] := by
    decide
  rcases map_ok hcompose with ⟨ingress, hingress, hlist⟩
  have hmem := htuples _ _ hingress hquadlet (none, .tcp, 8080, 8080)
  rw [hlist] at hmem
  exact absurd (hmem.mp (.head _)) (by decide)

theorem renderersAgree_iff_adminPort :
    RenderersAgree (webOnly adminPort webPort) ["app".toList] (web adminPort webPort) := by
  have hvalid : isOk (semanticValidate (webOnly adminPort webPort)) = true := by decide
  rcases exists_of_isOk hvalid with ⟨_, hvalid⟩
  rw [renderersAgree_iff hvalid (mem_webOnly _ _) rfl (oneContainer_web _ _)]
  intro r hr l hl host port p htarget hprotocol hexposure
  rw [List.mem_singleton.mp hr] at htarget
  rw [List.mem_singleton.mp hl] at hexposure
  cases htarget
  cases hexposure
  decide

end NixNas.Network
