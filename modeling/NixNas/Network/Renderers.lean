import NixNas.Network.Publications

/-!
# Two renderers of one ingress

When `_apply_isolated_ingress` succeeds, and when it publishes what `_publish_lines` does.
-/

open Admission Dictionary Fallible Journal

namespace NixNas.Network

def lineClaims (target : Text) (line : Publication) : List (Socket × (Text × Nat)) :=
  line.ports.mappings.map fun mapping ↦ ((line.protocol, mapping.1), (target, mapping.2))

def listenerClaims (listener : Listener) : List (Socket × (Text × Nat)) :=
  lineClaims (listener.runtimeTarget.getD []) ⟨none, listener.protocol, listener.ports⟩

def routeClaims (route : Route) : List (Socket × (Text × Nat)) :=
  match route.target with
  | .http _ port => lineClaims (route.runtimeTarget.getD []) ⟨none, .tcp, .single port port⟩
  | .unixHttp _ => []

def ingressClaims (service : Service) : List (Socket × (Text × Nat)) :=
  (byKey service.listeners).flatMap (fun entry ↦ listenerClaims entry.2) ++
    (byKey service.routes).flatMap fun entry ↦ routeClaims entry.2

def HasTarget (names : List Text) (runtimeTarget : Option Text) : Prop :=
  ∃ target, runtimeTarget = some target ∧ target ≠ [] ∧ target ∈ names

def ListenerFits (names : List Text) (listener : Listener) : Prop :=
  HasTarget names listener.runtimeTarget ∧
    ∀ start stop, listener.exposure = .range start stop → start ≤ stop

def RouteFits (names : List Text) (route : Route) : Prop :=
  HasTarget names route.runtimeTarget ∧
    ∃ host port, route.target = .http host port ∧ (bindHost host).isSome = true

variable {names : List Text}
variable {target host : Text} {endpoint : Endpoint} {line : Publication}
  {ingress ingress' : Ingress} {entry : Text × Listener} {port : Port} {l : List (Text × Listener)}
  {service : Service} {socket : Socket} {hosts : Store Socket Text} {state : Published}

theorem composeIngressTarget_ok_iff (endpoint : Endpoint) {runtimeTarget : Option Text}
    : composeIngressTarget names endpoint runtimeTarget = .ok target ↔
      runtimeTarget = some target ∧ target ≠ [] ∧ target ∈ names := by
  unfold composeIngressTarget
  split
  · constructor
    · exact nofun
    · rintro ⟨h, _⟩
      cases h
  · constructor
    · exact nofun
    · rintro ⟨h, hne, _⟩
      cases h
      exact (hne rfl).elim
  · rename_i found hne
    split
    · rename_i hmem
      constructor
      · intro h
        cases h
        refine ⟨rfl, ?_, List.contains_iff_mem.mp hmem⟩
        rintro rfl
        exact hne rfl
      · rintro ⟨h, _⟩
        cases h
        rfl
    · rename_i hmem
      constructor
      · exact nofun
      · rintro ⟨h, _, hin⟩
        cases h
        exact (hmem (List.contains_iff_mem.mpr hin)).elim

theorem publish_ok (h : publish endpoint target line ingress = .ok ingress') :
    run claiming ingress.published (lineClaims target line) = .ok ingress'.published ∧
      ingress'.lines =
        if (lineClaims target line).any fun entry ↦ (ingress.published.lookup entry.1).isNone then
          ingress.lines ++ [(target, line)]
        else ingress.lines := by
  unfold publish at h
  rcases bind_ok h with ⟨published, hpublished, h⟩
  cases h
  exact ⟨mapError_ok.mp hpublished, rfl⟩

theorem publish_ok_iff : (∃ ingress', publish endpoint target line ingress = .ok ingress') ↔
      ∃ published, run claiming ingress.published (lineClaims target line) = .ok published := by
  constructor
  · rintro ⟨ingress', h⟩
    exact ⟨_, (publish_ok h).1⟩
  · rintro ⟨published, h⟩
    unfold publish
    have hclaims : (((line.ports.mappings.map fun mapping ↦
        ((line.protocol, mapping.1), (target, mapping.2))).foldlM claim
          ingress.published).mapError fun held ↦ ComposeError.conflict endpoint held.1) =
        .ok published := mapError_ok.mpr h
    simp only
    rw [hclaims]
    exact ⟨_, rfl⟩

theorem composeListener_eq (h : composeListener names ingress entry = .ok ingress') :
    ListenerFits names entry.2 ∧
      publish (.listener entry.1) (entry.2.runtimeTarget.getD [])
        ⟨none, entry.2.protocol, entry.2.ports⟩ ingress = .ok ingress' := by
  unfold composeListener at h
  rcases bind_ok h with ⟨target, htarget, h⟩
  rw [composeIngressTarget_ok_iff] at htarget
  rw [htarget.1]
  split at h
  · rename_i port hexposure
    refine ⟨⟨⟨target, htarget.1, htarget.2⟩, ?_⟩, h⟩
    intro start stop hrange
    rw [hexposure] at hrange
    cases hrange
  · rename_i start stop hexposure
    split at h
    · cases h
    · rename_i hle
      refine ⟨⟨⟨target, htarget.1, htarget.2⟩, ?_⟩, h⟩
      intro start' stop' hrange
      rw [hexposure] at hrange
      cases hrange
      exact not_lt.mp hle

theorem composeListener_of (h : ListenerFits names entry.2) :
    composeListener names ingress entry = publish (.listener entry.1)
      (entry.2.runtimeTarget.getD []) ⟨none, entry.2.protocol, entry.2.ports⟩ ingress := by
  rcases h with ⟨⟨target, htarget, hmem⟩, hrange⟩
  have hok := (composeIngressTarget_ok_iff (.listener entry.1)).mpr ⟨htarget, hmem⟩
  unfold composeListener
  rw [hok, htarget]
  cases hexposure : entry.2.exposure with
  | port port => rfl
  | range start stop =>
    have hle := hrange start stop hexposure
    show (if stop < start then _ else _) = _
    rw [if_neg (not_lt.mpr hle)]
    rfl

theorem composeRoute_eq {entry : Text × Route}
    (h : composeRoute names ingress entry = .ok ingress') :
    RouteFits names entry.2 ∧ ∃ host port bind, entry.2.target = .http host port ∧
      bindHost host = some bind ∧
      publish (.route entry.1) (entry.2.runtimeTarget.getD [])
        ⟨some bind, .tcp, .single port port⟩ ingress = .ok ingress' := by
  unfold composeRoute at h
  rcases bind_ok h with ⟨target, htarget, h⟩
  rw [composeIngressTarget_ok_iff] at htarget
  split at h
  · cases h
  · rename_i host port hroute
    split at h
    · cases h
    · rename_i bind hbind
      refine ⟨⟨⟨target, htarget.1, htarget.2⟩, host, port, hroute, by rw [hbind]; rfl⟩, ?_⟩
      refine ⟨host, port, bind, hroute, hbind, ?_⟩
      rw [htarget.1]
      exact h

theorem composeRoute_of (ingress : Ingress) {entry : Text × Route} {bind : Text}
    (h : HasTarget names entry.2.runtimeTarget) (htarget : entry.2.target = .http host port)
    (hbind : bindHost host = some bind) :
    composeRoute names ingress entry = publish (.route entry.1)
      (entry.2.runtimeTarget.getD []) ⟨some bind, .tcp, .single port port⟩ ingress := by
  rcases h with ⟨target, hruntime, hmem⟩
  have hok := (composeIngressTarget_ok_iff (.route entry.1)).mpr ⟨hruntime, hmem⟩
  unfold composeRoute
  rw [hok, hruntime, htarget]
  dsimp only [Bind.bind, Except.bind]
  rw [hbind]
  rfl

theorem routeClaims_eq {route : Route} (h : route.target = .http host port) (bind : Option Text) :
    routeClaims route =
      lineClaims (route.runtimeTarget.getD []) ⟨bind, .tcp, .single port port⟩ := by
  unfold routeClaims
  rw [h]
  rfl

theorem composeListener_ok_iff :
    (∃ ingress', composeListener names ingress entry = .ok ingress') ↔
      ListenerFits names entry.2 ∧
        ∃ published, run claiming ingress.published (listenerClaims entry.2) = .ok published := by
  constructor
  · rintro ⟨ingress', h⟩
    rcases composeListener_eq h with ⟨hfits, hpublish⟩
    exact ⟨hfits, publish_ok_iff.mp ⟨ingress', hpublish⟩⟩
  · rintro ⟨hfits, h⟩
    rw [composeListener_of hfits]
    exact publish_ok_iff.mpr h

theorem composeRoute_ok_iff {entry : Text × Route} :
    (∃ ingress', composeRoute names ingress entry = .ok ingress') ↔
      RouteFits names entry.2 ∧
        ∃ published, run claiming ingress.published (routeClaims entry.2) = .ok published := by
  constructor
  · rintro ⟨ingress', h⟩
    rcases composeRoute_eq h with ⟨hfits, host, port, bind, htarget, _, hpublish⟩
    rw [routeClaims_eq htarget (some bind)]
    exact ⟨hfits, publish_ok_iff.mp ⟨ingress', hpublish⟩⟩
  · rintro ⟨⟨hruntime, host, port, htarget, hhost⟩, h⟩
    rcases Option.isSome_iff_exists.mp hhost with ⟨bind, hbind⟩
    rw [routeClaims_eq htarget (some bind)] at h
    rw [composeRoute_of _ hruntime htarget hbind]
    exact publish_ok_iff.mpr h

theorem composeRoute_published {entry : Text × Route}
    (h : composeRoute names ingress entry = .ok ingress') :
    run claiming ingress.published (routeClaims entry.2) = .ok ingress'.published := by
  rcases composeRoute_eq h with ⟨_, host, port, bind, htarget, _, hpublish⟩
  rw [routeClaims_eq htarget (some bind)]
  exact (publish_ok hpublish).1

theorem composeListener_published (h : composeListener names ingress entry = .ok ingress') :
    run claiming ingress.published (listenerClaims entry.2) = .ok ingress'.published :=
  (publish_ok (composeListener_eq h).2).1

theorem composeListeners_ok_iff :
    (∃ ingress', l.foldlM (composeListener names) ingress = .ok ingress') ↔
      (∀ entry ∈ l, ListenerFits names entry.2) ∧ ∃ published,
        run claiming ingress.published (l.flatMap fun entry ↦ listenerClaims entry.2) =
          .ok published := by
  apply foldlM_ok_iff (f := Ingress.published)
  · intro t b
    exact composeListener_ok_iff
  · intro t b t'
    exact composeListener_published

theorem composeListeners_published (h : l.foldlM (composeListener names) ingress = .ok ingress') :
    run claiming ingress.published (l.flatMap fun entry ↦ listenerClaims entry.2) =
      .ok ingress'.published := by
  apply run_state (f := Ingress.published) _ h
  intro t b t'
  exact composeListener_published

theorem composeRoutes_ok_iff {l : List (Text × Route)} :
    (∃ ingress', l.foldlM (composeRoute names) ingress = .ok ingress') ↔
      (∀ entry ∈ l, RouteFits names entry.2) ∧ ∃ published,
        run claiming ingress.published (l.flatMap fun entry ↦ routeClaims entry.2) =
          .ok published := by
  apply foldlM_ok_iff (f := Ingress.published)
  · intro t b
    exact composeRoute_ok_iff
  · intro t b t'
    exact composeRoute_published

theorem applyIsolatedIngress_ok_iff :
    (∃ ingress, applyIsolatedIngress names service = .ok ingress) ↔
      (∀ entry ∈ items service.listeners, ListenerFits names entry.2) ∧
      (∀ entry ∈ items service.routes, RouteFits names entry.2) ∧
      ∀ e ∈ ingressClaims service, ∀ d ∈ ingressClaims service, e.1 = d.1 → e.2 = d.2 := by
  have hclaims : (∃ published, run claiming ∅ (ingressClaims service) = .ok published) ↔
      ∀ e ∈ ingressClaims service, ∀ d ∈ ingressClaims service, e.1 = d.1 → e.2 = d.2 := by
    apply run_ok_iff_forall
    · intro a b hab hkey
      exact (hab hkey.symm).symm
    · intro a _
      rfl
    · intro a ha
      rw [show claiming.Held (∅ : Store Socket (Text × Nat)) a ↔
        (∅ : Store Socket (Text × Nat)).lookup a.1 = some a.2 from Iff.rfl,
        Finmap.lookup_empty] at ha
      cases ha
  rw [← hclaims]
  unfold applyIsolatedIngress ingressClaims run
  rw [List.foldlM_append]
  constructor
  · rintro ⟨ingress', h⟩
    rcases bind_ok h with ⟨ingress, hlisteners, hroutes⟩
    rcases composeListeners_ok_iff.mp ⟨ingress, hlisteners⟩ with ⟨hfits, _⟩
    rcases composeRoutes_ok_iff.mp ⟨ingress', hroutes⟩ with ⟨hfits', published, hpublished⟩
    have hfirst := composeListeners_published hlisteners
    refine ⟨fun e he => hfits e (mem_byKey.mpr he), fun e he => hfits' e (mem_byKey.mpr he),
      published, ?_⟩
    unfold run at hfirst hpublished
    rw [hfirst]
    exact hpublished
  · rintro ⟨hfits, hfits', published, h⟩
    rcases bind_ok h with ⟨first, hfirst, hrest⟩
    have hrun : run claiming (⟨∅, []⟩ : Ingress).published
        ((byKey service.listeners).flatMap fun entry ↦ listenerClaims entry.2) = .ok first := hfirst
    rcases composeListeners_ok_iff.mpr ⟨fun e he => hfits e (mem_byKey.mp he), first, hrun⟩ with
      ⟨ingress, hlisteners⟩
    have hstate : ingress.published = first :=
      Except.ok.inj ((composeListeners_published hlisteners).symm.trans hrun)
    rw [← hstate] at hrest
    rcases composeRoutes_ok_iff.mpr ⟨fun e he => hfits' e (mem_byKey.mp he), published, hrest⟩ with
      ⟨ingress', hroutes⟩
    refine ⟨ingress', ?_⟩
    rw [hlisteners]
    exact hroutes

theorem keys_lineClaims (target : Text) (line : Publication) :
    (lineClaims target line).map Prod.fst = line.sockets := by
  unfold lineClaims Publication.sockets
  rw [List.map_map]
  rfl

theorem sockets_ports (listener : Listener) (bind : Option Text) :
    (⟨bind, listener.protocol, listener.ports⟩ : Publication).sockets = listener.sockets := by
  unfold Listener.sockets Publication.sockets Listener.ports Exposure.ports
  cases listener.exposure with
  | port port => rfl
  | range start stop =>
    show ((List.range' _ _).map _).map _ = _
    rw [List.map_map]
    rfl

theorem sockets_ne_nil {listener : Listener} (h : ListenerFits names listener) :
    listener.sockets ≠ [] := by
  unfold Listener.sockets Exposure.ports
  cases hexposure : listener.exposure with
  | port port => exact List.cons_ne_nil _ _
  | range start stop =>
    have hle : (start : Nat) ≤ stop := h.2 start stop hexposure
    simp only [ne_eq, List.map_eq_nil_iff, List.range'_eq_nil_iff]
    omega

theorem lookup_publish (h : publish endpoint target line ingress = .ok ingress')
    {value : Text × Nat} :
    ingress'.published.lookup socket = some value ↔
      ingress.published.lookup socket = some value ∨ (socket, value) ∈ lineClaims target line :=
  held_run (publish_ok h).1 (socket, value)

theorem lookup_publish_none (h : publish endpoint target line ingress = .ok ingress')
    (hold : ingress.published.lookup socket = none) (hnew : socket ∉ line.sockets) :
    ingress'.published.lookup socket = none := by
  rw [Option.eq_none_iff_forall_ne_some]
  intro value hvalue
  rcases (lookup_publish h).mp hvalue with hlookup | hclaim
  · rw [hold] at hlookup
    cases hlookup
  · rw [← keys_lineClaims target] at hnew
    exact hnew (List.mem_map_of_mem hclaim)

theorem lines_publish (h : publish endpoint target line ingress = .ok ingress')
    (hne : line.sockets ≠ []) (hnew : ∀ socket ∈ line.sockets, ingress.published.lookup socket = none) :
    ingress'.lines = ingress.lines ++ [(target, line)] := by
  rw [(publish_ok h).2, if_pos]
  rcases List.exists_mem_of_ne_nil _ hne with ⟨socket, hsocket⟩
  have hkey := hsocket
  rw [← keys_lineClaims target] at hkey
  rcases List.mem_map.mp hkey with ⟨claim, hclaim, hfst⟩
  rw [List.any_eq_true]
  refine ⟨claim, hclaim, ?_⟩
  rw [hfst, hnew socket hsocket]
  rfl

def composeLine (entry : Text × Listener) : Text × Publication :=
  (entry.2.runtimeTarget.getD [], ⟨none, entry.2.protocol, entry.2.ports⟩)

theorem composeListeners_lines
    (hapart : l.Pairwise fun a b ↦ ∀ socket ∈ a.2.sockets, socket ∉ b.2.sockets)
    (hnew : ∀ entry ∈ l, ∀ socket ∈ entry.2.sockets, ingress.published.lookup socket = none)
    (hrun : l.foldlM (composeListener names) ingress = .ok ingress') :
    ingress'.lines = ingress.lines ++ l.map composeLine := by
  induction l generalizing ingress with
  | nil =>
    cases hrun
    simp
  | cons entry l ih =>
    rw [List.foldlM_cons] at hrun
    rcases bind_ok hrun with ⟨t, ht, hrun⟩
    rcases composeListener_eq ht with ⟨hfits, hpublish⟩
    rw [List.pairwise_cons] at hapart
    rw [List.forall_mem_cons] at hnew
    have hfirst : t.lines = ingress.lines ++ [composeLine entry] := by
      apply lines_publish hpublish
      · rw [sockets_ports]
        exact sockets_ne_nil hfits
      · rw [sockets_ports]
        exact hnew.1
    have hrest : ∀ e ∈ l, ∀ socket ∈ e.2.sockets, t.published.lookup socket = none := by
      intro e he socket hsocket
      apply lookup_publish_none hpublish (hnew.2 e he socket hsocket)
      rw [sockets_ports]
      intro hin
      exact hapart.1 e he socket hin hsocket
    rw [ih hapart.2 hrest hrun, hfirst, List.map_cons, List.append_assoc]
    rfl

theorem publishListeners_lines
    {state' : Published} (hrun : l.foldlM (publishListener hosts) state = .ok state') :
    state'.lines = state.lines ++ l.map fun entry ↦ listenerLine hosts entry.2 := by
  induction l generalizing state with
  | nil =>
    cases hrun
    simp
  | cons entry l ih =>
    rw [List.foldlM_cons] at hrun
    rcases bind_ok hrun with ⟨t, ht, hrun⟩
    rw [ih hrun, publishListener_ok ht, List.map_cons, List.append_assoc]
    rfl

theorem publishListener_ok_of {service : Text}
    (h : checkExposure service entry.1 entry.2 = .ok ()) :
    ∃ state', publishListener hosts state entry = .ok state' := by
  unfold checkExposure at h
  unfold publishListener
  cases hexposure : entry.2.exposure with
  | port port =>
    simp only [hexposure]
    exact ⟨_, rfl⟩
  | range start stop =>
    simp only [hexposure] at h ⊢
    split at h
    · cases h
    · split at h
      · cases h
      · rename_i htarget
        rw [if_neg htarget]
        exact ⟨_, rfl⟩

theorem addBindHost_isSome {entry : Text × Route} :
    ((addBindHost hosts entry).lookup socket).isSome ↔
      (hosts.lookup socket).isSome ∨ IsRouteSocket entry.2 socket := by
  unfold addBindHost
  cases htarget : entry.2.target with
  | unixHttp path =>
    have hnone : ¬ IsRouteSocket entry.2 socket := by
      rintro ⟨host, port, hhttp, _⟩
      rw [htarget] at hhttp
      cases hhttp
    simp only [hnone, or_false]
  | http host port =>
    rw [isRouteSocket_iff htarget]
    cases hbind : bindHost host with
    | none => simp only [hbind, Option.isSome_none, Bool.false_eq_true, false_and, or_false]
    | some bind =>
      simp only [hbind, Option.isSome_some, true_and]
      rw [sets_insert (.tcp, (port : Nat)) bind hosts socket]
      split
      · rename_i hsocket
        simp only [Option.isSome_some, hsocket, or_true]
      · rename_i hsocket
        simp only [hsocket, or_false]

theorem routeBindHosts_isSome :
    ((routeBindHosts service).lookup socket).isSome ↔
      ∃ entry ∈ items service.routes, IsRouteSocket entry.2 socket := by
  have hfold : ∀ (l : List (Text × Route)) (hosts : Store Socket Text),
      ((l.foldl addBindHost hosts).lookup socket).isSome ↔
        (hosts.lookup socket).isSome ∨ ∃ entry ∈ l, IsRouteSocket entry.2 socket := by
    intro l
    induction l with
    | nil =>
      intro hosts
      simp
    | cons entry l ih =>
      intro hosts
      rw [List.foldl_cons, ih, addBindHost_isSome, or_assoc]
      simp only [List.mem_cons, or_and_right, exists_or, exists_eq_left]
  unfold routeBindHosts
  rw [hfold, Finmap.lookup_empty]
  simp

end NixNas.Network
