import NixNas.Network.Ingress

/-!
# One owner for each host port

The sockets that the lines of isolated services publish, against the sockets of all other services.
-/

open Admission Dictionary Fallible Journal

namespace NixNas.Network

def listenerLine (hosts : Store Socket Text) (listener : Listener) : Publication :=
  match listener.exposure with
  | .port port => ⟨hosts.lookup (listener.protocol, (port : Nat)), listener.protocol, listener.ports⟩
  | .range _ _ => ⟨none, listener.protocol, listener.ports⟩

theorem sockets_listenerLine (hosts : Store Socket Text) (listener : Listener) :
    (listenerLine hosts listener).sockets = listener.sockets := by
  unfold listenerLine Listener.sockets Publication.sockets Listener.ports Exposure.ports
  cases listener.exposure with
  | port port => rfl
  | range start stop =>
    show ((List.range' _ _).map _).map _ = _
    rw [List.map_map]
    rfl

variable {hosts : Store Socket Text} {state state' : Published} {host id : Text} {service : Service}

theorem publishListener_ok
    {entry : Text × Listener} (h : publishListener hosts state entry = .ok state') :
    state' = ⟨state.sockets ∪ entry.2.sockets.toFinset,
      state.lines ++ [listenerLine hosts entry.2]⟩ := by
  unfold publishListener at h
  unfold listenerLine
  cases hexposure : entry.2.exposure with
  | port port =>
    simp only [hexposure] at h
    cases h
    rfl
  | range start stop =>
    simp only [hexposure] at h
    split at h
    · cases h
    · cases h
      rfl

/-- The published sockets are those of the lines, and no two lines share one. -/
structure Sound (state : Published) : Prop where
  covers : ∀ socket, socket ∈ state.sockets ↔ ∃ line ∈ state.lines, socket ∈ line.sockets
  apart : state.lines.Pairwise fun p q ↦ ∀ socket ∈ p.sockets, socket ∉ q.sockets

theorem sound_empty : Sound ⟨∅, []⟩ := by
  constructor
  · intro socket
    constructor
    · intro h
      exact (Finset.notMem_empty _ h).elim
    · rintro ⟨line, hline, _⟩
      exact (List.not_mem_nil hline).elim
  · exact .nil

theorem Sound.add (h : Sound state) {line : Publication} {sockets : Finset Socket}
    (hsockets : ∀ socket, socket ∈ sockets ↔ socket ∈ state.sockets ∨ socket ∈ line.sockets)
    (hnew : ∀ socket ∈ line.sockets, socket ∉ state.sockets) :
    Sound ⟨sockets, state.lines ++ [line]⟩ := by
  constructor
  · intro socket
    rw [hsockets, h.covers]
    simp only [List.mem_append, List.mem_singleton, or_and_right, exists_or, exists_eq_left]
  · rw [List.pairwise_append]
    refine ⟨h.apart, List.pairwise_singleton _ _, ?_⟩
    intro p hp q hq socket hsocket hsocket'
    rw [List.mem_singleton] at hq
    subst hq
    exact hnew socket hsocket' ((h.covers socket).mpr ⟨p, hp, hsocket⟩)

theorem Sound.listeners {l : List (Text × Listener)} (h : Sound state)
    (hapart : l.Pairwise fun a b ↦ ∀ socket ∈ a.2.sockets, socket ∉ b.2.sockets)
    (hnew : ∀ entry ∈ l, ∀ socket ∈ entry.2.sockets, socket ∉ state.sockets)
    (hrun : l.foldlM (publishListener hosts) state = .ok state') :
    Sound state' ∧ ∀ socket, socket ∈ state'.sockets ↔
      socket ∈ state.sockets ∨ ∃ entry ∈ l, socket ∈ entry.2.sockets := by
  induction l generalizing state with
  | nil =>
    cases hrun
    exact ⟨h, fun socket => by simp⟩
  | cons entry l ih =>
    rw [List.foldlM_cons] at hrun
    rcases bind_ok hrun with ⟨t, ht, hrun⟩
    rw [List.pairwise_cons] at hapart
    rw [List.forall_mem_cons] at hnew
    have hstate := publishListener_ok ht
    have hmem : ∀ socket, socket ∈ t.sockets ↔ socket ∈ state.sockets ∨ socket ∈ entry.2.sockets := by
      intro socket
      rw [hstate, Finset.mem_union, List.mem_toFinset]
    have hsound : Sound t := by
      rw [hstate]
      apply h.add
      · intro socket
        rw [Finset.mem_union, List.mem_toFinset, sockets_listenerLine]
      · rw [sockets_listenerLine]
        exact hnew.1
    have hrest : ∀ e ∈ l, ∀ socket ∈ e.2.sockets, socket ∉ t.sockets := by
      intro e he socket hsocket hin
      rcases (hmem socket).mp hin with hin | hin
      · exact hnew.2 e he socket hsocket hin
      · exact hapart.1 e he socket hin hsocket
    rcases ih hsound hapart.2 hrest hrun with ⟨hfinal, hfinalMem⟩
    refine ⟨hfinal, fun socket => ?_⟩
    rw [hfinalMem, hmem]
    simp only [List.mem_cons, or_and_right, exists_or, exists_eq_left, or_assoc]

def IsRouteSocket (route : Route) (socket : Socket) : Prop :=
  ∃ host port, route.target = .http host port ∧ (bindHost host).isSome ∧ socket = (.tcp, (port : Nat))

theorem isRouteSocket_iff {route : Route} {port : Port} {socket : Socket}
    (h : route.target = .http host port) :
    IsRouteSocket route socket ↔ (bindHost host).isSome ∧ socket = (.tcp, (port : Nat)) := by
  constructor
  · rintro ⟨host', port', htarget, hhost, rfl⟩
    rw [h] at htarget
    cases htarget
    exact ⟨hhost, rfl⟩
  · rintro ⟨hhost, hsocket⟩
    exact ⟨host, port, h, hhost, hsocket⟩

theorem Sound.route {entry : Text × Route} (h : Sound state)
    (hstep : publishLoopback state entry = .ok state') :
    Sound state' ∧ ∀ socket, socket ∈ state'.sockets ↔
      socket ∈ state.sockets ∨ IsRouteSocket entry.2 socket := by
  unfold publishLoopback at hstep
  split at hstep
  · cases hstep
  · rename_i host port htarget
    split at hstep
    · cases hstep
    · rename_i bind hbind
      have hroute : ∀ socket, IsRouteSocket entry.2 socket ↔ socket = (.tcp, (port : Nat)) := by
        intro socket
        rw [isRouteSocket_iff htarget, hbind]
        exact and_iff_right rfl
      split at hstep
      · rename_i hpublished
        cases hstep
        refine ⟨h, fun socket => ?_⟩
        rw [hroute]
        constructor
        · exact .inl
        · rintro (hin | rfl)
          · exact hin
          · exact hpublished
      · rename_i hpublished
        cases hstep
        constructor
        · apply h.add
          · intro socket
            show socket ∈ insert _ _ ↔ _ ∨ socket ∈ [_]
            rw [Finset.mem_insert, List.mem_singleton, or_comm]
          · intro socket hsocket
            have heq : socket = (.tcp, (port : Nat)) := List.mem_singleton.mp hsocket
            rw [heq]
            exact hpublished
        · intro socket
          rw [hroute, Finset.mem_insert, or_comm]

theorem Sound.routes {l : List (Text × Route)} (h : Sound state)
    (hrun : l.foldlM publishLoopback state = .ok state') :
    Sound state' ∧ ∀ socket, socket ∈ state'.sockets ↔
      socket ∈ state.sockets ∨ ∃ entry ∈ l, IsRouteSocket entry.2 socket := by
  induction l generalizing state with
  | nil =>
    cases hrun
    exact ⟨h, fun socket => by simp⟩
  | cons entry l ih =>
    rw [List.foldlM_cons] at hrun
    rcases bind_ok hrun with ⟨t, ht, hrun⟩
    rcases h.route ht with ⟨hsound, hmem⟩
    rcases ih hsound hrun with ⟨hfinal, hfinalMem⟩
    refine ⟨hfinal, fun socket => ?_⟩
    rw [hfinalMem, hmem]
    simp only [List.mem_cons, or_and_right, exists_or, exists_eq_left, or_assoc]

variable {effective : Effective}

theorem bindHost_isSome : (bindHost host).isSome = loopbackNames.contains host := by
  unfold bindHost
  rw [Bool.eq_iff_iff, List.lookup_isSome_iff, List.contains_iff_mem]
  show (∃ p ∈ loopbackHosts, (host == p.1) = true) ↔ host ∈ loopbackHosts.map Prod.fst
  rw [List.mem_map]
  constructor
  · rintro ⟨p, hp, heq⟩
    exact ⟨p, hp, (beq_iff_eq.mp heq).symm⟩
  · rintro ⟨p, hp, rfl⟩
    exact ⟨p, hp, beq_iff_eq.mpr rfl⟩

theorem mode_networkPolicy {policy : Policy} (h : networkPolicy effective service = .ok policy) :
    policyMode effective service = policy.mode := by
  unfold networkPolicy at h
  unfold policyMode declaredPolicy
  cases hprofile : service.networkProfile with
  | some profile =>
    simp only [hprofile] at h ⊢
    cases hfound : effective.networkProfiles.lookup profile with
    | some found =>
      rw [hfound] at h
      cases h
      rfl
    | none =>
      rw [hfound] at h
      cases h
  | none =>
    simp only [hprofile] at h ⊢
    cases h
    cases service.network <;> rfl

theorem Accepted.apart (h : Accepted effective)
    (hservice : (id, service) ∈ items effective.services) :
    (byKey service.listeners).Pairwise fun a b ↦ ∀ socket ∈ a.2.sockets, socket ∉ b.2.sockets := by
  apply pairwise_byKey
  intro a ha b hb hne socket hsa hsb
  exact hne (h.listener_owner hservice hservice ha hb hsa hsb).2

theorem publishLines_spec (h : Accepted effective)
    (hservice : (id, service) ∈ items effective.services) {lines : List Publication}
    (hlines : publishLines effective service = .ok lines) :
    (lines.Pairwise fun p q ↦ ∀ socket ∈ p.sockets, socket ∉ q.sockets) ∧
      ∀ line ∈ lines, ∀ socket ∈ line.sockets, policyMode effective service = .isolated ∧
        ((∃ entry ∈ items service.listeners, socket ∈ entry.2.sockets) ∨
          ∃ entry ∈ items service.routes, IsRouteSocket entry.2 socket) := by
  unfold publishLines at hlines
  rcases bind_ok hlines with ⟨policy, hpolicy, hlines⟩
  have hmode := mode_networkPolicy (mapError_ok.mp hpolicy)
  split at hlines
  · cases hlines
    exact ⟨.nil, fun line hline => (List.not_mem_nil hline).elim⟩
  · rename_i hisolated
    rcases bind_ok hlines with ⟨published, hpublished, hlines⟩
    cases hlines
    unfold isolatedLines at hpublished
    rcases bind_ok hpublished with ⟨state, hlisteners, hroutes⟩
    have hempty : ∀ entry ∈ byKey service.listeners, ∀ socket ∈ entry.2.sockets,
        socket ∉ (⟨∅, []⟩ : Published).sockets := fun _ _ socket _ => Finset.notMem_empty socket
    rcases sound_empty.listeners (h.apart hservice) hempty hlisteners with ⟨hsound, hmem⟩
    rcases hsound.routes hroutes with ⟨hfinal, hfinalMem⟩
    refine ⟨hfinal.apart, ?_⟩
    intro line hline socket hsocket
    refine ⟨hmode.trans (not_not.mp hisolated), ?_⟩
    rcases (hfinalMem socket).mp ((hfinal.covers socket).mpr ⟨line, hline, hsocket⟩) with
      hstate | ⟨entry, hentry, hroute⟩
    · rcases (hmem socket).mp hstate with hin | ⟨entry, hentry, hlistener⟩
      · exact (Finset.notMem_empty _ hin).elim
      · exact .inl ⟨entry, mem_byKey.mp hentry, hlistener⟩
    · exact .inr ⟨entry, mem_byKey.mp hentry, hroute⟩

/-- The TCP ports of a service in host mode: those its listeners expose or lead to, and those its
loopback routes lead to. -/
def IsHostPort (service : Service) (port : Nat) : Prop :=
  (∃ entry ∈ items service.listeners, entry.2.protocol = .tcp ∧
    ((.tcp, port) ∈ entry.2.sockets ∨ ∃ target ∈ entry.2.targetPort, (target : Nat) = port)) ∨
  ∃ entry ∈ items service.routes, ∃ host target, entry.2.target = .http host target ∧
    loopbackNames.contains (host.map Char.toLower) = true ∧ (target : Nat) = port

theorem IsHostPort.holds {port : Nat} (h : IsHostPort service port)
    (hmode : policyMode effective service = .host) : HoldsPort effective id service port := by
  rcases h with ⟨entry, hentry, hprotocol, hsocket | ⟨target, htarget, rfl⟩⟩ |
    ⟨entry, hentry, host, target, htarget, hhost, rfl⟩
  · exact .listener hentry hsocket
  · exact .targetPort hmode hentry hprotocol htarget
  · exact .hostRoute hmode hentry htarget hhost

/-- The three parts: lines of two services share no socket, the loopback routes of an isolated
service keep off the ports of host-mode services, and the lines of one service share no socket. -/
theorem published_once (h : semanticValidate effective = .ok ()) :
    (∀ a sa la b sb lb, (a, sa) ∈ items effective.services → (b, sb) ∈ items effective.services →
      a ≠ b → publishLines effective sa = .ok la → publishLines effective sb = .ok lb →
      ∀ p ∈ la, ∀ q ∈ lb, ∀ socket ∈ p.sockets, socket ∉ q.sockets) ∧
    (∀ a sa b sb, (a, sa) ∈ items effective.services → (b, sb) ∈ items effective.services →
      a ≠ b → policyMode effective sa = .isolated → policyMode effective sb = .host →
      ∀ entry ∈ items sa.routes, ∀ host port, entry.2.target = .http host port →
        (bindHost host).isSome → ¬ IsHostPort sb port) ∧
    ∀ a sa la, (a, sa) ∈ items effective.services → publishLines effective sa = .ok la →
      la.Pairwise fun p q ↦ ∀ socket ∈ p.sockets, socket ∉ q.sockets := by
  have haccepted := accepted_of_valid h
  -- a route socket of an isolated service is held by no other service
  have hroute : ∀ {a b : Text} {sa sb : Service} {entry : Text × Route} {host : Text} {port : Port},
      (a, sa) ∈ items effective.services → (b, sb) ∈ items effective.services → a ≠ b →
      policyMode effective sa = .isolated → entry ∈ items sa.routes →
      entry.2.target = .http host port → (bindHost host).isSome →
      ¬ HoldsPort effective b sb port := by
    intro a b sa sb entry host port ha hb hne hmode hentry htarget hhost hholds
    rw [bindHost_isSome] at hhost
    exact hne (haccepted.route_owner ha hmode hentry htarget hhost hb hholds)
  refine ⟨?_, ?_, ?_⟩
  · intro a sa la b sb lb ha hb hne hla hlb p hp q hq socket hsp hsq
    rcases (publishLines_spec haccepted ha hla).2 p hp socket hsp with ⟨hmodeA, hpub⟩
    rcases (publishLines_spec haccepted hb hlb).2 q hq socket hsq with ⟨hmodeB, hpub'⟩
    rcases hpub with ⟨ea, hea, hsa⟩ | ⟨ea, hea, host, port, htarget, hhost, rfl⟩
    · rcases hpub' with ⟨eb, heb, hsb⟩ | ⟨eb, heb, host, port, htarget, hhost, rfl⟩
      · exact hne (haccepted.listener_owner ha hb hea heb hsa hsb).1
      · exact hroute hb ha hne.symm hmodeB heb htarget hhost (.listener hea hsa)
    · rcases hpub' with ⟨eb, heb, hsb⟩ | ⟨eb, heb, host', port', htarget', hhost', heq⟩
      · exact hroute ha hb hne hmodeA hea htarget hhost (.listener heb hsb)
      · have hholds : HoldsPort effective b sb port' := by
          rw [bindHost_isSome] at hhost'
          exact .isolatedRoute hmodeB heb htarget' hhost'
        rw [← (Prod.mk.inj heq).2] at hholds
        exact hroute ha hb hne hmodeA hea htarget hhost hholds
  · intro a sa b sb ha hb hne hmodeA hmodeB entry hentry host port htarget hhost hport
    exact hroute ha hb hne hmodeA hentry htarget hhost (hport.holds hmodeB)
  · intro a sa la ha hla
    exact (publishLines_spec haccepted ha hla).1

def wikiServices : Dict Text Service :=
  (AList.singleton "mail".toList ⟨true, true, .exec, .daemon, none, none,
    .singleton "smtp".toList ⟨.tcp, .port ⟨25, by decide⟩, some ⟨2525, by decide⟩, none⟩,
    ∅⟩).insert "wiki".toList ⟨true, true, .oci, .daemon,
      some ⟨.isolated, none, none, .deny, false, [], []⟩, none,
      .singleton "feed".toList ⟨.udp, .range ⟨6000, by decide⟩ ⟨6002, by decide⟩, none, none⟩,
      .singleton "web".toList ⟨.http "localhost".toList ⟨8080, by decide⟩, none⟩⟩

def wikiAndMail : Effective := ⟨∅, wikiServices, forall_mem_of_all (by decide)⟩

theorem published_once_wikiAndMail :
    semanticValidate wikiAndMail = .ok () ∧
    ∀ a sa la, (a, sa) ∈ items wikiAndMail.services → publishLines wikiAndMail sa = .ok la →
      la.Pairwise fun p q ↦ ∀ socket ∈ p.sockets, socket ∉ q.sockets := by
  have hok : isOk (semanticValidate wikiAndMail) = true := by decide
  rcases exists_of_isOk hok with ⟨_, h⟩
  exact ⟨h, (published_once h).2.2⟩

end NixNas.Network
