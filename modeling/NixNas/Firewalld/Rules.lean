import NixNas.Firewalld.Checked

/-!
# The objects of one service

What the schema and the rules about listeners say of the ports of a service makes its objects sound, but
for ports that are written as floats.
-/

open Fallible NixNas.Spec NixNas.Authentik NixNas.Session

namespace NixNas.Firewalld

variable {F : Type}

structure ListenerPorts (float : FloatEq F) (listener : Object F) : Prop where
  exposure : ∀ key ∈ ["port", "start", "end"], ∀ port, find key.toList (exposureOf listener) = some port →
    WholePort float port
  target : ∀ port, find "targetPort".toList listener = some port → WholePort float port
  ordered : ∀ start stop : Int, find "start".toList (exposureOf listener) = some (.scalar (.integer start)) →
    find "end".toList (exposureOf listener) = some (.scalar (.integer stop)) → start ≤ stop

def entriesAt (key : String) (o : Object F) : Object F := asObject (find key.toList o)

def entryObject (entry : Text × Plain F) : Object F := asObject (some entry.2)

structure ServicePorts (float : FloatEq F) (service policy : Object F) : Prop where
  hostPorts : ∀ port ∈ asArray (find "allowedHostPorts".toList policy), WholePort float port
  routes : ∀ entry ∈ entriesAt "routes" service, ∀ target port,
    objectAt "target" (entryObject entry) = some target → find "port".toList target = some port →
    WholePort float port
  listeners : ∀ entry ∈ entriesAt "listeners" service, ListenerPorts float (entryObject entry)

/-- The ports that the compiler prints unseen are integers: the first of equal host ports, and the
container's port behind a route. -/
structure PortsAreIntegers (numbers : Numbers F) (service policy : Object F) : Prop where
  hostPorts : ∀ port ∈ numbers.distinct (asArray (find "allowedHostPorts".toList policy)), IsInteger port
  routes : ∀ entry ∈ entriesAt "routes" service, ∀ target port,
    objectAt "target" (entryObject entry) = some target → find "port".toList target = some port →
    IsInteger (containerPort numbers service port)

section Ports

variable {numbers : Numbers F} {service policy listener : Object F} {port protocol : Text}
variable {e : Text × Text} {ports : List (Text × Text)} {n : Int}

theorem mem_sortedPairs {pairs : List (Text × Text)} : e ∈ sortedPairs pairs ↔ e ∈ pairs := by
  unfold sortedPairs
  rw [List.mem_insertionSort, List.mem_dedup]

theorem mem_sortedTriples {triples : List (Text × Text × Text)} {e : Text × Text × Text} :
    e ∈ sortedTriples triples ↔ e ∈ triples := by
  unfold sortedTriples
  rw [List.mem_insertionSort, List.mem_dedup]

theorem mem_of_mem_distinct {items : List (Plain F)} {item : Plain F}
    (h : item ∈ numbers.distinct items) : item ∈ items := by
  induction items with
  | nil => cases h
  | cons first items ih =>
    rw [Numbers.distinct, List.mem_cons] at h
    obtain rfl | h := h
    · exact List.mem_cons_self
    · exact List.mem_cons_of_mem _ (ih (List.mem_of_mem_filter h))

theorem mem_hostPorts : e ∈ hostPorts numbers policy ↔
    ∃ item ∈ numbers.distinct (asArray (find "allowedHostPorts".toList policy)),
      ∃ protocol ∈ protocols, e = (numbers.text item, protocol) := by
  unfold hostPorts Numbers.sorted
  simp only [List.mem_flatMap, List.mem_insertionSort, List.mem_map, eq_comm (a := e)]

theorem portOk_exposure (h : ListenerPorts numbers.float listener)
    (hport : exposurePort numbers (exposureOf listener) = .ok port) (hprotocol : protocol ∈ protocols) :
    PortOk port protocol := by
  unfold exposurePort at hport
  split at hport
  · rename_i shown hshown
    cases hport
    obtain ⟨n, -, rfl, hlow, hhigh⟩ := integerText_ok hshown (h.exposure "port" (by simp))
    exact portOk_intText hlow hhigh hprotocol
  · split at hport
    · rename_i start stop hstart hstop
      cases hport
      obtain ⟨n, hn, rfl, hlow, -⟩ := integerText_ok hstart (h.exposure "start" (by simp))
      obtain ⟨m, hm, rfl, -, hhigh⟩ := integerText_ok hstop (h.exposure "end" (by simp))
      exact portOk_range hlow (h.ordered n m hn hm) hhigh hprotocol
    · cases hport

theorem textAt_of_keyIs {key name : String} {o : Object F} (h : keyIs key name o = true) :
    textAt key o = some name.toList := by
  unfold keyIs at h
  unfold textAt
  cases hfind : find key.toList o with
  | none =>
    rw [hfind] at h
    cases h
  | some value =>
    rw [hfind, Option.any_some] at h
    cases value with
    | array => cases h
    | object => cases h
    | scalar a =>
      cases a with
      | string t => exact congrArg some (of_decide_eq_true h)
      | _ => cases h

theorem iterListeners_ok {listeners : List (Object F)} (h : iterListeners service = .ok listeners)
    (hmem : listener ∈ listeners) :
    (∃ entry ∈ entriesAt "listeners" service, listener = entryObject entry) ∧
      protocolOf listener ∈ protocols := by
  obtain ⟨kept, hkept, h⟩ := bind_ok h
  rw [← Except.ok.inj h, List.mem_filterMap] at hmem
  obtain ⟨_, hlistener, rfl⟩ := hmem
  obtain ⟨entry, hentry, hstep⟩ := exists_left (mapM_ok hkept) hlistener
  unfold keepListener at hstep
  split at hstep
  · rename_i o hvalue
    split at hstep
    · cases hstep
    · split at hstep
      · rename_i htest
        cases hstep
        rw [Bool.and_eq_true, Bool.or_eq_true] at htest
        refine ⟨⟨entry, hentry, ?_⟩, ?_⟩
        · unfold entryObject
          rw [hvalue]
          rfl
        · unfold protocolOf
          obtain htcp | hudp := htest.1
          · rw [textAt_of_keyIs htcp]
            exact List.mem_cons_self
          · rw [textAt_of_keyIs hudp]
            exact List.mem_cons_of_mem _ List.mem_cons_self
      · cases hstep
  · cases hstep

theorem portOk_listenerPorts (h : ServicePorts numbers.float service policy)
    (hports : listenerPorts numbers service = .ok ports) :
    ∀ e ∈ ports, PortOk e.1 e.2 := by
  obtain ⟨listeners, hlisteners, hports⟩ := bind_ok hports
  obtain ⟨entries, hentries, hports⟩ := bind_ok hports
  intro e he
  rw [← Except.ok.inj hports, mem_sortedPairs] at he
  obtain ⟨listener, hmem, hstep⟩ := exists_left (mapM_ok hentries) he
  obtain ⟨⟨entry, hentry, rfl⟩, hprotocol⟩ := iterListeners_ok hlisteners hmem
  unfold listenerPort at hstep
  obtain ⟨-, hstep⟩ := guard_ok hstep
  obtain ⟨port, hport, hstep⟩ := bind_ok hstep
  cases hstep
  exact portOk_exposure (h.listeners entry hentry) hport hprotocol

def RuleOk : (Text × Text) ⊕ (Text × Text × Text) → Prop
  | .inl e => PortOk e.1 e.2
  | .inr e => PortOk e.1 e.2.1 ∧ PortOk e.2.2 e.2.1

theorem portNumber_ok {value : Plain F} (h : portNumber value = some n) : 1 ≤ n ∧ n ≤ 65535 := by
  unfold portNumber at h
  split at h
  · split at h
    · rename_i hrange
      cases h
      exact hrange
    · cases h
  · cases h

theorem forwardTarget_ok (h : forwardTarget listener = .ok (some n)) : 1 ≤ n ∧ n ≤ 65535 := by
  unfold forwardTarget at h
  split at h
  · cases h
  · split at h
    · cases h
    · split at h
      · cases h
      · rename_i number hnumber
        rw [Except.ok.injEq, ite_eq_iff] at h
        obtain ⟨-, h⟩ | ⟨-, h⟩ := h
        · cases h
        · cases h
          exact portNumber_ok hnumber

theorem ruleOk_hostListenerRule (h : ListenerPorts numbers.float listener)
    (hprotocol : protocolOf listener ∈ protocols) {rule : (Text × Text) ⊕ (Text × Text × Text)}
    (hrule : hostListenerRule numbers listener = .ok rule) : RuleOk rule := by
  obtain ⟨forward, hforward, hrule⟩ := bind_ok hrule
  split at hrule
  · rename_i target shown hshown
    cases hrule
    obtain ⟨n, -, rfl, hlow, hhigh⟩ := integerText_ok hshown (h.exposure "port" (by simp))
    obtain ⟨htargetLow, htargetHigh⟩ := forwardTarget_ok hforward
    exact ⟨portOk_intText hlow hhigh hprotocol, portOk_intText htargetLow htargetHigh hprotocol⟩
  · obtain ⟨port, hport, hrule⟩ := bind_ok hrule
    cases hrule
    exact portOk_exposure h hport hprotocol

theorem portOk_hostListenerRules (h : ServicePorts numbers.float service policy)
    {forwards : List (Text × Text × Text)}
    (hrules : hostListenerRules numbers service = .ok (ports, forwards)) :
    (∀ e ∈ ports, PortOk e.1 e.2) ∧ ∀ e ∈ forwards, PortOk e.1 e.2.1 ∧ PortOk e.2.2 e.2.1 := by
  obtain ⟨listeners, hlisteners, hrules⟩ := bind_ok hrules
  obtain ⟨rules, hmap, hrules⟩ := bind_ok hrules
  have hall : ∀ rule ∈ rules, RuleOk rule := by
    intro rule hrule
    obtain ⟨listener, hmem, hstep⟩ := exists_left (mapM_ok hmap) hrule
    obtain ⟨⟨entry, hentry, rfl⟩, hprotocol⟩ := iterListeners_ok hlisteners hmem
    exact ruleOk_hostListenerRule (h.listeners entry hentry) hprotocol hstep
  cases hrules
  constructor
  · intro e he
    rw [mem_sortedPairs, List.mem_filterMap] at he
    obtain ⟨rule, hrule, heq⟩ := he
    cases rule with
    | inl e' =>
      cases heq
      exact hall _ hrule
    | inr => cases heq
  · intro e he
    rw [mem_sortedTriples, List.mem_filterMap] at he
    obtain ⟨rule, hrule, heq⟩ := he
    cases rule with
    | inl => cases heq
    | inr e' =>
      cases heq
      exact hall _ hrule

theorem wholePort_containerPort (h : ServicePorts numbers.float service policy) {port : Plain F}
    (hport : WholePort numbers.float port) : WholePort numbers.float (containerPort numbers service port) := by
  unfold containerPort
  split
  · rename_i value hfind
    obtain ⟨entry, hentry, rfl⟩ := List.mem_map.mp (List.mem_of_find?_eq_some hfind)
    cases htarget : find "targetPort".toList (asObject (some entry.2)) with
    | none => exact hport
    | some target => exact (h.listeners entry hentry).target target htarget
  · exact hport

theorem mem_routePorts (hports : routePorts numbers service = .ok ports)
    : e ∈ ports ↔ ∃ entry ∈ entriesAt "routes" service, ∃ target port,
      objectAt "target" (entryObject entry) = some target ∧ find "port".toList target = some port ∧
      e = (numbers.text (containerPort numbers service port), "tcp".toList) := by
  obtain ⟨entries, hentries, hports⟩ := bind_ok hports
  have hstep : ∀ entry e, routePort numbers service entry = .ok e → ∃ target port,
      objectAt "target" (entryObject entry) = some target ∧ find "port".toList target = some port ∧
      e = (numbers.text (containerPort numbers service port), "tcp".toList) := by
    intro entry e he
    unfold routePort at he
    split at he
    · cases he
    · rename_i target htarget
      split at he
      · cases he
      · split at he
        · cases he
        · rename_i port hport
          split at he
          · cases he
            exact ⟨target, port, htarget, hport, rfl⟩
          · cases he
  rw [← Except.ok.inj hports, mem_sortedPairs]
  constructor
  · intro he
    obtain ⟨entry, hentry, hroute⟩ := exists_left (mapM_ok hentries) he
    exact ⟨entry, hentry, hstep entry e hroute⟩
  · intro ⟨entry, hentry, target, port, htarget, hport, heq⟩
    obtain ⟨e', he', hroute⟩ := exists_right (mapM_ok hentries) hentry
    obtain ⟨target', port', htarget', hport', rfl⟩ := hstep entry e' hroute
    -- the entry has one target and that has one port
    cases htarget.symm.trans htarget'
    cases hport.symm.trans hport'
    rwa [heq]

end Ports

end NixNas.Firewalld
