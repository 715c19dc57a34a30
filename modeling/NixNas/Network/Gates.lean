import NixNas.Network.Renderers

/-!
# Two gates for one policy

The network part of `render_compose_override_snapshot` (`services/nas_v2_compose.py`) against
`quadlet_network_reference`.
-/

open Dictionary Fallible

namespace NixNas.Network

/-! ## The Compose gate -/

/-- `_NETWORK_SOURCE_FIELDS`, sorted. -/
def networkSourceFields : List Text :=
  ["network_mode".toList, "networks".toList, "ports".toList]

/-- What the override does with the network of the containers. -/
inductive ComposeNetwork where
  | untouched
  | isolated (ingress : Ingress) (network : Text)
  | mode (networkMode : Text)

/-- The policy, read in another order than `network_policy` does. -/
def composePolicy (effective : Effective) (service : Service) :
    Except ComposeError (Option Policy) :=
  match service.network with
  | some policy => .ok (some policy)
  | none =>
    match service.networkProfile with
    | none => .ok none
    | some profile =>
      match effective.networkProfiles.lookup profile with
      | some policy => .ok (some policy)
      | none => .error (.profileMissing profile)

/-- A container of the Compose source with the fields it declares. -/
def checkSource (source : Text × List Text) : Except ComposeError Unit :=
  match networkSourceFields.filter source.2.contains with
  | [] => .ok ()
  | conflicts => .error (.networkFields source.1 conflicts)

/-- The network part of `render_compose_override_snapshot`. -/
def composeNetwork (effective : Effective) (serviceId : Text) (service : Service)
    (sources : List (Text × List Text)) : Except ComposeError ComposeNetwork := do
  match ← composePolicy effective service with
  | none => .ok .untouched
  | some policy =>
    sources.forM checkSource
    match policy.mode with
    | .isolated => do
      let ingress ← applyIsolatedIngress (sources.map Prod.fst) service
      .ok (.isolated ingress ("nas-v2-".toList ++ serviceId))
    | .host =>
      if policy.outboundDefault ≠ .allow || policy.allowedEgress ≠ [] || !policy.lanAccess ||
          policy.allowedHostPorts ≠ [] then
        .error (.hostRestrictions serviceId)
      else .ok (.mode "host".toList)
    | .none =>
      if policy.allowedEgress ≠ [] || policy.allowedHostPorts ≠ [] || policy.lanAccess then
        .error (.noneExceptions serviceId)
      else if service.hasEndpoints then .error (.noneEndpoints serviceId)
      else .ok (.mode "none".toList)

/-- The refusals that are about an endpoint, and not about the policy. -/
def ComposeError.isEndpoint : ComposeError → Bool
  | .noTarget _ | .unknownTarget _ _ | .range _ | .unixRoute _ | .hostRoute _ | .conflict _ _ => true
  | .profileMissing _ | .networkFields _ _ | .hostRestrictions _ | .noneExceptions _
  | .noneEndpoints _ => false

/-- The policy passes: nothing is refused, or an endpoint is. -/
def PolicyAccepted {α : Type} : Except ComposeError α → Prop
  | .ok _ => True
  | .error err => err.isEndpoint = true

section

variable (sha256 : Text → Text) (effective : Effective) (id : Text) (service : Service)
  (firewalldEnabled : Bool)

/-- Both gates accept the policy, or neither does. -/
def GatesAgree (sources : List (Text × List Text)) : Prop :=
  PolicyAccepted (composeNetwork effective id service sources) ↔
    ∃ reference, quadletNetworkReference sha256 effective id service firewalldEnabled = .ok reference

/-- The two gates read `host` in opposite ways, so they agree where both refuse; an isolated policy
must have what only the Quadlet gate asks for. -/
def GatesMeet : Prop :=
  ∀ policy, declaredPolicy effective service = some policy →
    match policy.mode with
    | .host => policy.outboundDefault ≠ .allow ∨ policy.allowedHostPorts ≠ [] ∨
        policy.allowedEgress ≠ []
    | .isolated => policy.VlanFits ∧
        (needsIsolatedFirewalld service policy = true → firewalldEnabled = true)
    | .none => True

end

variable {sha256 : Text → Text} {effective : Effective} {id : Text} {service : Service}
  {firewalldEnabled : Bool} {sources : List (Text × List Text)}
variable {names : List Text} {endpoint : Endpoint} {err : ComposeError} {α : Type}

/-! ## Compose -/

theorem composePolicy_eq (h : Accepted effective) (hservice : (id, service) ∈ items effective.services) :
    composePolicy effective service = .ok (declaredPolicy effective service) := by
  rcases checkNetwork_ok (h.network _ hservice) with ⟨_, hprofile, _⟩
  unfold composePolicy declaredPolicy
  cases hname : service.networkProfile with
  | none => cases service.network <;> rfl
  | some profile =>
    rcases hprofile profile hname with ⟨hnetwork, policy, hpolicy⟩
    rw [show service.network = none from hnetwork]
    simp only [hpolicy]

theorem checkSource_ok {source : Text × List Text}
    (h : ∀ field ∈ networkSourceFields, field ∉ source.2) : checkSource source = .ok () := by
  have hnone : networkSourceFields.filter source.2.contains = [] := by
    rw [List.filter_eq_nil_iff]
    intro field hfield hcontains
    exact h field hfield (List.contains_iff_mem.mp hcontains)
  unfold checkSource
  rw [hnone]

theorem forM_checkSource (h : ∀ source ∈ sources, ∀ field ∈ networkSourceFields, field ∉ source.2) :
    sources.forM checkSource = .ok () := by
  induction sources with
  | nil => rfl
  | cons source sources ih =>
    rw [List.forall_mem_cons] at h
    show (checkSource source >>= fun _ ↦ sources.forM checkSource) = _
    rw [checkSource_ok h.1]
    exact ih h.2

theorem isEndpoint_of_target {target : Option Text}
    (h : composeIngressTarget names endpoint target = .error err) :
    err.isEndpoint = true := by
  unfold composeIngressTarget at h
  split at h
  · cases h
    rfl
  · cases h
    rfl
  · split at h
    · cases h
    · cases h
      rfl

theorem isEndpoint_of_publish {target : Text} {line : Publication} {ingress : Ingress}
    (h : publish endpoint target line ingress = .error err) : err.isEndpoint = true := by
  unfold publish at h
  rcases bind_error h with h | ⟨published, _, h⟩
  · rcases mapError_error h with ⟨held, rfl⟩
    rfl
  · cases h

theorem isEndpoint_of_ingress
    (h : applyIsolatedIngress names service = .error err) : err.isEndpoint = true := by
  unfold applyIsolatedIngress at h
  rcases bind_error h with h | ⟨ingress, _, h⟩
  · rcases foldlM_error h with ⟨entry, _, t, hstep⟩
    unfold composeListener at hstep
    rcases bind_error hstep with hstep | ⟨target, _, hstep⟩
    · exact isEndpoint_of_target hstep
    · split at hstep
      · exact isEndpoint_of_publish hstep
      · split at hstep
        · cases hstep
          rfl
        · exact isEndpoint_of_publish hstep
  · rcases foldlM_error h with ⟨entry, _, t, hstep⟩
    unfold composeRoute at hstep
    rcases bind_error hstep with hstep | ⟨target, _, hstep⟩
    · exact isEndpoint_of_target hstep
    · split at hstep
      · cases hstep
        rfl
      · split at hstep
        · cases hstep
          rfl
        · exact isEndpoint_of_publish hstep

theorem policyAccepted_ite {p : Prop} [Decidable p]
    {x : Except ComposeError α} (herr : err.isEndpoint = false) :
    PolicyAccepted (if p then .error err else x) ↔ ¬ p ∧ PolicyAccepted x := by
  split
  · rename_i hp
    show err.isEndpoint = true ↔ _
    rw [herr]
    exact ⟨nofun, fun h => (h.1 hp).elim⟩
  · rename_i hp
    exact (and_iff_right hp).symm

theorem policyAccepted_ok {a : α} : PolicyAccepted (.ok a) ↔ True := Iff.rfl

theorem policyAccepted_iff (h : Accepted effective)
    (hservice : (id, service) ∈ items effective.services)
    (hsources : ∀ source ∈ sources, ∀ field ∈ networkSourceFields, field ∉ source.2) :
    PolicyAccepted (composeNetwork effective id service sources) ↔
      ∀ policy, declaredPolicy effective service = some policy →
        match policy.mode with
        | .isolated => True
        | .host => policy.outboundDefault = .allow ∧ policy.allowedEgress = [] ∧
            policy.lanAccess = true ∧ policy.allowedHostPorts = []
        | .none => policy.allowedEgress = [] ∧ policy.allowedHostPorts = [] ∧
            policy.lanAccess = false ∧ service.hasEndpoints = false := by
  unfold composeNetwork
  rw [composePolicy_eq h hservice]
  cases hdeclared : declaredPolicy effective service with
  | none =>
    constructor
    · exact fun _ => nofun
    · exact fun _ => trivial
  | some policy =>
    simp only [Option.some.injEq, forall_eq']
    show PolicyAccepted (sources.forM checkSource >>= _) ↔ _
    rw [forM_checkSource hsources]
    cases hmode : policy.mode with
    | isolated =>
      refine iff_of_true ?_ trivial
      show PolicyAccepted (applyIsolatedIngress (sources.map Prod.fst) service >>= _)
      cases hingress : applyIsolatedIngress (sources.map Prod.fst) service with
      | ok ingress => exact trivial
      | error err => exact isEndpoint_of_ingress hingress
    | host =>
      show PolicyAccepted (if _ then _ else _) ↔ _
      rw [policyAccepted_ite rfl, policyAccepted_ok, and_true]
      simp only [ne_eq, Bool.or_eq_true, decide_eq_true_eq, Bool.not_eq_true', not_or, not_not,
        Bool.not_eq_false, and_assoc]
    | none =>
      show PolicyAccepted (if _ then _ else if _ then _ else _) ↔ _
      rw [policyAccepted_ite rfl, policyAccepted_ite rfl, policyAccepted_ok, and_true]
      simp only [ne_eq, Bool.or_eq_true, decide_eq_true_eq, not_or, not_not, Bool.not_eq_true,
        and_assoc]

/-! ## Quadlet -/

/-- What `quadlet_network_reference` asks of the policy of a Compose service. -/
theorem reference_ok_iff {policy : Policy} (hpolicy : networkPolicy effective service = .ok policy)
    (hruntime : service.runtime = .compose) (hkind : service.kind ≠ .session) :
    (∃ reference, quadletNetworkReference sha256 effective id service firewalldEnabled =
        .ok reference) ↔
      policy.VlanFits ∧
        match policy.mode with
        | .none => service.hasEndpoints = false ∧ policy.allowedHostPorts = [] ∧
            policy.allowedEgress = [] ∧ policy.lanAccess = false ∧ policy.vlanId = none
        | .host => policy.outboundDefault = .allow ∧ policy.lanAccess = false ∧
            policy.allowedHostPorts = [] ∧ policy.allowedEgress = [] ∧ policy.vlanId = none
        | .isolated => needsIsolatedFirewalld service policy = true → firewalldEnabled = true := by
  rw [← @vlanBinding_ok_iff sha256]
  unfold quadletNetworkReference
  rw [hpolicy]
  show (∃ reference, (vlanBinding sha256 policy >>= _) = .ok reference) ↔ _
  cases hvlan : vlanBinding sha256 policy with
  | error err =>
    constructor
    · rintro ⟨_, hreference⟩
      cases hreference
    · rintro ⟨⟨_, hok⟩, _⟩
      cases hok
  | ok vlan =>
    rw [exists_ok, true_and]
    have hid : vlan.isSome = policy.vlanId.isSome := vlanBinding_isSome hvlan
    show (∃ reference, modeReference sha256 id service policy vlan firewalldEnabled = _) ↔ _
    unfold modeReference
    cases hmode : policy.mode with
    | none =>
      simp only
      rw [exists_ok_ite, exists_ok_ite, hid]
      simp only [ne_eq, Bool.or_eq_true, decide_eq_true_eq, not_or, not_not, Bool.not_eq_true,
        and_assoc, Option.isSome_eq_false_iff, Option.isNone_iff_eq_none, exists_ok, and_true]
    | host =>
      simp only
      rw [exists_ok_ite, hid]
      simp only [ne_eq, Bool.or_eq_true, decide_eq_true_eq, not_or, not_not, Bool.not_eq_true,
        and_assoc, Option.isSome_eq_false_iff, Option.isNone_iff_eq_none, exists_ok, and_true]
    | isolated =>
      have hsupported : isolatedSupported sha256 id service policy firewalldEnabled =
          if needsIsolatedFirewalld service policy && !firewalldEnabled then
            .error (.firewalld id) else .ok () := by
        unfold isolatedSupported
        rw [hvlan]
        show ite _ _ (ite _ _ (ite _ _ _)) = _
        rw [if_neg (by rw [hruntime]; decide), if_neg (by simp [hkind]), if_neg (by simp [hkind])]
      simp only
      rw [hsupported]
      cases needsIsolatedFirewalld service policy with
      | false => exact iff_of_true ⟨_, rfl⟩ nofun
      | true =>
        cases firewalldEnabled with
        | false =>
          constructor
          · rintro ⟨_, hreference⟩
            cases hreference
          · intro hfirewalld
            cases hfirewalld rfl
        | true => exact iff_of_true ⟨_, rfl⟩ fun _ => rfl

/-! ## Agreement -/

/-- The gates agree on a Compose service exactly where `GatesMeet`.  A document has no `vlanParent`;
the host binds one only beside a `vlanId`. -/
theorem gatesAgree_iff (h : semanticValidate effective = .ok ())
    (hservice : (id, service) ∈ items effective.services) (hruntime : service.runtime = .compose)
    (hbound : ∀ policy, declaredPolicy effective service = some policy →
      policy.vlanId = none → policy.vlanParent = none)
    (hsources : ∀ source ∈ sources, ∀ field ∈ networkSourceFields, field ∉ source.2) :
    GatesAgree sha256 effective id service firewalldEnabled sources ↔
      GatesMeet effective service firewalldEnabled := by
  have haccepted := accepted_of_valid h
  rcases haccepted.policy hservice with ⟨found, hpolicy, hfound⟩
  rcases checkNetwork_ok (haccepted.network _ hservice) with ⟨hsession, _, hdeclared⟩
  have hkind : service.kind ≠ .session := by
    intro hkind
    rw [show service.runtime = .oci from hsession hkind] at hruntime
    cases hruntime
  unfold GatesAgree GatesMeet
  rw [policyAccepted_iff haccepted hservice hsources, reference_ok_iff hpolicy hruntime hkind]
  cases hnamed : declaredPolicy effective service with
  | none =>
    rw [hnamed] at hfound
    rw [show found = hostPolicy from hfound]
    refine iff_of_true (iff_of_true nofun ⟨.inl ⟨rfl, rfl⟩, rfl, rfl, rfl, rfl, rfl⟩) nofun
  | some policy =>
    rw [hnamed] at hfound
    rw [show found = policy from hfound]
    simp only [Option.some.injEq, forall_eq']
    -- outside `isolated` there is no VLAN
    have hvlan : policy.mode ≠ .isolated → policy.vlanId = none ∧ policy.VlanFits := by
      intro hmode
      have hcheck := (hdeclared policy hnamed).1
      unfold checkVlan at hcheck
      split at hcheck
      · rename_i hnone
        rw [Option.isNone_iff_eq_none] at hnone
        exact ⟨hnone, .inl ⟨hnone, hbound policy hnamed hnone⟩⟩
      · cases hcheck
    cases hmode : policy.mode with
    | isolated => simp only [true_iff]
    | none =>
      rcases hvlan (by rw [hmode]; decide) with ⟨hid, hfits⟩
      simp only [iff_true, hid, hfits, true_and, and_true]
      tauto
    | host =>
      rcases hvlan (by rw [hmode]; decide) with ⟨hid, hfits⟩
      simp only [hid, hfits, true_and, and_true]
      constructor
      · intro hagree
        by_contra hcore
        rw [not_or, not_or, not_not, not_not, not_not] at hcore
        rcases hcore with ⟨hout, hports, hegress⟩
        -- one gate wants LAN access and the other refuses it
        cases hlan : policy.lanAccess with
        | false =>
          have hcompose := hagree.mpr ⟨hout, hlan, hports, hegress⟩
          rw [hlan] at hcompose
          cases hcompose.2.2.1
        | true =>
          have hquadlet := hagree.mp ⟨hout, hegress, hlan, hports⟩
          rw [hlan] at hquadlet
          cases hquadlet.2.1
      · intro hcore
        refine iff_of_false ?_ ?_
        · rintro ⟨hout, hegress, _, hports⟩
          rcases hcore with h' | h' | h'
          · exact h' hout
          · exact h' hports
          · exact h' hegress
        · rintro ⟨hout, _, hports, hegress⟩
          rcases hcore with h' | h' | h'
          · exact h' hout
          · exact h' hports
          · exact h' hegress

def composed (policy : Policy) : Service :=
  ⟨true, true, .compose, .daemon, some policy, none, ∅, ∅⟩

theorem composedOnly_identifiers : ∀ id ∈ ["app".toList], Caddy.isSchemaId id = true :=
  forall_mem_of_all (by decide)

def composedOnly (policy : Policy) : Effective :=
  ⟨∅, .singleton "app".toList (composed policy), composedOnly_identifiers⟩

theorem mem_composedOnly (policy : Policy) :
    ("app".toList, composed policy) ∈ items (composedOnly policy).services := .head _

/-- The policy that `mode: host` alone stands for is refused by Compose. -/
theorem not_gatesAgree_host : semanticValidate (composedOnly hostPolicy) = .ok () ∧
    ¬ GatesAgree (fun value ↦ value) (composedOnly hostPolicy) "app".toList (composed hostPolicy)
      true [("main".toList, ["image".toList])] := by
  have hvalid : isOk (semanticValidate (composedOnly hostPolicy)) = true := by decide
  rcases exists_of_isOk hvalid with ⟨_, hvalid⟩
  refine ⟨hvalid, ?_⟩
  intro hagree
  have hquadlet : quadletNetworkReference (fun value ↦ value) (composedOnly hostPolicy) "app".toList
      (composed hostPolicy) true = .ok "host".toList := by
    decide
  exact Bool.false_ne_true (hagree.mpr ⟨_, hquadlet⟩)

/-- No network at all is accepted by both. -/
theorem gatesAgree_iff_noNetwork :
    GatesAgree (fun value ↦ value) (composedOnly { hostPolicy with mode := .none }) "app".toList
      (composed { hostPolicy with mode := .none }) true [("main".toList, ["image".toList])] := by
  have hvalid : isOk (semanticValidate (composedOnly { hostPolicy with mode := .none })) = true := by
    decide
  rcases exists_of_isOk hvalid with ⟨_, hvalid⟩
  have hdeclared : ∀ policy, declaredPolicy (composedOnly { hostPolicy with mode := .none })
      (composed { hostPolicy with mode := .none }) = some policy →
      policy = { hostPolicy with mode := .none } :=
    fun policy hpolicy => (Option.some.inj hpolicy).symm
  rw [gatesAgree_iff hvalid (mem_composedOnly _) rfl]
  · intro policy hpolicy
    rw [hdeclared policy hpolicy]
    trivial
  · intro policy hpolicy _
    rw [hdeclared policy hpolicy]
    rfl
  · exact forall_mem_of_all (by decide)

end NixNas.Network
