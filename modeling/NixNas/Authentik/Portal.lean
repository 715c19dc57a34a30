import NixNas.Authentik.Removal
import NixNas.Lib.Admission
import NixNas.Lib.Association
import NixNas.Lib.Joined
import NixNas.Spec.Schema

/-!
# Applications of the shown routes

The blueprint has an application for each identity route that the portal shows.  Their slugs join
the identifiers of the service and of the route with hyphens, and both may have hyphens themselves.
-/

open Fallible Admission

namespace NixNas.Authentik

open Spec

variable {F : Type}
variable {apps : List (Text × Application)} {key : String} {o : Object F} {serviceId : Text}
  {app : Text × Application}

/-! ## The routes that the portal shows -/

/-- A shown route: its identifiers, its service, its portal entry and what is derived for it. -/
structure Shown (F : Type) where
  serviceId : Text
  routeId : Text
  service : Object F
  portal : Object F
  route : Object F

/-- A derived route that asks for an identity, of an enabled service, visible in the portal. -/
def shownAt (services : Object F) (route : Object F) : Option (Shown F) :=
  if keyIs "authMode" "identity" route then
    match textAt "service" route, textAt "route" route with
    | some serviceId, some routeId =>
      match find serviceId services with
      | some (.object service) =>
        if isTrueAt "enabled" service then
          match objectAt "portal" route with
          | some portal =>
            if isTrueAt "visible" portal then some ⟨serviceId, routeId, service, portal, route⟩ else none
          | none => none
        else none
      | _ => none
    | _, _ => none
  else none

/-- `derived.routes`. -/
def derivedRouteObjects (effective : Object F) : List (Object F) :=
  (asArray (find "routes".toList (asObject (find "derived".toList effective)))).filterMap fun
    | .object o => some o
    | _ => none

def shownRoutes (effective : Object F) : List (Shown F) :=
  (derivedRouteObjects effective).filterMap (shownAt (asObject (find "services".toList effective)))

def Shown.slug (s : Shown F) : Text := slugOf s.serviceId s.routeId

def Shown.exposure (s : Shown F) : Object F := asObject (find "exposure".toList s.route)

def Shown.group (s : Shown F) : Option Text := textAt "requiredCapability" s.route

def Shown.name (s : Shown F) : Text := applicationName s.serviceId s.routeId s.service s.portal

def Shown.host (site : Site F) (s : Shown F) : Text :=
  if keyIs "type" "path" s.exposure then site.publicHost
  else (firstText "hostnames" s.exposure).getD []

def Shown.path (s : Shown F) : Text :=
  if keyIs "type" "path" s.exposure then (firstText "paths" s.exposure).getD []
  else (textAt "path" s.exposure).getD "/".toList

def Shown.url (site : Site F) (s : Shown F) : Text := "https://".toList ++ s.host site ++ s.path

def compiledGroups (effective : Object F) : List (Text × Plain F) :=
  (asObject (find "authorization".toList (asObject (find "derived".toList effective)))).flatMap fun e ↦
    (asObject (find "capabilities".toList (asObject (some e.2)))).map fun c ↦ (e.1, c.2)

/-! ## One application -/

def Shown.application (site : Site F) (s : Shown F) : Option (Text × Application) :=
  match s.group, objectAt "exposure" s.route with
  | some group, some exposure =>
    if isCapability group && isSlug s.slug then
      match launchUrl site exposure with
      | .ok url => some (s.slug, ⟨s.name, url, group⟩)
      | .error _ => none
    else none
  | _, _ => none

def addShown (site : Site F) (apps : List (Text × Application)) (s : Shown F) :
    Except BlueprintError (List (Text × Application)) :=
  addApplication site apps s.serviceId s.routeId s.service s.portal s.route

variable {s : Shown F}

theorem addShown_ok {site : Site F} {apps' : List (Text × Application)} :
    addShown site apps s = .ok apps' ↔
      ∃ app, s.application site = some app ∧ app.1 ∉ apps.map Prod.fst ∧ apps' = apps ++ [app] := by
  unfold addShown addApplication Shown.application Shown.group
  cases hgroup : textAt "requiredCapability" s.route with
  | none =>
    constructor
    · exact nofun
    · rintro ⟨_, h, _⟩
      cases h
  | some group =>
    dsimp only
    rw [guard_ok_iff, guard_ok_iff, Bool.not_eq_true', Bool.not_eq_true', Bool.not_eq_false,
      Bool.not_eq_false]
    cases hexposure : objectAt "exposure" s.route with
    | none =>
      constructor
      · intro h
        cases h.2.2
      · rintro ⟨_, h, _⟩
        cases h
    | some exposure =>
      dsimp only
      rw [guard_ok_iff]
      constructor
      · intro ⟨hcapability, hslug, hnew, h⟩
        obtain ⟨url, hurl, rfl⟩ := map_ok h
        refine ⟨(s.slug, ⟨s.name, url, group⟩), ?_, hnew, rfl⟩
        have hsafe : (isCapability group && isSlug s.slug) = true := by
          rw [hcapability, Bool.true_and]
          exact hslug
        rw [if_pos hsafe, hurl]
      · rintro ⟨app, happ, hnew, rfl⟩
        rw [Option.ite_none_right_eq_some, Bool.and_eq_true] at happ
        obtain ⟨⟨hcapability, hslug⟩, happ⟩ := happ
        cases hurl : launchUrl site exposure with
        | error e =>
          rw [hurl] at happ
          cases happ
        | ok url =>
          rw [hurl] at happ
          cases happ
          exact ⟨hcapability, hslug, hnew, rfl⟩

theorem foldlM_addShown {site : Site F} {shown : List (Shown F)} :
    shown.foldlM (addShown site) [] = .ok apps ↔
      shown.mapM (Shown.application site) = some apps ∧ apps.Pairwise fun a b ↦ a.1 ≠ b.1 := by
  apply foldlM_collect_iff
  intro apps s apps'
  rw [addShown_ok]
  refine exists_congr fun app => and_congr_right fun _ => and_congr_left fun _ => ?_
  rw [List.mem_map, not_exists]
  exact forall_congr' fun c => not_and

/-! ## What the compiler guarantees -/

inductive ExposureSchema (exposure : Object F) : Prop where
  | path (p : Text) (rest : List (Plain F)) (type : find "type".toList exposure = some (text "path"))
    (paths : find "paths".toList exposure = some (.array (.scalar (.string p) :: rest)))
    (absolute : "/".toList <+: p)
  | hostname (h : Text) (rest : List (Plain F))
    (type : find "type".toList exposure = some (text "hostname"))
    (hostnames : find "hostnames".toList exposure = some (.array (.scalar (.string h) :: rest)))
    (nonempty : h ≠ [])
    (path : ∀ value, find "path".toList exposure = some value →
      ∃ p, value = .scalar (.string p) ∧ "/".toList <+: p)

/-- The fields of a compiled document that the blueprint reads. -/
structure Built (float : FloatEq F) (effective services authorization : Object F)
    (routes : List (Object F)) : Prop where
  hasVersion : (find "schemaVersion".toList effective).any (eq float · (number 3)) = true
  hasServices : objectAt "services" effective = some services
  hasAuthorization :
    (objectAt "derived" effective).bind (objectAt "authorization") = some authorization
  hasRoutes : (objectAt "derived" effective).bind (find "routes".toList ·) =
    some (.array (routes.map .object))
  nodup : (authorization.map Prod.fst).Nodup
  /-- Each service has its capabilities with the names of their groups. -/
  entry : ∀ e ∈ authorization, '.' ∉ e.1 ∧ ∃ capabilities : Object F,
    e.2 = .object [("capabilities".toList, .object capabilities)] ∧
      ∀ c ∈ capabilities, c.2 = .scalar (.string (Caddy.applicationCapability e.1 c.1))
  identifiers : ∀ o ∈ routes, ∃ serviceId routeId, textAt "service" o = some serviceId ∧
    textAt "route" o = some routeId
  /-- An identity route requires one of the groups. -/
  group : ∀ o ∈ routes, keyIs "authMode" "identity" o = true → ∃ e ∈ compiledGroups effective,
    find "requiredCapability".toList o = some e.2
  exposure : ∀ o ∈ routes, ∃ exposure, objectAt "exposure" o = some exposure ∧ ExposureSchema exposure

variable {site : Site F} {effective services authorization : Object F} {routes : List (Object F)}

theorem asObject_objectAt {value : Object F} (h : objectAt key o = some value) :
    asObject (find key.toList o) = value := by
  unfold objectAt at h
  split at h
  · rename_i hfind
    cases h
    rw [hfind]
    rfl
  · cases h

theorem Built.derivedRouteObjects_eq (h : Built site.float effective services authorization routes) :
    derivedRouteObjects effective = routes := by
  obtain ⟨derived, hderived, hroutes⟩ := Option.bind_eq_some_iff.mp h.hasRoutes
  unfold derivedRouteObjects
  rw [asObject_objectAt hderived, hroutes]
  unfold asArray
  rw [List.filterMap_map]
  exact List.filterMap_some

theorem Built.shownRoutes_eq (h : Built site.float effective services authorization routes) :
    shownRoutes effective = routes.filterMap (shownAt services) := by
  unfold shownRoutes
  rw [h.derivedRouteObjects_eq, asObject_objectAt h.hasServices]

theorem compiledGroups_eq
    (h : (objectAt "derived" effective).bind (objectAt "authorization") = some authorization) :
    compiledGroups effective = authorization.flatMap fun e ↦
      (asObject (find "capabilities".toList (asObject (some e.2)))).map fun c ↦ (e.1, c.2) := by
  obtain ⟨derived, hderived, hauthorization⟩ := Option.bind_eq_some_iff.mp h
  unfold compiledGroups
  rw [asObject_objectAt hderived, asObject_objectAt hauthorization]

/-! ## Groups -/

def Owned (capabilities : List (Text × Text)) : Prop :=
  ∀ e ∈ capabilities, '.' ∉ e.2 ∧ ∃ capability, e.1 = Caddy.applicationCapability e.2 capability

theorem owner_unique {serviceId' capability capability' : Text} (h : '.' ∉ serviceId)
    (h' : '.' ∉ serviceId') (heq : Caddy.applicationCapability serviceId capability =
      Caddy.applicationCapability serviceId' capability') : serviceId = serviceId' := by
  unfold Caddy.applicationCapability at heq
  rw [List.append_assoc, List.append_assoc] at heq
  exact ((Joined.join_inj h h').mp (List.append_cancel_left heq)).1

section Groups

variable {capabilities capabilities' : List (Text × Text)} {capability : Text}
variable {value : Plain F} {values : List (Plain F)}

theorem addCapability_ok_iff (howned : Owned capabilities) (hdot : '.' ∉ serviceId) :
    (∃ capabilities', addCapability serviceId capabilities
      (.scalar (.string (Caddy.applicationCapability serviceId capability)) : Plain F) =
        .ok capabilities') ↔ isCapability (Caddy.applicationCapability serviceId capability) = true := by
  unfold addCapability
  dsimp only
  split
  · rename_i hsafe
    refine iff_of_true ?_ hsafe
    split
    · exact ⟨_, rfl⟩
    · -- a group that stands there already is one of the same service
      rename_i previous hlookup
      obtain ⟨hprevious, other, hname⟩ := howned _ (Association.mem_of_lookup hlookup)
      rw [if_pos (owner_unique hprevious hdot hname.symm)]
      exact ⟨_, rfl⟩
  · rename_i hunsafe
    exact iff_of_false nofun hunsafe

theorem addCapability_ok (h : addCapability serviceId capabilities value =
    .ok capabilities') : ∃ name, value = .scalar (.string name) ∧
      name ∈ capabilities'.map Prod.fst ∧ capabilities ⊆ capabilities' ∧
      ∀ e ∈ capabilities', e ∈ capabilities ∨ e = (name, serviceId) := by
  unfold addCapability at h
  split at h
  · rename_i name
    refine ⟨name, rfl, ?_⟩
    obtain ⟨-, h⟩ | ⟨-, h⟩ := ite_eq_iff.mp h
    · split at h
      · cases h
        refine ⟨?_, List.subset_append_left _ _, ?_⟩
        · rw [List.map_append]
          exact List.mem_append_right _ List.mem_cons_self
        · intro e he
          rw [List.mem_append, List.mem_singleton] at he
          exact he
      · rename_i previous hlookup
        obtain ⟨-, h⟩ | ⟨-, h⟩ := ite_eq_iff.mp h
        · cases h
          exact ⟨List.mem_map_of_mem (Association.mem_of_lookup hlookup), List.Subset.refl _, fun e he => .inl he⟩
        · cases h
    · cases h
  · cases h

theorem addCapability_owned (howned : Owned capabilities) (hdot : '.' ∉ serviceId)
    (h : addCapability serviceId capabilities
      (.scalar (.string (Caddy.applicationCapability serviceId capability)) : Plain F) =
        .ok capabilities') : Owned capabilities' := by
  obtain ⟨name, hname, -, -, hnew⟩ := addCapability_ok h
  cases hname
  intro e he
  rcases hnew e he with hold | rfl
  · exact howned e hold
  · exact ⟨hdot, capability, rfl⟩

variable {items : Object F}

theorem exists_foldlM_addCapability (howned : Owned capabilities) (hdot : '.' ∉ serviceId)
    (hitems : ∀ c ∈ items, c.2 = .scalar (.string (Caddy.applicationCapability serviceId c.1))) :
    (∃ capabilities', (items.map Prod.snd).foldlM (addCapability serviceId) capabilities =
      .ok capabilities') ↔
        ∀ c ∈ items, isCapability (Caddy.applicationCapability serviceId c.1) = true := by
  rw [List.foldlM_map]
  refine foldlM_ok_iff_forall (P := Owned) ?_ ?_ howned
  · intro c hc capabilities howned
    rw [hitems c hc]
    exact addCapability_ok_iff howned hdot
  · intro c hc capabilities capabilities' howned hadd
    rw [hitems c hc] at hadd
    exact addCapability_owned howned hdot hadd

theorem foldlM_addCapability_owned (howned : Owned capabilities) (hdot : '.' ∉ serviceId)
    (hitems : ∀ c ∈ items, c.2 = .scalar (.string (Caddy.applicationCapability serviceId c.1)))
    (h : (items.map Prod.snd).foldlM (addCapability serviceId) capabilities = .ok capabilities') :
    Owned capabilities' := by
  rw [List.foldlM_map] at h
  refine foldlM_invariant (P := Owned) h howned fun c hc _ _ hold hadd => ?_
  rw [hitems c hc] at hadd
  exact addCapability_owned hold hdot hadd

theorem foldlM_addCapability_subset
    (h : values.foldlM (addCapability serviceId) capabilities = .ok capabilities') :
    capabilities ⊆ capabilities' := by
  refine foldlM_invariant (P := (capabilities ⊆ ·)) h (List.Subset.refl _) fun c _ _ _ hold hadd => ?_
  obtain ⟨_, -, -, hgrows, -⟩ := addCapability_ok hadd
  exact List.Subset.trans hold hgrows

def Listed (capabilities : List (Text × Text)) (value : Plain F) : Prop :=
  ∀ name, value = .scalar (.string name) → name ∈ capabilities.map Prod.fst

theorem Listed.mono (h : Listed capabilities value)
    (hsubset : capabilities ⊆ capabilities') : Listed capabilities' value :=
  fun name hname => List.map_subset _ hsubset (h name hname)

theorem foldlM_addCapability_listed
    (h : values.foldlM (addCapability serviceId) capabilities = .ok capabilities') :
    ∀ value ∈ values, Listed capabilities' value := by
  refine foldlM_each h ?_ ?_
  · intro value _ before after hadd name hname
    obtain ⟨name', hname', hmem, -, -⟩ := addCapability_ok hadd
    cases hname.symm.trans hname'
    exact hmem
  · intro value _ other before after hold hadd
    obtain ⟨_, -, -, hgrows, -⟩ := addCapability_ok hadd
    exact hold.mono hgrows

end Groups

def SafeGroup (value : Plain F) : Prop := ∃ name, value = .scalar (.string name) ∧ isCapability name = true

theorem Built.serviceCapabilities_eq
    (h : Built site.float effective services authorization routes) {e : Text × Plain F}
    (he : e ∈ authorization) : ∃ items : Object F,
      (∀ c ∈ items, c.2 = .scalar (.string (Caddy.applicationCapability e.1 c.1))) ∧
      (∀ value, (e.1, value) ∈ compiledGroups effective ↔ value ∈ items.map Prod.snd) ∧
      ∀ capabilities, serviceCapabilities authorization capabilities e.1 =
        (items.map Prod.snd).foldlM (addCapability e.1) capabilities := by
  obtain ⟨-, items, hvalue, hitems⟩ := h.entry e he
  refine ⟨items, hitems, ?_, ?_⟩
  · intro value
    rw [compiledGroups_eq h.hasAuthorization, List.mem_flatMap]
    constructor
    · intro ⟨e', he', hmem⟩
      obtain ⟨c, hc, heq⟩ := List.mem_map.mp hmem
      obtain ⟨hkey, rfl⟩ := Prod.mk.inj heq
      have hfound := find_of_mem h.nodup he'
      rw [hkey, find_of_mem h.nodup he, hvalue] at hfound
      rw [← Option.some.inj hfound] at hc
      exact List.mem_map_of_mem hc
    · intro hmem
      obtain ⟨c, hc, rfl⟩ := List.mem_map.mp hmem
      refine ⟨e, he, List.mem_map.mpr ⟨c, ?_, rfl⟩⟩
      rw [hvalue]
      exact hc
  · intro capabilities
    unfold serviceCapabilities
    rw [find_of_mem h.nodup he, hvalue]
    rfl

theorem mem_sortedKeys :
    serviceId ∈ (authorization.map Prod.fst).mergeSort (fun a b ↦ decide (a ≤ b)) ↔
      ∃ e ∈ authorization, e.1 = serviceId := by
  rw [List.mem_mergeSort, List.mem_map]

theorem Built.exists_of_compiled (h : Built site.float effective services authorization routes)
    {g : Text × Plain F} (hg : g ∈ compiledGroups effective) : ∃ e ∈ authorization, e.1 = g.1 := by
  rw [compiledGroups_eq h.hasAuthorization, List.mem_flatMap] at hg
  obtain ⟨e, he, hmem⟩ := hg
  obtain ⟨c, -, rfl⟩ := List.mem_map.mp hmem
  exact ⟨e, he, rfl⟩

theorem Built.desiredCapabilities_eq (h : Built site.float effective services authorization routes) :
    desiredCapabilities site effective = ((authorization.map Prod.fst).mergeSort
      fun a b ↦ decide (a ≤ b)).foldlM (serviceCapabilities authorization) [] := by
  unfold desiredCapabilities
  rw [h.hasVersion, if_neg (by decide), h.hasAuthorization]

theorem Built.exists_desiredCapabilities
    (h : Built site.float effective services authorization routes) :
    (∃ capabilities, desiredCapabilities site effective = .ok capabilities) ↔
      ∀ g ∈ compiledGroups effective, SafeGroup g.2 := by
  rw [h.desiredCapabilities_eq, foldlM_ok_iff_forall (P := Owned)
    (Q := fun serviceId ↦ ∀ value, (serviceId, value) ∈ compiledGroups effective → SafeGroup value)]
  · constructor
    · intro hall g hg
      obtain ⟨e, he, hkey⟩ := h.exists_of_compiled hg
      exact hall g.1 (mem_sortedKeys.mpr ⟨e, he, hkey⟩) g.2 hg
    · intro hall serviceId _ value hg
      exact hall _ hg
  · intro serviceId hmem capabilities howned
    obtain ⟨e, he, rfl⟩ := mem_sortedKeys.mp hmem
    obtain ⟨items, hitems, hgroups, heq⟩ := h.serviceCapabilities_eq he
    rw [heq, exists_foldlM_addCapability howned (h.entry e he).1 hitems]
    constructor
    · intro hsafe value hvalue
      obtain ⟨c, hc, rfl⟩ := List.mem_map.mp ((hgroups value).mp hvalue)
      exact ⟨_, hitems c hc, hsafe c hc⟩
    · intro hsafe c hc
      obtain ⟨name, hname, hcapability⟩ := hsafe c.2 ((hgroups _).mpr (List.mem_map_of_mem hc))
      rw [hitems c hc] at hname
      cases hname
      exact hcapability
  · intro serviceId hmem capabilities capabilities' howned hservice
    obtain ⟨e, he, rfl⟩ := mem_sortedKeys.mp hmem
    obtain ⟨items, hitems, -, heq⟩ := h.serviceCapabilities_eq he
    rw [heq] at hservice
    exact foldlM_addCapability_owned howned (h.entry e he).1 hitems hservice
  · exact nofun

theorem Built.desiredCapabilities_ok
    (h : Built site.float effective services authorization routes) {capabilities : List (Text × Text)}
    (hcapabilities : desiredCapabilities site effective = .ok capabilities) :
    Owned capabilities ∧ ∀ g ∈ compiledGroups effective, Listed capabilities g.2 := by
  rw [h.desiredCapabilities_eq] at hcapabilities
  constructor
  · refine foldlM_invariant (P := Owned) hcapabilities nofun fun serviceId hmem _ _ howned hservice => ?_
    obtain ⟨e, he, rfl⟩ := mem_sortedKeys.mp hmem
    obtain ⟨items, hitems, -, heq⟩ := h.serviceCapabilities_eq he
    rw [heq] at hservice
    exact foldlM_addCapability_owned howned (h.entry e he).1 hitems hservice
  · intro g hg
    obtain ⟨e, he, hkey⟩ := h.exists_of_compiled hg
    have hall := foldlM_each (R := fun capabilities serviceId ↦
      ∀ value, (serviceId, value) ∈ compiledGroups effective → Listed capabilities value) hcapabilities
    refine hall ?_ ?_ g.1 (mem_sortedKeys.mpr ⟨e, he, hkey⟩) g.2 hg
    · intro serviceId hmem before after hservice value hvalue
      obtain ⟨e', he', rfl⟩ := mem_sortedKeys.mp hmem
      obtain ⟨items, -, hgroups, heq⟩ := h.serviceCapabilities_eq he'
      rw [heq] at hservice
      exact foldlM_addCapability_listed hservice value ((hgroups value).mp hvalue)
    · intro serviceId hmem other before after hold hservice value hvalue
      obtain ⟨e', he', rfl⟩ := mem_sortedKeys.mp hmem
      obtain ⟨items, -, -, heq⟩ := h.serviceCapabilities_eq he'
      rw [heq] at hservice
      exact (hold value hvalue).mono (foldlM_addCapability_subset hservice)

/-! ## All applications -/

theorem routeApplication_eq {routeId : Text}
    (hservice : textAt "service" o = some serviceId) (hroute : textAt "route" o = some routeId) :
    routeApplication site services apps o =
      match shownAt services o with
      | some s => addShown site apps s
      | none => .ok apps := by
  unfold routeApplication shownAt
  rw [hservice, hroute]
  cases keyIs "authMode" "identity" o with
  | false => rfl
  | true =>
    dsimp only [Bool.not_true, Bool.false_eq_true, if_false, if_true]
    cases find serviceId services with
    | none => rfl
    | some value =>
      cases value with
      | scalar => rfl
      | array => rfl
      | object service =>
        dsimp only
        cases isTrueAt "enabled" service with
        | false => rfl
        | true =>
          cases objectAt "portal" o with
          | none => rfl
          | some portal =>
            dsimp only
            cases isTrueAt "visible" portal with
            | false => rfl
            | true => rfl

/-- The shown routes in the order in which the blueprint goes through them. -/
def sortedShown (site : Site F) (services : Object F) (routes : List (Object F)) : List (Shown F) :=
  (routes.mergeSort (routeLe site)).filterMap (shownAt services)

theorem Built.sortedShown_perm (h : Built site.float effective services authorization routes) :
    (sortedShown site services routes).Perm (shownRoutes effective) := by
  rw [h.shownRoutes_eq]
  exact (List.mergeSort_perm routes (routeLe site)).filterMap _

theorem Built.desiredApplications_eq (h : Built site.float effective services authorization routes)
    (hhost : unsafeHost site.publicHost = false) :
    desiredApplications site effective = (sortedShown site services routes).foldlM (addShown site) [] := by
  have hobjects : (routes.map Plain.object).mapM (fun route ↦ match route with
      | .object o => some o
      | _ => none) = some routes := by
    rw [mapM_some_iff, List.forall₂_map_left_iff]
    exact List.forall₂_same.mpr fun _ _ => rfl
  unfold desiredApplications sortedShown
  rw [hhost, if_neg Bool.false_ne_true, h.hasServices, h.hasRoutes]
  dsimp only
  split
  · rename_i hnone
    cases hobjects.symm.trans hnone
  rename_i found hfound
  cases hobjects.symm.trans hfound
  rw [List.foldlM_filterMap]
  have hmem : ∀ o ∈ routes.mergeSort (routeLe site), o ∈ routes := fun o ho => List.mem_mergeSort.mp ho
  generalize routes.mergeSort (routeLe site) = sortedRoutes at hmem
  generalize ([] : List (Text × Application)) = apps
  induction sortedRoutes generalizing apps with
  | nil => rfl
  | cons o rest ih =>
    rw [List.forall_mem_cons] at hmem
    obtain ⟨serviceId, routeId, hservice, hroute⟩ := h.identifiers o hmem.1
    rw [List.foldlM_cons, List.foldlM_cons, routeApplication_eq hservice hroute]
    cases shownAt services o with
    | none => exact ih hmem.2 apps
    | some s =>
      dsimp only
      congr 1
      funext apps'
      exact ih hmem.2 apps'

/-! ## Launch addresses -/

theorem keyIs_eq_false {a b : String} (h : find key.toList o = some (text a))
    (hne : a ≠ b) : keyIs key b o = false := by
  rw [← Bool.not_eq_true, keyIs_iff, h]
  exact fun heq => hne (text_injective (Option.some.inj heq))

theorem firstText_of_find {t : Text} {rest : List (Plain F)}
    (h : find key.toList o = some (.array (.scalar (.string t) :: rest))) (hne : t ≠ []) :
    firstText key o = some t := by
  unfold firstText
  rw [h]
  exact if_neg hne

theorem isSafePath_iff {p : Text} (h : "/".toList <+: p) :
    isSafePath p = true ↔ ¬ "//".toList <+: p := by
  unfold isSafePath
  rw [List.isPrefixOf_iff_prefix.mpr h, Bool.true_and, Bool.not_eq_true', ← Bool.not_eq_true,
    List.isPrefixOf_iff_prefix]

theorem launchUrl_iff (h : ExposureSchema s.exposure) {url : Text} :
    launchUrl site s.exposure = .ok url ↔ ¬ "//".toList <+: s.path ∧ url = s.url site := by
  have hsafe : ∀ {p u : Text} {e : BlueprintError}, "/".toList <+: p →
      ((if isSafePath p then Except.ok u else .error e) = .ok url ↔ ¬ "//".toList <+: p ∧ url = u) := by
    intro p u e hp
    rw [← isSafePath_iff hp]
    split
    · rename_i hsafe
      rw [Except.ok.injEq, eq_comm]
      exact (and_iff_right hsafe).symm
    · rename_i hunsafe
      exact iff_of_false nofun fun h => hunsafe h.1
  cases h with
  | path p rest type paths absolute =>
    have hne : p ≠ [] := by
      rintro rfl
      exact absurd absolute (by decide)
    have htype : keyIs "type" "path" s.exposure = true := keyIs_iff.mpr type
    have hpath : s.path = p := by
      unfold Shown.path
      rw [if_pos htype, firstText_of_find paths hne, Option.getD_some]
    have hhost : s.host site = site.publicHost := if_pos htype
    unfold launchUrl Shown.url
    rw [if_pos htype, firstText_of_find paths hne, hpath, hhost]
    exact hsafe absolute
  | hostname host rest type hostnames nonempty path =>
    have htype : ¬ keyIs "type" "path" s.exposure = true :=
      Bool.eq_false_iff.mp (keyIs_eq_false type (by decide))
    have hhost : s.host site = host := by
      unfold Shown.host
      rw [if_neg htype, firstText_of_find hostnames nonempty, Option.getD_some]
    unfold launchUrl Shown.url
    rw [if_neg htype, if_pos (keyIs_iff.mpr type), firstText_of_find hostnames nonempty, hhost]
    unfold Shown.path
    rw [if_neg htype]
    unfold textAt
    cases hfind : find "path".toList s.exposure with
    | none =>
      have hroot : ¬ "//".toList <+: "/".toList := by decide
      dsimp only [Option.getD_none]
      rw [Except.ok.injEq, eq_comm]
      exact (and_iff_right hroot).symm
    | some value =>
      obtain ⟨p, rfl, habsolute⟩ := path value hfind
      exact hsafe habsolute

/-! ## The applications of a compiled document -/

structure Shown.Launchable (s : Shown F) : Prop where
  group : ∃ group, s.group = some group ∧ isCapability group = true
  slug : isSlug s.slug = true
  path : ¬ "//".toList <+: s.path

def Shown.made (site : Site F) (s : Shown F) : Text × Application :=
  (s.slug, ⟨s.name, s.url site, s.group.getD []⟩)

theorem Shown.application_iff (hexposure : objectAt "exposure" s.route = some s.exposure)
    (hschema : ExposureSchema s.exposure) :
    s.application site = some app ↔ s.Launchable ∧ app = s.made site := by
  unfold Shown.application Shown.made
  rw [hexposure]
  cases hgroup : s.group with
  | none =>
    refine iff_of_false nofun ?_
    rintro ⟨⟨⟨_, hsome, _⟩, _, _⟩, _⟩
    cases hgroup.symm.trans hsome
  | some group =>
    dsimp only
    rw [Option.ite_none_right_eq_some, Bool.and_eq_true]
    constructor
    · intro ⟨⟨hcapability, hslug⟩, happ⟩
      split at happ
      · rename_i url hurl
        obtain ⟨hpath, rfl⟩ := (launchUrl_iff hschema).mp hurl
        cases happ
        exact ⟨⟨⟨group, hgroup, hcapability⟩, hslug, hpath⟩, rfl⟩
      · cases happ
    · rintro ⟨⟨⟨_, hsome, hcapability⟩, hslug, hpath⟩, rfl⟩
      cases hgroup.symm.trans hsome
      rw [(launchUrl_iff hschema).mpr ⟨hpath, rfl⟩]
      exact ⟨⟨hcapability, hslug⟩, rfl⟩

theorem shownAt_route (h : shownAt services o = some s) :
    s.route = o ∧ keyIs "authMode" "identity" o = true := by
  unfold shownAt at h
  split at h
  · rename_i hmode
    refine ⟨?_, hmode⟩
    split at h
    · split at h
      · split at h
        · split at h
          · split at h
            · cases h
              rfl
            · cases h
          · cases h
        · cases h
      · cases h
    · cases h
  · cases h

theorem Built.shown (h : Built site.float effective services authorization routes)
    (hs : s ∈ shownRoutes effective) : objectAt "exposure" s.route = some s.exposure ∧
      ExposureSchema s.exposure ∧ ∃ g ∈ compiledGroups effective, ∃ group, s.group = some group ∧
        g.2 = .scalar (.string group) := by
  rw [h.shownRoutes_eq, List.mem_filterMap] at hs
  obtain ⟨o, ho, hshown⟩ := hs
  obtain ⟨rfl, hmode⟩ := shownAt_route hshown
  obtain ⟨exposure, hexposure, hschema⟩ := h.exposure _ ho
  have heq : s.exposure = exposure := asObject_objectAt hexposure
  rw [heq]
  refine ⟨hexposure, hschema, ?_⟩
  obtain ⟨g, hg, hrequired⟩ := h.group _ ho hmode
  refine ⟨g, hg, ?_⟩
  rw [compiledGroups_eq h.hasAuthorization, List.mem_flatMap] at hg
  obtain ⟨e, he, hmem⟩ := hg
  obtain ⟨c, hc, rfl⟩ := List.mem_map.mp hmem
  obtain ⟨-, items, hvalue, hitems⟩ := h.entry e he
  rw [hvalue] at hc
  have hname := hitems c hc
  refine ⟨_, ?_, hname⟩
  unfold Shown.group textAt
  rw [hrequired, hname]

theorem Built.desiredApplications_ok (h : Built site.float effective services authorization routes)
    (hhost : unsafeHost site.publicHost = false) :
    desiredApplications site effective = .ok apps ↔ (∀ s ∈ shownRoutes effective, s.Launchable) ∧
      (shownRoutes effective).Pairwise (fun a b ↦ a.slug ≠ b.slug) ∧
        apps = (sortedShown site services routes).map (Shown.made site) := by
  have hperm := h.sortedShown_perm
  have happ : ∀ s ∈ sortedShown site services routes, ∀ app, s.application site = some app ↔
      s.Launchable ∧ app = s.made site := by
    intro s hs app
    obtain ⟨hexposure, hschema, -⟩ := h.shown (hperm.mem_iff.mp hs)
    exact Shown.application_iff hexposure hschema
  have hmem : (∀ s ∈ shownRoutes effective, s.Launchable) ↔
      ∀ s ∈ sortedShown site services routes, s.Launchable :=
    forall_congr' fun s => by rw [hperm.mem_iff]
  have hpairs : (shownRoutes effective).Pairwise (fun a b ↦ a.slug ≠ b.slug) ↔
      ((sortedShown site services routes).map (Shown.made site)).Pairwise fun a b ↦ a.1 ≠ b.1 := by
    rw [List.pairwise_map]
    exact hperm.symm.pairwise_iff fun h => h.symm
  rw [h.desiredApplications_eq hhost, foldlM_addShown, mapM_some_iff_map happ, hmem, hpairs]
  constructor
  · rintro ⟨⟨hlaunch, rfl⟩, hpairs⟩
    exact ⟨hlaunch, hpairs, rfl⟩
  · rintro ⟨hlaunch, hpairs, rfl⟩
    exact ⟨⟨hlaunch, rfl⟩, hpairs⟩

/-! ## What is written -/

def Printable (value : Text) : Prop := ∀ c ∈ value, ¬ (c.toNat < 32 ∨ c.toNat = 127)

theorem quoted_iff {value result : Text} : quoted value = .ok result ↔ Printable value ∧ result = value := by
  unfold quoted
  rw [guard_ok_iff, Except.ok.injEq, eq_comm (a := value)]
  refine and_congr_left fun _ => ?_
  unfold Printable
  rw [List.any_eq_true, not_exists]
  refine forall_congr' fun c => ?_
  rw [not_and, Bool.or_eq_true, decide_eq_true_eq, decide_eq_true_eq]

theorem printable_name {name : Text} (h : ∀ c ∈ name, isNameChar c = true) : Printable name :=
  fun c hc => toNat_isNameChar (h c hc)

def entriesOf (app : Text × Application) : List Entry :=
  [.application app.1 app.2.name app.2.launchUrl, .binding app.1 0 app.2.capability,
    .binding app.1 1 Caddy.adminGroup]

structure PrintableApplication (app : Text × Application) : Prop where
  slug : Printable app.1
  name : Printable app.2.name
  url : Printable app.2.launchUrl
  capability : Printable app.2.capability

theorem applicationEntries_iff {entries : List Entry} :
    applicationEntries app = .ok entries ↔ PrintableApplication app ∧ entries = entriesOf app := by
  have hadmin : quoted Caddy.adminGroup = .ok Caddy.adminGroup := by decide
  unfold applicationEntries
  rw [hadmin]
  constructor
  · intro h
    obtain ⟨slug, hslug, h⟩ := bind_ok h
    obtain ⟨name, hname, h⟩ := bind_ok h
    obtain ⟨url, hurl, h⟩ := bind_ok h
    obtain ⟨capability, hcapability, h⟩ := bind_ok h
    cases h
    obtain ⟨slugSafe, rfl⟩ := quoted_iff.mp hslug
    obtain ⟨nameSafe, rfl⟩ := quoted_iff.mp hname
    obtain ⟨urlSafe, rfl⟩ := quoted_iff.mp hurl
    obtain ⟨capabilitySafe, rfl⟩ := quoted_iff.mp hcapability
    exact ⟨⟨slugSafe, nameSafe, urlSafe, capabilitySafe⟩, rfl⟩
  · rintro ⟨⟨hslug, hname, hurl, hcapability⟩, rfl⟩
    rw [quoted_iff.mpr ⟨hslug, rfl⟩, quoted_iff.mpr ⟨hname, rfl⟩, quoted_iff.mpr ⟨hurl, rfl⟩,
      quoted_iff.mpr ⟨hcapability, rfl⟩]
    rfl

theorem safeNames_safe {test : Text → Bool} {items : List (Plain F)} {names : List Text}
    (h : safeNames test items = some names) : ∀ name ∈ names, test name = true := by
  unfold safeNames at h
  rw [Option.ite_none_right_eq_some] at h
  obtain ⟨-, h⟩ := h
  cases h
  intro name hname
  obtain ⟨item, -, hitem⟩ := List.mem_filterMap.mp hname
  split at hitem
  · obtain ⟨hsafe, heq⟩ := Option.ite_none_right_eq_some.mp hitem
    cases heq
    exact hsafe
  · cases hitem

theorem previousObjects_safe {previous : Object F} {groups apps : List Text}
    (h : previousObjects site previous = .ok (groups, apps)) :
    (∀ name ∈ groups, isCapability name = true) ∧ ∀ slug ∈ apps, isSlug slug = true := by
  unfold previousObjects at h
  split at h
  · cases h
    exact ⟨nofun, nofun⟩
  · obtain ⟨-, h⟩ := guard_ok h
    split at h
    · split at h
      · rename_i hgroups happs
        cases h
        exact ⟨safeNames_safe hgroups, safeNames_safe happs⟩
      · cases h
    · cases h

section Render

variable {previous : Object F} {capabilities : List (Text × Text)} {oldGroups oldApps : List Text}
variable {name slug : Text}

def allEntries (capabilities : List (Text × Text)) (apps : List (Text × Application))
    (oldGroups oldApps : List Text) : List Entry :=
  (byName capabilities).map (fun e ↦ .group e.1 e.2) ++ (byName apps).flatMap entriesOf ++
    (sorted (oldApps.filter (· ∉ apps.map Prod.fst))).map .absentApplication ++
    (sorted (oldGroups.filter (· ∉ capabilities.map Prod.fst))).map .absentGroup

theorem groupEntry_iff {capability : Text × Text} {entry : Entry} : groupEntry capability = .ok entry ↔
    (Printable capability.1 ∧ Printable capability.2) ∧ entry = .group capability.1 capability.2 := by
  constructor
  · intro h
    obtain ⟨name, hname, h⟩ := bind_ok h
    obtain ⟨serviceId, hservice, h⟩ := bind_ok h
    cases h
    obtain ⟨nameSafe, rfl⟩ := quoted_iff.mp hname
    obtain ⟨serviceSafe, rfl⟩ := quoted_iff.mp hservice
    exact ⟨⟨nameSafe, serviceSafe⟩, rfl⟩
  · rintro ⟨⟨hname, hservice⟩, rfl⟩
    unfold groupEntry
    rw [quoted_iff.mpr ⟨hname, rfl⟩, quoted_iff.mpr ⟨hservice, rfl⟩]
    rfl

theorem renderBlueprint_iff (hcapabilities : desiredCapabilities site effective = .ok capabilities)
    (happs : desiredApplications site effective = .ok apps)
    (hprevious : previousObjects site previous = .ok (oldGroups, oldApps))
    (hgroups : ∀ e ∈ capabilities, Printable e.1 ∧ Printable e.2) {r : List Entry × Object F} :
    renderBlueprint site effective previous = .ok r ↔ (∀ app ∈ apps, PrintableApplication app) ∧
      r = (allEntries capabilities apps oldGroups oldApps, manifestOf capabilities apps) := by
  obtain ⟨hsafeGroups, hsafeApps⟩ := previousObjects_safe hprevious
  have hgroupEntries : (byName capabilities).mapM groupEntry =
      .ok ((byName capabilities).map fun e ↦ .group e.1 e.2) :=
    (mapM_ok_iff_map fun _ _ => groupEntry_iff).mpr
      ⟨fun e he => hgroups e (mem_byName.mp he), rfl⟩
  have hstaleApps : ∀ slug ∈ sorted (oldApps.filter (· ∉ apps.map Prod.fst)), quoted slug = .ok slug :=
    fun slug hslug => quoted_name (slugChar (hsafeApps slug (List.mem_filter.mp (mem_sorted.mp hslug)).1))
  have hstaleGroups : ∀ name ∈ sorted (oldGroups.filter (· ∉ capabilities.map Prod.fst)),
      quoted name = .ok name := fun name hname =>
    quoted_name (capabilityChar (hsafeGroups name (List.mem_filter.mp (mem_sorted.mp hname)).1))
  have hmem : (∀ app ∈ apps, PrintableApplication app) ↔
      ∀ app ∈ byName apps, PrintableApplication app := forall_congr' fun app => by rw [mem_byName]
  have happEntries : ∀ blocks, (byName apps).mapM applicationEntries = .ok blocks ↔
      (∀ app ∈ byName apps, PrintableApplication app) ∧ blocks = (byName apps).map entriesOf :=
    fun _ => mapM_ok_iff_map fun _ _ => applicationEntries_iff
  unfold renderBlueprint
  rw [hcapabilities, happs, hprevious]
  show ((byName capabilities).mapM groupEntry >>= fun _ ↦
    (byName apps).mapM applicationEntries >>= fun _ ↦ _ >>= fun _ ↦ _ >>= _) = _ ↔ _
  rw [hgroupEntries, mapM_quoted hstaleApps, mapM_quoted hstaleGroups, hmem]
  show ((byName apps).mapM applicationEntries >>= _) = _ ↔ _
  constructor
  · intro h
    obtain ⟨blocks, hblocks, h⟩ := bind_ok h
    obtain ⟨hprintable, rfl⟩ := (happEntries blocks).mp hblocks
    cases h
    exact ⟨hprintable, rfl⟩
  · rintro ⟨hprintable, rfl⟩
    rw [(happEntries _).mpr ⟨hprintable, rfl⟩]
    rfl

theorem group_mem_allEntries {serviceId : Text} :
    .group name serviceId ∈ allEntries capabilities apps oldGroups oldApps ↔
      (name, serviceId) ∈ capabilities := by
  unfold allEntries entriesOf
  simp [mem_byName]

theorem application_mem_allEntries {url : Text} :
    .application slug name url ∈ allEntries capabilities apps oldGroups oldApps ↔
      ∃ app ∈ apps, slug = app.1 ∧ name = app.2.name ∧ url = app.2.launchUrl := by
  unfold allEntries entriesOf
  simp [mem_byName]

theorem binding_mem_allEntries {group : Text} {order : Nat} :
    .binding slug order group ∈ allEntries capabilities apps oldGroups oldApps ↔
      ∃ app ∈ apps, slug = app.1 ∧
        (order = 0 ∧ group = app.2.capability ∨ order = 1 ∧ group = Caddy.adminGroup) := by
  unfold allEntries entriesOf
  simp [mem_byName, ← and_or_left]

end Render

end NixNas.Authentik
