import Mathlib.Data.Set.List
import NixNas.Authentik.Portal

/-!
# The blueprint of an accepted document

What `build_effective` derives is what the blueprint reads.  An accepted document has a blueprint
unless its identifiers or its launch addresses are outside of what the blueprint takes.
-/

open Fallible

namespace NixNas.Authentik

open Spec

variable {F : Type}
variable {s : Shown F} {float : FloatEq F}

/-! ## What is derived -/

/-- What the schema says of the services and of the exposures of their routes. -/
structure PortalSchema (float : FloatEq F) (document : Object F) : Prop where
  version : ∃ value, find "schemaVersion".toList document = some value ∧
    eq float value (number 3) = true
  services : ∃ services, find "services".toList document = some (.object services) ∧
    ∀ e ∈ services, Caddy.isSchemaId e.1 = true ∧ ∀ service, e.2 = .object service →
      ∀ routes, find "routes".toList service = some (.object routes) → ∀ r ∈ routes, ∀ route,
        r.2 = .object route → ∃ exposure, find "exposure".toList route = some (.object exposure) ∧
          ExposureSchema exposure

section Derived

variable {serviceId : Text} {service capabilities : Object F}
variable {r : Plain F}

theorem foldlM_capabilities_ok {declared : List (Plain F)}
    (h : declared.foldlM (fun (capabilities : Object F) capability ↦ do
      let capability ← asEntry capability
      match ← getItem "id".toList capability with
      | .scalar (.string id) =>
        .ok (setItem capabilities id (joinText ["application.".toList, serviceId, ".".toList, id]))
      | _ => .error .typeError)
        [("access".toList, joinText ["application.".toList, serviceId, ".".toList, "access".toList])] =
      (.ok capabilities : Except Malformed (Object F))) :
    ∀ c ∈ capabilities, c.2 = joinText ["application.".toList, serviceId, ".".toList, c.1] := by
  refine foldlM_invariant
    (P := fun o : Object F ↦ ∀ c ∈ o, c.2 = joinText ["application.".toList, serviceId, ".".toList, c.1])
    h ?_ ?_
  · intro c hc
    rw [List.mem_singleton.mp hc]
  · intro value _ before after hold hstep
    obtain ⟨capability, -, hstep⟩ := bind_ok hstep
    obtain ⟨id, -, hstep⟩ := bind_ok hstep
    split at hstep
    · cases hstep
      intro c hc
      unfold setItem at hc
      split at hc
      · obtain ⟨d, hd, rfl⟩ := List.mem_map.mp hc
        split
        · rfl
        · exact hold d hd
      · rw [List.mem_append, List.mem_singleton] at hc
        rcases hc with hc | rfl
        · exact hold c hc
        · rfl
    · cases hstep

theorem serviceCapabilities_ok (h : Spec.serviceCapabilities serviceId service = .ok capabilities) :
    ∀ c ∈ capabilities, c.2 = .scalar (.string (Caddy.applicationCapability serviceId c.1)) := by
  obtain ⟨authorization, -, h⟩ := bind_ok h
  obtain ⟨declared, -, h⟩ := bind_ok h
  intro c hc
  rw [foldlM_capabilities_ok h c hc]
  unfold joinText Caddy.applicationCapability
  simp

theorem derivedRoute_ok {onDemand : Bool} {routeId : Text} {route : Object F}
    (h : derivedRoute serviceId capabilities onDemand routeId route = .ok r) :
    ∃ o, r = .object o ∧ textAt "service" o = some serviceId ∧ textAt "route" o = some routeId ∧
      find "exposure".toList o = find "exposure".toList route ∧
      (keyIs "authMode" "identity" o = true →
        ∃ c ∈ capabilities, find "requiredCapability".toList o = some c.2) := by
  unfold derivedRoute at h
  obtain ⟨auth, -, h⟩ := bind_ok h
  obtain ⟨mode, -, h⟩ := bind_ok h
  have hrest : ∃ required, (isText mode "identity" = true → ∃ c ∈ capabilities, c.2 = required) ∧
      (do
        let target ← getItem "target".toList route
        let exposure ← getItem "exposure".toList route
        let proxy ← getItem "proxy".toList route
        let portal ← getItem "portal".toList route
        Except.ok (Plain.object [("service".toList, .scalar (.string serviceId)),
          ("route".toList, .scalar (.string routeId)), ("authMode".toList, mode),
          ("requiredCapability".toList, required), ("onDemandWake".toList, boolean onDemand),
          ("target".toList, target), ("exposure".toList, exposure), ("proxy".toList, proxy),
          ("portal".toList, portal)])) = .ok r := by
    dsimp only at h
    split at h
    · obtain ⟨capability, -, h⟩ := bind_ok h
      split at h
      · obtain ⟨required, hrequired, h⟩ := bind_ok h
        exact ⟨required, fun _ => ⟨_, mem_of_find (getItem_ok.mp hrequired), rfl⟩, h⟩
      · obtain ⟨_, herror, -⟩ := bind_ok h
        cases herror
    · rename_i hmode
      obtain ⟨required, -, h⟩ := bind_ok h
      exact ⟨required, fun hidentity => (hmode hidentity).elim, h⟩
  obtain ⟨required, hrequired, h⟩ := hrest
  obtain ⟨target, -, h⟩ := bind_ok h
  obtain ⟨exposure, hexposure, h⟩ := bind_ok h
  obtain ⟨proxy, -, h⟩ := bind_ok h
  obtain ⟨portal, -, h⟩ := bind_ok h
  cases h
  refine ⟨_, rfl, rfl, rfl, ?_, ?_⟩
  · rw [getItem_ok.mp hexposure]
    rfl
  · intro hidentity
    obtain ⟨c, hc, rfl⟩ := hrequired hidentity
    exact ⟨c, hc, rfl⟩

theorem asEntry_ok {value : Plain F} {o : Object F} (h : asEntry value = .ok o) : value = .object o := by
  cases value with
  | scalar => cases h
  | array => cases h
  | object o' =>
    cases h
    rfl

/-- What a derived route has from its service and from its declaration. -/
def DerivedFrom (services : Object F) (r : Plain F) : Prop :=
  ∃ o, r = .object o ∧ ∃ serviceId service, (serviceId, .object service) ∈ services ∧
    textAt "service" o = some serviceId ∧ (∃ routeId, textAt "route" o = some routeId) ∧
    (∃ declared, find "routes".toList service = some (.object declared) ∧ ∃ e ∈ declared, ∃ route,
      e.2 = .object route ∧ find "exposure".toList o = find "exposure".toList route) ∧
    (keyIs "authMode" "identity" o = true → ∃ capabilities,
      Spec.serviceCapabilities serviceId service = .ok capabilities ∧
        ∃ c ∈ capabilities, find "requiredCapability".toList o = some c.2)

theorem derivedFrom_of_mem {services : Object F} {routes : List (Plain F)}
    (hmem : (serviceId, .object service) ∈ services) (h : derivedRoutes serviceId service = .ok routes)
    (hr : r ∈ routes) : DerivedFrom services r := by
  obtain ⟨capabilities, hcapabilities, h⟩ := bind_ok h
  obtain ⟨workload, -, h⟩ := bind_ok h
  obtain ⟨declared, hdeclared, h⟩ := bind_ok h
  obtain ⟨e, he, hroute⟩ := exists_left (mapM_ok h) hr
  obtain ⟨route, hentry, hroute⟩ := bind_ok hroute
  obtain ⟨o, rfl, hservice, hrouteId, hexposure, hgroup⟩ := derivedRoute_ok hroute
  exact ⟨o, rfl, serviceId, service, hmem, hservice, ⟨e.1, hrouteId⟩,
    ⟨declared, objectItem_ok hdeclared, e, he, route, asEntry_ok hentry, hexposure⟩,
    fun hidentity => ⟨capabilities, hcapabilities, hgroup hidentity⟩⟩

end Derived

variable {site : Site F} {validateSchema otherRules : Object F → Except SpecError Unit}
  {document effective previous : Object F}

theorem exists_objects {values : List (Plain F)} (h : ∀ v ∈ values, ∃ o, v = .object o) :
    ∃ os : List (Object F), os.map .object = values := by
  have hmem : values ∈ Set.range (List.map (Plain.object (F := F))) := by
    rw [Set.range_list_map]
    intro v hv
    obtain ⟨o, rfl⟩ := h v hv
    exact ⟨o, rfl⟩
  exact hmem

theorem keys_derived {α : Type} {derive : Text → Object F → Except Malformed α} {services : Object F}
    {derived : List (Text × α)} (h : deriveServices derive services = .ok derived) :
    derived.map Prod.fst = services.map Prod.fst := by
  have hall := deriveServices_ok h
  clear h
  induction hall with
  | nil => rfl
  | cons hentry _ ih => rw [List.map_cons, List.map_cons, hentry.1, ih]

theorem mem_objects {entries : List (Text × Object F)} {e : Text × Plain F} :
    e ∈ objects entries ↔ ∃ d ∈ entries, e = (d.1, .object d.2) := by
  unfold objects
  rw [List.mem_map]
  exact exists_congr fun d => and_congr_right fun _ => eq_comm

theorem built_of_compileDocument
    (hcompile : compileDocument validateSchema otherRules document = .ok effective)
    (hdict : Dict (.object document))
    (hschema : ∀ d, validateSchema d = .ok () → PortalSchema site.float d) :
    ∃ services authorization routes, Built site.float effective services authorization routes := by
  obtain ⟨normalized, hnormal, hvalid, -, hbuild⟩ := compileDocument_ok hcompile
  obtain ⟨⟨version, hversion, hthree⟩, services, hservices, hall⟩ := hschema _ hvalid
  have hdictNormal : Dict (.object normalized) := keeps_normalize _ _ hnormal hdict
  have hnodup : (services.map Prod.fst).Nodup := (hdictNormal.of_find hservices).1
  obtain ⟨services', hservices', hbuild⟩ := bind_ok hbuild
  cases hservices.symm.trans (objectItem_ok hservices')
  obtain ⟨authorization, hauthorization, hbuild⟩ := bind_ok hbuild
  obtain ⟨runtime, -, hbuild⟩ := bind_ok hbuild
  obtain ⟨routes, hroutes, hbuild⟩ := bind_ok hbuild
  obtain ⟨resources, -, hbuild⟩ := bind_ok hbuild
  obtain ⟨ids, -, hbuild⟩ := bind_ok hbuild
  have heffective := Except.ok.inj hbuild
  have hentries : ∀ serviceId service, (serviceId, .object service) ∈ services →
      ∃ capabilities, Spec.serviceCapabilities serviceId service = .ok capabilities ∧
        (serviceId, [("capabilities".toList, .object capabilities)]) ∈ authorization := by
    intro serviceId service hmem
    obtain ⟨d, hd, hkey, found, hvalue, hstep⟩ := exists_right (deriveServices_ok hauthorization) hmem
    cases hvalue
    obtain ⟨capabilities, hcapabilities, hstep⟩ := bind_ok hstep
    have hpair : d = (serviceId, [("capabilities".toList, .object capabilities)]) :=
      Prod.ext hkey (Except.ok.inj hstep).symm
    exact ⟨capabilities, hcapabilities, hpair ▸ hd⟩
  have hroute : ∀ r ∈ routes.flatMap Prod.snd, DerivedFrom services r := by
    intro r hr
    obtain ⟨d, hd, hr⟩ := List.mem_flatMap.mp hr
    obtain ⟨e, he, -, service, hvalue, hstep⟩ := exists_left (deriveServices_ok hroutes) hd
    exact derivedFrom_of_mem (hvalue ▸ he) hstep hr
  obtain ⟨os, hos⟩ : ∃ os : List (Object F), os.map .object = routes.flatMap Prod.snd := by
    apply exists_objects
    intro r hr
    obtain ⟨o, rfl, -⟩ := hroute r hr
    exact ⟨o, rfl⟩
  -- what is derived stands next to the fields of the document
  have hderived : ∀ derived, setItem normalized "derived".toList (.object derived) = effective →
      objectAt "derived" effective = some derived := by
    rintro derived rfl
    unfold objectAt
    rw [find_setItem, if_pos rfl]
  have hother : ∀ key : String, key.toList ≠ "derived".toList →
      find key.toList effective = find key.toList normalized := by
    intro key hne
    rw [← heffective, find_setItem, if_neg hne]
  have hauthorizationAt : (objectAt "derived" effective).bind (objectAt "authorization") =
      some (objects authorization) := by
    rw [hderived _ heffective]
    rfl
  refine ⟨services, objects authorization, os, ?_, ?_, hauthorizationAt, ?_, ?_, ?_, ?_, ?_, ?_⟩
  · rw [hother _ (by decide), hversion]
    exact hthree
  · unfold objectAt
    rw [hother _ (by decide), hservices]
  · rw [hderived _ heffective, hos]
    rfl
  · have hkeys : (objects authorization).map Prod.fst = authorization.map Prod.fst := by
      unfold objects
      rw [List.map_map]
      rfl
    rw [hkeys, keys_derived hauthorization]
    exact hnodup
  · intro e he
    obtain ⟨d, hd, rfl⟩ := mem_objects.mp he
    obtain ⟨entry, hentry, hkey, service, hvalue, hstep⟩ :=
      exists_left (deriveServices_ok hauthorization) hd
    obtain ⟨capabilities, hcapabilities, hstep⟩ := bind_ok hstep
    rw [← hkey] at hcapabilities
    refine ⟨?_, capabilities, ?_, serviceCapabilities_ok hcapabilities⟩
    · intro hdot
      have hid := (hall entry hentry).1
      rw [← hkey] at hid
      exact absurd (schemaIdChar hid '.' hdot) (by decide)
    · rw [← Except.ok.inj hstep]
  · intro o ho
    obtain ⟨_, ⟨⟩, serviceId, service, -, hservice, ⟨routeId, hrouteId⟩, -⟩ :=
      hroute _ (hos ▸ List.mem_map_of_mem ho)
    exact ⟨serviceId, routeId, hservice, hrouteId⟩
  · intro o ho hidentity
    obtain ⟨_, ⟨⟩, serviceId, service, hmem, -, -, -, hgroup⟩ :=
      hroute _ (hos ▸ List.mem_map_of_mem ho)
    obtain ⟨capabilities, hcapabilities, c, hc, hrequired⟩ := hgroup hidentity
    obtain ⟨capabilities', hcapabilities', hentry⟩ := hentries serviceId service hmem
    cases hcapabilities.symm.trans hcapabilities'
    refine ⟨(serviceId, c.2), ?_, hrequired⟩
    rw [compiledGroups_eq hauthorizationAt, List.mem_flatMap]
    exact ⟨_, mem_objects.mpr ⟨_, hentry, rfl⟩, List.mem_map.mpr ⟨c, hc, rfl⟩⟩
  · intro o ho
    obtain ⟨_, ⟨⟩, serviceId, service, hmem, -, -, ⟨declared, hdeclared, e, he, route, hvalue, hsame⟩, -⟩ :=
      hroute _ (hos ▸ List.mem_map_of_mem ho)
    obtain ⟨exposure, hexposure, hexposureSchema⟩ :=
      (hall _ hmem).2 service rfl declared hdeclared e he route hvalue
    refine ⟨exposure, ?_, hexposureSchema⟩
    unfold objectAt
    rw [hsame, hexposure]

/-! ## The projection -/

/-- A shown route has its application, bound to its own group and to the administrators. -/
structure Bound (entries : List Entry) (s : Shown F) : Prop where
  application : ∃ url, .application s.slug s.name url ∈ entries
  bindings : ∃ group, s.group = some group ∧ (∃ serviceId, .group group serviceId ∈ entries) ∧
    ∀ order g, .binding s.slug order g ∈ entries ↔
      order = 0 ∧ g = group ∨ order = 1 ∧ g = Caddy.adminGroup

/-- The document has a blueprint with one application for each shown route. -/
def Projected (site : Site F) (effective previous : Object F) : Prop :=
  ∃ capabilities apps entries manifest, desiredCapabilities site effective = .ok capabilities ∧
    desiredApplications site effective = .ok apps ∧
    renderBlueprint site effective previous = .ok (entries, manifest) ∧ (apps.map Prod.fst).Nodup ∧
    (apps.map Prod.fst).Perm ((shownRoutes effective).map Shown.slug) ∧
    ∀ s ∈ shownRoutes effective, Bound entries s

/-- The identifiers and the launch addresses are such as the blueprint takes them. -/
structure Projectable (site : Site F) (effective : Object F) : Prop where
  groups : ∀ g ∈ compiledGroups effective, SafeGroup g.2
  slugs : ∀ s ∈ shownRoutes effective, isSlug s.slug = true
  distinct : (shownRoutes effective).Pairwise fun a b ↦ a.slug ≠ b.slug
  hostnamePaths : ∀ s ∈ shownRoutes effective, keyIs "type" "path" s.exposure = false →
    ¬ "//".toList <+: s.path
  addresses : ∀ s ∈ shownRoutes effective, Printable (s.host site) ∧ Printable s.path

/-- The names that people write have no control characters. -/
def Titled (effective : Object F) : Prop :=
  ∀ s ∈ shownRoutes effective, (∀ t, textAt "title" s.portal = some t → Printable t) ∧
    ∀ t, textAt "name" s.service = some t → Printable t

theorem printable_append {a b : Text} : Printable (a ++ b) ↔ Printable a ∧ Printable b :=
  List.forall_mem_append

theorem printable_of_all {t : Text} (h : (t.all fun c ↦ ¬ (c.toNat < 32 ∨ c.toNat = 127)) = true) :
    Printable t := forall_mem_of_all h

theorem Shown.printable_url :
    Printable (s.url site) ↔ Printable (s.host site) ∧ Printable s.path := by
  have hscheme : Printable "https://".toList := printable_of_all (by decide)
  unfold Shown.url
  rw [printable_append, printable_append]
  exact ⟨fun h => ⟨h.1.2, h.2⟩, fun h => ⟨⟨hscheme, h.1⟩, h.2⟩⟩

theorem Shown.printable_name (htitle : ∀ t, textAt "title" s.portal = some t → Printable t)
    (hname : ∀ t, textAt "name" s.service = some t → Printable t) (hslug : isSlug s.slug = true) :
    Printable s.name := by
  unfold Shown.name applicationName
  split
  · rename_i title heq
    exact htitle title (Option.filter_eq_some_iff.mp heq).1
  · cases hservice : nonEmpty (textAt "name" s.service) with
    | some name =>
      rw [Option.getD_some]
      exact hname name (Option.filter_eq_some_iff.mp hservice).1
    | none =>
      have hchars := Authentik.printable_name (slugChar hslug)
      unfold Shown.slug slugOf at hchars
      rw [← List.singleton_append, printable_append, printable_append, printable_append] at hchars
      rw [Option.getD_none, printable_append, printable_append, printable_append, printable_append]
      exact ⟨⟨⟨⟨printable_of_all (by decide), hchars.1.2⟩, printable_of_all (by decide)⟩,
        hchars.2.2⟩, printable_of_all (by decide)⟩

theorem printable_capabilities {capabilities : List (Text × Text)}
    (hcapabilities : desiredCapabilities site effective = .ok capabilities)
    (howned : Owned capabilities) : ∀ e ∈ capabilities, Printable e.1 ∧ Printable e.2 := by
  intro e he
  have hsafe := (desiredCapabilities_safe hcapabilities).safe e.1 (List.mem_map_of_mem he)
  have hprintable : Printable e.1 := printable_name (capabilityChar hsafe)
  refine ⟨hprintable, ?_⟩
  obtain ⟨-, capability, hname⟩ := howned e he
  rw [hname] at hprintable
  unfold Caddy.applicationCapability at hprintable
  rw [printable_append, printable_append] at hprintable
  exact hprintable.1.2

/-- An accepted document has its projection exactly when its identifiers and its launch addresses
are such as the blueprint takes them. -/
theorem projected_iff
    (hcompile : compileDocument validateSchema otherRules document = .ok effective)
    (hdict : Dict (.object document))
    (hschema : ∀ d, validateSchema d = .ok () → PortalSchema site.float d)
    (hhost : unsafeHost site.publicHost = false) (htitled : Titled effective)
    (hpaths : ∀ s ∈ shownRoutes effective, keyIs "type" "path" s.exposure = true →
      ¬ "//".toList <+: s.path)
    {old : List Text × List Text} (hprevious : previousObjects site previous = .ok old) :
    Projected site effective previous ↔ Projectable site effective := by
  obtain ⟨services, authorization, routes, hbuilt⟩ := built_of_compileDocument hcompile hdict hschema
  obtain ⟨oldGroups, oldApps⟩ := old
  have hperm := hbuilt.sortedShown_perm
  constructor
  · rintro ⟨capabilities, apps, entries, manifest, hcapabilities, happs, hrender, -, -, -⟩
    obtain ⟨hlaunch, hdistinct, rfl⟩ := (hbuilt.desiredApplications_ok hhost).mp happs
    obtain ⟨howned, -⟩ := hbuilt.desiredCapabilities_ok hcapabilities
    obtain ⟨hprintable, -⟩ := (renderBlueprint_iff hcapabilities happs hprevious
      (printable_capabilities hcapabilities howned)).mp hrender
    refine ⟨hbuilt.exists_desiredCapabilities.mp ⟨_, hcapabilities⟩, fun s hs => (hlaunch s hs).slug,
      hdistinct, fun s hs _ => (hlaunch s hs).path, ?_⟩
    intro s hs
    exact Shown.printable_url.mp
      (hprintable _ (List.mem_map_of_mem (hperm.mem_iff.mpr hs))).url
  · intro h
    obtain ⟨capabilities, hcapabilities⟩ := hbuilt.exists_desiredCapabilities.mpr h.groups
    obtain ⟨howned, hlisted⟩ := hbuilt.desiredCapabilities_ok hcapabilities
    have hlaunch : ∀ s ∈ shownRoutes effective, s.Launchable := by
      intro s hs
      obtain ⟨-, -, g, hg, group, hgroup, hvalue⟩ := hbuilt.shown hs
      obtain ⟨name, hname, hcapability⟩ := h.groups g hg
      cases hvalue.symm.trans hname
      refine ⟨⟨group, hgroup, hcapability⟩, h.slugs s hs, ?_⟩
      cases htype : keyIs "type" "path" s.exposure with
      | true => exact hpaths s hs htype
      | false => exact h.hostnamePaths s hs htype
    have happs := (hbuilt.desiredApplications_ok hhost).mpr ⟨hlaunch, h.distinct, rfl⟩
    have hmem : ∀ app, app ∈ (sortedShown site services routes).map (Shown.made site) ↔
        ∃ s ∈ shownRoutes effective, s.made site = app := by
      intro app
      rw [List.mem_map]
      exact exists_congr fun s => and_congr_left fun _ => hperm.mem_iff
    have hprintable : ∀ app ∈ (sortedShown site services routes).map (Shown.made site),
        PrintableApplication app := by
      intro app happ
      obtain ⟨s, hs, rfl⟩ := (hmem app).mp happ
      obtain ⟨group, hgroup, hcapability⟩ := (hlaunch s hs).group
      refine ⟨printable_name (slugChar (h.slugs s hs)), ?_, Shown.printable_url.mpr (h.addresses s hs), ?_⟩
      · exact Shown.printable_name (htitled s hs).1 (htitled s hs).2 (h.slugs s hs)
      · unfold Shown.made
        rw [hgroup]
        exact printable_name (capabilityChar hcapability)
    have hrender := (renderBlueprint_iff hcapabilities happs hprevious
      (printable_capabilities hcapabilities howned)).mpr ⟨hprintable, rfl⟩
    refine ⟨capabilities, _, _, _, hcapabilities, happs, hrender, (desiredApplications_safe happs).nodup,
      ?_, ?_⟩
    · rw [List.map_map]
      exact hperm.map Shown.slug
    · intro s hs
      refine ⟨⟨s.url site, application_mem_allEntries.mpr
        ⟨s.made site, (hmem _).mpr ⟨s, hs, rfl⟩, rfl, rfl, rfl⟩⟩, ?_⟩
      obtain ⟨-, -, g, hg, group, hgroup, hvalue⟩ := hbuilt.shown hs
      refine ⟨group, hgroup, ?_, ?_⟩
      · obtain ⟨e, he, rfl⟩ := List.mem_map.mp (hlisted g hg group hvalue)
        exact ⟨e.2, group_mem_allEntries.mpr he⟩
      · intro order g
        have hmade : (s.made site).2.capability = group := by
          unfold Shown.made
          rw [hgroup]
          rfl
        rw [binding_mem_allEntries]
        constructor
        · intro ⟨app, happ, hslug, hbinding⟩
          obtain ⟨s', hs', rfl⟩ := (hmem app).mp happ
          -- the slug is that of no other shown route
          have hsame : s = s' :=
            List.inj_on_of_nodup_map (List.pairwise_map.mpr h.distinct) hs hs' hslug
          rw [← hsame, hmade] at hbinding
          exact hbinding
        · intro hbinding
          refine ⟨s.made site, (hmem _).mpr ⟨s, hs, rfl⟩, rfl, ?_⟩
          rw [hmade]
          exact hbinding

/-! ## Two services with one slug -/

def isAbsoluteText : Plain F → Bool
  | .scalar (.string p) => "/".toList.isPrefixOf p
  | _ => false

def exposureOk (exposure : Object F) : Bool :=
  if keyIs "type" "path" exposure then
    match find "paths".toList exposure with
    | some (.array (p :: _)) => isAbsoluteText p
    | _ => false
  else if keyIs "type" "hostname" exposure then
    match find "hostnames".toList exposure with
    | some (.array (.scalar (.string h) :: _)) =>
      decide (h ≠ []) && (find "path".toList exposure).all isAbsoluteText
    | _ => false
  else false

/-- The test of the schema, as far as it is stated. -/
def portalOk (float : FloatEq F) (document : Object F) : Bool :=
  (find "schemaVersion".toList document).any (eq float · (number 3)) &&
    match find "services".toList document with
    | some (.object services) => services.all fun e ↦ Caddy.isSchemaId e.1 &&
      (asObject (find "routes".toList (asObject (some e.2)))).all fun r ↦
        exposureOk (asObject (find "exposure".toList (asObject (some r.2))))
    | _ => false

theorem isAbsoluteText_iff {value : Plain F} :
    isAbsoluteText value = true ↔ ∃ p, value = .scalar (.string p) ∧ "/".toList <+: p := by
  unfold isAbsoluteText
  split
  · rw [List.isPrefixOf_iff_prefix]
    constructor
    · exact fun h => ⟨_, rfl, h⟩
    · rintro ⟨p, ⟨⟩, h⟩
      exact h
  · rename_i hother
    refine iff_of_false nofun ?_
    rintro ⟨p, rfl, -⟩
    exact hother p rfl

theorem exposureSchema_of_ok {exposure : Object F} (h : exposureOk exposure = true) :
    ExposureSchema exposure := by
  unfold exposureOk at h
  split at h
  · rename_i htype
    split at h
    · rename_i hfind
      obtain ⟨p, rfl, habsolute⟩ := isAbsoluteText_iff.mp h
      exact .path p _ (keyIs_iff.mp htype) hfind habsolute
    · cases h
  · split at h
    · rename_i htype
      split at h
      · rename_i hfind
        rw [Bool.and_eq_true, decide_eq_true_eq] at h
        refine .hostname _ _ (keyIs_iff.mp htype) hfind h.1 fun value hvalue => ?_
        have hpath := h.2
        rw [hvalue] at hpath
        exact isAbsoluteText_iff.mp hpath
      · cases h
    · cases h

theorem portalSchema_of_ok (h : portalOk float document = true) : PortalSchema float document := by
  unfold portalOk at h
  rw [Bool.and_eq_true] at h
  obtain ⟨hversion, h⟩ := h
  split at h
  · rename_i services hfind
    obtain ⟨version, hmem, hthree⟩ := (Option.any_eq_true _ _).mp hversion
    refine ⟨⟨version, hmem, hthree⟩, services, hfind, fun e he => ?_⟩
    have hentry := List.all_eq_true.mp h e he
    rw [Bool.and_eq_true] at hentry
    refine ⟨hentry.1, ?_⟩
    intro service hservice routes hroutes r hr route hroute
    have hall := hentry.2
    rw [hservice] at hall
    dsimp only [asObject] at hall
    rw [hroutes] at hall
    have hexposure := List.all_eq_true.mp hall r hr
    rw [hroute] at hexposure
    cases hfound : find "exposure".toList route with
    | none =>
      rw [hfound] at hexposure
      cases hexposure
    | some value =>
      rw [hfound] at hexposure
      cases value with
      | scalar => cases hexposure
      | array => cases hexposure
      | object exposure => exact ⟨exposure, rfl, exposureSchema_of_ok hexposure⟩
  · cases h

def validatePortal (float : FloatEq F) (document : Object F) : Except SpecError Unit :=
  if portalOk float document then .ok () else .error ⟨[], ['$'], "schema".toList⟩

theorem portalSchema_of_validate
    (h : validatePortal float document = .ok ()) : PortalSchema float document := by
  unfold validatePortal at h
  split at h
  · rename_i hok
    exact portalSchema_of_ok hok
  · cases h

def exampleSite : Site Empty where
  publicHost := "nas.example".toList
  float := .empty
  repr _ := []

def entriesAt (entries : List (String × Plain Empty)) : Plain Empty :=
  .object (entries.map fun e ↦ (e.1.toList, e.2))

def pageRoute (path : String) (port : Int) : Plain Empty :=
  entriesAt [("target", entriesAt [("type", text "http"), ("port", number port)]),
    ("exposure", entriesAt [("type", text "path"), ("paths", .array [text path])]),
    ("auth", entriesAt [("mode", text "identity")]), ("portal", entriesAt [("visible", boolean true)])]

def pageService (name unit routeId path : String) (port : Int) : Plain Empty :=
  entriesAt [("name", text name), ("workload", entriesAt [("kind", text "daemon")]),
    ("runtime", entriesAt [("type", text "systemd"), ("unit", text unit)]),
    ("routes", entriesAt [(routeId, pageRoute path port)])]

def pageDocument (services : List (String × Plain Empty)) : Object Empty :=
  [("schemaVersion".toList, number 3), ("services".toList, entriesAt services)]

/-- A service `a` with a route `b-c` and a service `a-b` with a route `c`. -/
def oneSlugDocument : Object Empty :=
  pageDocument [("a", pageService "First" "first.service" "b-c" "/one" 8081),
    ("a-b", pageService "Second" "second.service" "c" "/two" 8082)]

def compiledAt (document : Object Empty) : Object Empty :=
  match compileDocument (validatePortal exampleSite.float) (fun _ ↦ .ok ()) document with
  | .ok effective => effective
  | .error _ => []

theorem compileDocument_compiledAt {document : Object Empty}
    (h : isOk (compileDocument (validatePortal exampleSite.float) (fun _ ↦ .ok ()) document) = true) :
    compileDocument (validatePortal exampleSite.float) (fun _ ↦ .ok ()) document =
      .ok (compiledAt document) := by
  obtain ⟨effective, heffective⟩ := exists_of_isOk h
  unfold compiledAt
  rw [heffective]

def printableText (t : Text) : Bool := t.all fun c ↦ ¬ (c.toNat < 32 ∨ c.toNat = 127)

/-- The names of the route are printable, and its path is a path on the host. -/
def plainPage (s : Shown F) : Bool :=
  (textAt "title" s.portal).all printableText && (textAt "name" s.service).all printableText &&
    !"//".toList.isPrefixOf s.path

theorem plainPages (effective : Object F) (h : (shownRoutes effective).all plainPage = true) :
    Titled effective ∧ ∀ s ∈ shownRoutes effective, ¬ "//".toList <+: s.path := by
  have hpage : ∀ s ∈ shownRoutes effective, plainPage s = true := List.all_eq_true.mp h
  unfold plainPage at hpage
  simp only [Bool.and_eq_true, Option.all_eq_true, Bool.not_eq_true', ← Bool.not_eq_true,
    List.isPrefixOf_iff_prefix] at hpage
  constructor
  · intro s hs
    obtain ⟨⟨htitle, hname⟩, -⟩ := hpage s hs
    exact ⟨fun t ht => printable_of_all (htitle t ht), fun t ht => printable_of_all (hname t ht)⟩
  · exact fun s hs => (hpage s hs).2

/-- The document is accepted and its names and paths are plain, but both routes have one slug. -/
theorem not_projected_oneSlug : compileDocument (validatePortal exampleSite.float) (fun _ ↦ .ok ())
      oneSlugDocument = .ok (compiledAt oneSlugDocument) ∧
    unsafeHost exampleSite.publicHost = false ∧ Titled (compiledAt oneSlugDocument) ∧
    (∀ s ∈ shownRoutes (compiledAt oneSlugDocument), ¬ "//".toList <+: s.path) ∧
    ¬ Projected exampleSite (compiledAt oneSlugDocument) [] := by
  obtain ⟨htitled, hpaths⟩ := plainPages (compiledAt oneSlugDocument) (by rfl)
  refine ⟨compileDocument_compiledAt (by rfl), by decide, htitled, hpaths, ?_⟩
  have hslugs : (shownRoutes (compiledAt oneSlugDocument)).map Shown.slug =
      ["v2-a-b-c".toList, "v2-a-b-c".toList] := by rfl
  rintro ⟨_, _, _, _, -, -, -, hnodup, hperm, -⟩
  rw [hslugs] at hperm
  exact absurd (hperm.nodup_iff.mp hnodup) (by decide)

/-! ## Two services with a page each -/

def twoPagesDocument : Object Empty :=
  pageDocument [("app", pageService "App" "app.service" "web" "/app" 8080),
    ("books", pageService "Books" "books.service" "shelf" "/books" 8090)]

theorem projected_twoPages : Projected exampleSite (compiledAt twoPagesDocument) [] := by
  obtain ⟨htitled, hpaths⟩ := plainPages (compiledAt twoPagesDocument) (by rfl)
  have hdict : Dict (.object twoPagesDocument) := by
    simp [twoPagesDocument, pageDocument, pageService, pageRoute, entriesAt, Dict, DictEntries, DictItems,
      text, number, boolean]
  refine (projected_iff (compileDocument_compiledAt (by rfl)) hdict
    (fun _ => portalSchema_of_validate) (by decide) htitled (fun s hs _ => hpaths s hs)
    (rfl : previousObjects exampleSite [] = .ok ([], []))).mpr ?_
  have hslugs : (shownRoutes (compiledAt twoPagesDocument)).map Shown.slug =
      ["v2-app-web".toList, "v2-books-shelf".toList] := by rfl
  constructor
  · have hgroups : compiledGroups (compiledAt twoPagesDocument) =
        [("app".toList, text "application.app.access"),
          ("books".toList, text "application.books.access")] := by rfl
    rw [hgroups, List.forall_mem_cons, List.forall_mem_singleton]
    exact ⟨⟨_, rfl, by decide⟩, _, rfl, by decide⟩
  · intro s hs
    have hslug := List.mem_map_of_mem (f := Shown.slug) hs
    have hall : ∀ slug ∈ (shownRoutes (compiledAt twoPagesDocument)).map Shown.slug,
        isSlug slug = true := by
      rw [hslugs]
      decide
    exact hall s.slug hslug
  · have hdistinct : ((shownRoutes (compiledAt twoPagesDocument)).map Shown.slug).Nodup := by
      rw [hslugs]
      decide
    exact List.pairwise_map.mp hdistinct
  · exact fun s hs _ => hpaths s hs
  · have haddresses : (shownRoutes (compiledAt twoPagesDocument)).all (fun s ↦
      printableText (s.host exampleSite ++ s.path)) = true := by rfl
    intro s hs
    exact printable_append.mp (printable_of_all (List.all_eq_true.mp haddresses s hs))

end NixNas.Authentik
