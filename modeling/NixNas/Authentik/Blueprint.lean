import Mathlib.Data.Finset.SDiff
import NixNas.Caddy.Groups
import NixNas.Spec.Effective
import NixNas.Spec.Equality

/-!
# The blueprint of the managed services (`services/nas_v2_authentik_blueprint.py`)

A blueprint is the list of its entries; the lines of the file that say them are left out.
-/

open Fallible

namespace NixNas.Authentik

open Spec

variable {F : Type}
variable {test : Text → Bool} {names : List Text} {name : Text} {capabilities : List (Text × Text)}
  {effective : Object F}

inductive BlueprintError where
  | missingInput
  | notAnObject
  | schemaVersion
  | missingAuthorization
  | invalidAuthorization (serviceId : Text)
  | unsafeCapability
  | sharedCapability (name : Text)
  | unsafeHost
  | missingRoutes
  | routeNotAnObject
  | invalidIdentifiers
  | invalidCapability (serviceId routeId : Text)
  | unsafeSlug (slug : Text)
  | invalidExposure (serviceId routeId : Text)
  | duplicateSlug (slug : Text)
  | unsafeLaunchPath
  | unsafeLaunchUrl
  | unsupportedExposure
  | controlCharacter
  | unsupportedManifest
  | invalidManifest
  | unsafeManifest
deriving DecidableEq, Repr

/-- The public host of the deployment, and what the values of a document are to Python. -/
structure Site (F : Type) where
  publicHost : Text
  float : FloatEq F
  /-- `str(value)` of a value that is no text. -/
  repr : Plain F → Text

/-! ## Names -/

/-- `CAPABILITY_RE`. -/
def isCapability (name : Text) : Bool :=
  let front := "application.".toList
  front.isPrefixOf name &&
    match (name.drop front.length).span (· ≠ '.') with
    | (service, _ :: capability) => isIdentifier service && Caddy.isCapabilityId capability
    | (_, []) => false

def isSlugChar (c : Char) : Bool := c.isLower || c.isDigit

/-- `SLUG_RE`. -/
def isSlug (slug : Text) : Bool :=
  match slug with
  | [] => false
  | c :: rest => isSlugChar c && rest.length ≤ 127 && rest.all fun d ↦ isSlugChar d || d = '-'

/-- `_q` without the quotes. -/
def quoted (value : Text) : Except BlueprintError Text :=
  if value.any fun c ↦ c.toNat < 32 || c.toNat = 127 then .error .controlCharacter else .ok value

/-! ## Desired objects -/

def objectAt (key : String) (o : Object F) : Option (Object F) :=
  match find key.toList o with
  | some (.object value) => some value
  | _ => none

def textAt (key : String) (o : Object F) : Option Text :=
  match find key.toList o with
  | some (.scalar (.string value)) => some value
  | _ => none

/-- `object.get(key) is True`. -/
def isTrueAt (key : String) (o : Object F) : Bool :=
  match find key.toList o with
  | some (.scalar (.boolean b)) => b
  | _ => false

def addCapability (serviceId : Text) (capabilities : List (Text × Text)) (value : Plain F) :
    Except BlueprintError (List (Text × Text)) :=
  match value with
  | .scalar (.string name) =>
    if isCapability name then
      match capabilities.lookup name with
      | none => .ok (capabilities ++ [(name, serviceId)])
      | some previous =>
        if previous = serviceId then .ok capabilities else .error (.sharedCapability name)
    else .error .unsafeCapability
  | _ => .error .unsafeCapability

def serviceCapabilities (authorization : Object F) (capabilities : List (Text × Text))
    (serviceId : Text) : Except BlueprintError (List (Text × Text)) :=
  match find serviceId authorization with
  | some (.object service) =>
    match objectAt "capabilities" service with
    | some mapping => (mapping.map Prod.snd).foldlM (addCapability serviceId) capabilities
    | none => .error (.invalidAuthorization serviceId)
  | _ => .error (.invalidAuthorization serviceId)

/-- `desired_capabilities`: the groups and the services that they belong to. -/
def desiredCapabilities (site : Site F) (effective : Object F) :
    Except BlueprintError (List (Text × Text)) :=
  if !(find "schemaVersion".toList effective).any (eq site.float · (number 3)) then
    .error .schemaVersion
  else
    match (objectAt "derived" effective).bind (objectAt "authorization") with
    | none => .error .missingAuthorization
    | some authorization =>
      ((authorization.map Prod.fst).mergeSort fun a b ↦ decide (a ≤ b)).foldlM
        (serviceCapabilities authorization) []

/-- `items[0]` of `object.get(key)` where it is a text and not empty. -/
def firstText (key : String) (o : Object F) : Option Text :=
  match find key.toList o with
  | some (.array (.scalar (.string value) :: _)) => if value = [] then none else some value
  | _ => none

def isSafePath (path : Text) : Bool := "/".toList.isPrefixOf path && !"//".toList.isPrefixOf path

def launchUrl (site : Site F) (exposure : Object F) : Except BlueprintError Text :=
  if keyIs "type" "path" exposure then
    match firstText "paths" exposure with
    | some path =>
      if isSafePath path then .ok ("https://".toList ++ site.publicHost ++ path)
      else .error .unsafeLaunchPath
    | none => .error .unsafeLaunchPath
  else if keyIs "type" "hostname" exposure then
    match firstText "hostnames" exposure, find "path".toList exposure with
    | some hostname, none => .ok ("https://".toList ++ hostname ++ "/".toList)
    | some hostname, some (.scalar (.string path)) =>
      if isSafePath path then .ok ("https://".toList ++ hostname ++ path) else .error .unsafeLaunchUrl
    | _, _ => .error .unsafeLaunchUrl
  else .error .unsupportedExposure

structure Application where
  name : Text
  launchUrl : Text
  capability : Text
deriving DecidableEq, Repr

/-- `f"v2-{service_id}-{route_id}"`. -/
def slugOf (serviceId routeId : Text) : Text := "v2-".toList ++ serviceId ++ '-' :: routeId

def nonEmpty (value : Option Text) : Option Text := value.filter (· ≠ [])

def applicationName (serviceId routeId : Text) (service portal : Object F) : Text :=
  match nonEmpty (textAt "title" portal) with
  | some title => title
  | none => (nonEmpty (textAt "name" service)).getD
      ("NAS ".toList ++ serviceId ++ " (".toList ++ routeId ++ ")".toList)

def addApplication (site : Site F) (apps : List (Text × Application)) (serviceId routeId : Text)
    (service portal route : Object F) : Except BlueprintError (List (Text × Application)) :=
  match textAt "requiredCapability" route with
  | none => .error (.invalidCapability serviceId routeId)
  | some capability =>
    if !isCapability capability then .error (.invalidCapability serviceId routeId)
    else if !isSlug (slugOf serviceId routeId) then .error (.unsafeSlug (slugOf serviceId routeId))
    else
      match objectAt "exposure" route with
      | none => .error (.invalidExposure serviceId routeId)
      | some exposure =>
        if slugOf serviceId routeId ∈ apps.map Prod.fst then
          .error (.duplicateSlug (slugOf serviceId routeId))
        else (launchUrl site exposure).map fun url ↦ apps ++
          [(slugOf serviceId routeId, ⟨applicationName serviceId routeId service portal, url, capability⟩)]

/-- One round of the loop of `desired_applications`. -/
def routeApplication (site : Site F) (services : Object F) (apps : List (Text × Application))
    (route : Object F) : Except BlueprintError (List (Text × Application)) :=
  if !keyIs "authMode" "identity" route then .ok apps
  else
    match textAt "service" route, textAt "route" route with
    | some serviceId, some routeId =>
      match find serviceId services with
      | some (.object service) =>
        if !isTrueAt "enabled" service then .ok apps
        else
          match objectAt "portal" route with
          | some portal =>
            if isTrueAt "visible" portal then
              addApplication site apps serviceId routeId service portal route
            else .ok apps
          | none => .ok apps
      | _ => .ok apps
    | _, _ => .error .invalidIdentifiers

/-- `str(object.get(key))`. -/
def strAt (site : Site F) (key : String) (o : Object F) : Text :=
  match find key.toList o with
  | some (.scalar (.string value)) => value
  | some value => site.repr value
  | none => "None".toList

def routeLe (site : Site F) (a b : Object F) : Bool :=
  let s := strAt site "service"
  let r := strAt site "route"
  decide (s a < s b ∨ (s a = s b ∧ r a ≤ r b))

def unsafeHost (host : Text) : Bool := host = [] || host.any (· ∈ ['/', '\r', '\n', '\x00'])

def desiredApplications (site : Site F) (effective : Object F) :
    Except BlueprintError (List (Text × Application)) :=
  if unsafeHost site.publicHost then .error .unsafeHost
  else
    match objectAt "services" effective,
      (objectAt "derived" effective).bind fun derived ↦ find "routes".toList derived with
    | some services, some (.array routes) =>
      match routes.mapM fun route ↦ match route with
        | .object o => some o
        | _ => none with
      | none => .error .routeNotAnObject
      | some routes => (routes.mergeSort (routeLe site)).foldlM (routeApplication site services) []
    | _, _ => .error .missingRoutes

/-! ## The manifest of the objects -/

/-- The texts that the test accepts, where all elements are such texts and none comes twice. -/
def safeNames (test : Text → Bool) (items : List (Plain F)) : Option (List Text) :=
  let names := items.filterMap fun item ↦ match item with
    | .scalar (.string name) => if test name then some name else none
    | _ => none
  if names.dedup.length = items.length then some names else none

/-- `previous.get(key, [])`. -/
def listAt (key : String) (o : Object F) : Option (List (Plain F)) :=
  match find key.toList o with
  | none => some []
  | some (.array items) => some items
  | some _ => none

/-- `_previous_objects`: the groups and the applications. -/
def previousObjects (site : Site F) (previous : Object F) :
    Except BlueprintError (List Text × List Text) :=
  if previous.isEmpty then .ok ([], [])
  else if !(find "schemaVersion".toList previous).any (eq site.float · (number 1)) then
    .error .unsupportedManifest
  else
    match listAt "groups" previous, listAt "applications" previous with
    | some rawGroups, some rawApps =>
      match safeNames isCapability rawGroups, safeNames isSlug rawApps with
      | some groups, some apps => .ok (groups, apps)
      | _, _ => .error .unsafeManifest
    | _, _ => .error .invalidManifest

def sorted (names : List Text) : List Text := names.mergeSort fun a b ↦ decide (a ≤ b)

def manifestOf (capabilities : List (Text × Text)) (apps : List (Text × Application)) : Object F :=
  [("schemaVersion".toList, number 1),
    ("groups".toList, .array ((sorted (capabilities.map Prod.fst)).map fun g ↦ .scalar (.string g))),
    ("applications".toList, .array ((sorted (apps.map Prod.fst)).map fun a ↦ .scalar (.string a)))]

/-! ## The entries -/

inductive Entry where
  | group (name serviceId : Text)
  | application (slug name launchUrl : Text)
  | binding (slug : Text) (order : Nat) (group : Text)
  | absentApplication (slug : Text)
  | absentGroup (name : Text)
deriving DecidableEq, Repr

def groupEntry (capability : Text × Text) : Except BlueprintError Entry := do
  .ok (.group (← quoted capability.1) (← quoted capability.2))

def applicationEntries (app : Text × Application) : Except BlueprintError (List Entry) := do
  let slug ← quoted app.1
  let name ← quoted app.2.name
  let url ← quoted app.2.launchUrl
  let capability ← quoted app.2.capability
  let admin ← quoted Caddy.adminGroup
  .ok [.application slug name url, .binding slug 0 capability, .binding slug 1 admin]

def byName {α : Type} (items : List (Text × α)) : List (Text × α) :=
  items.mergeSort fun a b ↦ decide (a.1 ≤ b.1)

/-- `render_blueprint`: the entries and the manifest. -/
def renderBlueprint (site : Site F) (effective previous : Object F) :
    Except BlueprintError (List Entry × Object F) := do
  let capabilities ← desiredCapabilities site effective
  let applications ← desiredApplications site effective
  let (previousGroups, previousApps) ← previousObjects site previous
  let groups ← (byName capabilities).mapM groupEntry
  let apps ← (byName applications).mapM applicationEntries
  let staleApps ← (sorted (previousApps.filter (· ∉ applications.map Prod.fst))).mapM
    fun slug ↦ (quoted slug).map Entry.absentApplication
  let staleGroups ← (sorted (previousGroups.filter (· ∉ capabilities.map Prod.fst))).mapM
    fun name ↦ (quoted name).map Entry.absentGroup
  .ok (groups ++ apps.flatten ++ staleApps ++ staleGroups, manifestOf capabilities applications)

/-! ## Names that come out -/

structure SafeNames (test : Text → Bool) (names : List Text) : Prop where
  nodup : names.Nodup
  safe : ∀ name ∈ names, test name = true

theorem SafeNames.nil (test : Text → Bool) : SafeNames test [] := ⟨List.nodup_nil, nofun⟩

variable {site : Site F} {apps : List (Text × Application)}

theorem SafeNames.concat
    (h : SafeNames test names) (hnew : name ∉ names) (hsafe : test name = true) :
    SafeNames test (names ++ [name]) where
  nodup := by
    rw [List.nodup_append]
    refine ⟨h.nodup, List.nodup_singleton name, fun a ha b hb => ?_⟩
    rw [List.mem_singleton.mp hb]
    rintro rfl
    exact hnew ha
  safe n hn := by
    rcases List.mem_append.mp hn with hold | hlast
    · exact h.safe n hold
    · rwa [List.mem_singleton.mp hlast]

theorem addCapability_safe {serviceId : Text} {capabilities' : List (Text × Text)}
    {value : Plain F} (h : SafeNames isCapability (capabilities.map Prod.fst))
    (hadd : addCapability serviceId capabilities value = .ok capabilities') :
    SafeNames isCapability (capabilities'.map Prod.fst) := by
  unfold addCapability at hadd
  split at hadd
  · rename_i name
    split at hadd
    · rename_i hsafe
      cases hlookup : capabilities.lookup name with
      | none =>
        rw [hlookup] at hadd
        cases hadd
        rw [List.map_append]
        apply h.concat _ hsafe
        intro hmem
        obtain ⟨e, he, heq⟩ := List.mem_map.mp hmem
        have hne := List.lookup_eq_none_iff.mp hlookup e he
        rw [heq, bne_self_eq_false] at hne
        cases hne
      | some previous =>
        rw [hlookup] at hadd
        dsimp only at hadd
        split at hadd
        · cases hadd
          exact h
        · cases hadd
    · cases hadd
  · cases hadd

theorem desiredCapabilities_safe (h : desiredCapabilities site effective = .ok capabilities) :
    SafeNames isCapability (capabilities.map Prod.fst) := by
  unfold desiredCapabilities at h
  split at h
  · cases h
  · split at h
    · cases h
    · refine foldlM_invariant (P := fun caps => SafeNames isCapability (caps.map Prod.fst)) h
        (.nil _) fun serviceId _ caps caps' hcaps hservice => ?_
      unfold serviceCapabilities at hservice
      split at hservice
      · split at hservice
        · exact foldlM_invariant (P := fun caps => SafeNames isCapability (caps.map Prod.fst)) hservice
            hcaps fun _ _ _ _ hold hadd => addCapability_safe hold hadd
        · cases hservice
      · cases hservice

theorem routeApplication_safe {services route : Object F}
    {apps' : List (Text × Application)} (h : SafeNames isSlug (apps.map Prod.fst))
    (hroute : routeApplication site services apps route = .ok apps') :
    SafeNames isSlug (apps'.map Prod.fst) := by
  have hadd : ∀ serviceId routeId service portal,
      addApplication site apps serviceId routeId service portal route = .ok apps' →
      SafeNames isSlug (apps'.map Prod.fst) := by
    intro serviceId routeId service portal hadd
    unfold addApplication at hadd
    split at hadd
    · cases hadd
    · split at hadd
      · cases hadd
      · split at hadd
        · cases hadd
        · rename_i hslug
          split at hadd
          · cases hadd
          · split at hadd
            · cases hadd
            · rename_i hnew
              obtain ⟨url, -, rfl⟩ := map_ok hadd
              rw [List.map_append]
              apply h.concat hnew
              simpa using hslug
  unfold routeApplication at hroute
  split at hroute
  · cases hroute
    exact h
  · split at hroute
    · split at hroute
      · split at hroute
        · cases hroute
          exact h
        · split at hroute
          · split at hroute
            · exact hadd _ _ _ _ hroute
            · cases hroute
              exact h
          · cases hroute
            exact h
      · cases hroute
        exact h
    · cases hroute

theorem desiredApplications_safe (h : desiredApplications site effective = .ok apps) :
    SafeNames isSlug (apps.map Prod.fst) := by
  unfold desiredApplications at h
  split at h
  · cases h
  · split at h
    · split at h
      · cases h
      · exact foldlM_invariant (P := fun apps => SafeNames isSlug (apps.map Prod.fst)) h (.nil _)
          fun _ _ _ _ hold hroute => routeApplication_safe hold hroute
    · cases h

/-! ## Safe names are printable -/

def isNameChar (c : Char) : Bool := c.isLower || c.isDigit || c = '-' || c = '.'

theorem toNat_isNameChar {c : Char} (h : isNameChar c = true) : ¬ (c.toNat < 32 ∨ c.toNat = 127) := by
  unfold isNameChar at h
  simp only [Bool.or_eq_true, decide_eq_true_eq] at h
  rcases h with ((hlower | hdigit) | rfl) | rfl
  · have hdef : c.isLower = (c ≥ 'a' && c ≤ 'z') := rfl
    have hrange : 97 ≤ c.toNat ∧ c.toNat ≤ 122 := by
      simpa [hdef, Char.le_def, UInt32.le_iff_toNat_le] using hlower
    omega
  · have hrange : 48 ≤ c.toNat ∧ c.toNat ≤ 57 := by
      simpa [Char.isDigit, UInt32.le_iff_toNat_le] using hdigit
    omega
  · decide
  · decide

theorem quoted_name (h : ∀ c ∈ name, isNameChar c = true) : quoted name = .ok name := by
  unfold quoted
  rw [if_neg]
  intro hany
  obtain ⟨c, hc, hcontrol⟩ := List.any_eq_true.mp hany
  rw [Bool.or_eq_true, decide_eq_true_eq, decide_eq_true_eq] at hcontrol
  exact toNat_isNameChar (h c hc) hcontrol

theorem quoted_ok {value result : Text} (h : quoted value = .ok result) : result = value := by
  unfold quoted at h
  split at h
  · cases h
  · exact (Except.ok.inj h).symm

theorem capabilityChar (h : isCapability name = true) : ∀ c ∈ name, isNameChar c = true := by
  unfold isCapability at h
  rw [Bool.and_eq_true, List.isPrefixOf_iff_prefix] at h
  obtain ⟨⟨rest, rfl⟩, h⟩ := h
  rw [List.drop_left, List.span_eq_takeWhile_dropWhile] at h
  have hrest := List.takeWhile_append_dropWhile (p := (· ≠ '.')) (l := rest)
  generalize hservice : rest.takeWhile (· ≠ '.') = service at h hrest
  generalize hdrop : rest.dropWhile (· ≠ '.') = dropped at h hrest
  cases dropped with
  | nil => cases h
  | cons dot capability =>
    dsimp only at h
    rw [Bool.and_eq_true] at h
    have hdot : dot = '.' := by
      have hhead := List.head_dropWhile_not (· ≠ '.') (l := rest) (by rw [hdrop]; exact List.cons_ne_nil _ _)
      simp only [hdrop, List.head_cons, decide_eq_false_iff_not, not_not] at hhead
      exact hhead
    intro c hc
    rw [← hrest, List.mem_append, List.mem_append, List.mem_cons] at hc
    unfold isNameChar
    rcases hc with hfront | hid | rfl | hcap
    · revert c
      apply forall_mem_of_all
      decide
    · rw [identifierChar h.1 c hid]
      rfl
    · rw [hdot]
      decide
    · obtain ⟨first, capability, rfl⟩ := List.exists_cons_of_ne_nil (List.ne_nil_of_mem hcap)
      have hid := h.2
      unfold Caddy.isCapabilityId at hid
      simp only [Bool.and_eq_true, List.all_eq_true] at hid
      rcases List.mem_cons.mp hcap with rfl | htail
      · rw [hid.1.1]
        rfl
      · have hchar := hid.2 c htail
        simp only [Bool.or_eq_true] at hchar ⊢
        tauto

theorem slugChar {slug : Text} (h : isSlug slug = true) : ∀ c ∈ slug, isNameChar c = true := by
  unfold isSlug at h
  cases slug with
  | nil => cases h
  | cons first rest =>
    simp only [Bool.and_eq_true, List.all_eq_true] at h
    unfold isSlugChar at h
    unfold isNameChar
    rw [List.forall_mem_cons]
    constructor
    · rw [h.1.1]
      rfl
    · intro c hc
      rw [h.2 c hc]
      rfl

theorem mapM_quoted {f : Text → Entry} (h : ∀ name ∈ names, quoted name = .ok name) :
    (names.mapM fun name ↦ (quoted name).map f) = .ok (names.map f) := by
  induction names with
  | nil => rfl
  | cons name names ih =>
    rw [List.forall_mem_cons] at h
    rw [List.mapM_cons, h.1, ih h.2]
    rfl

/-! ## The manifest read back -/

theorem safeNames_map (h : SafeNames test names) :
    safeNames test (names.map fun name ↦ (.scalar (.string name) : Plain F)) = some names := by
  have hkept : ((names.map fun name ↦ (.scalar (.string name) : Plain F)).filterMap fun item ↦
      match item with
      | .scalar (.string name) => if test name then some name else none
      | _ => none) = names := by
    rw [List.filterMap_map]
    apply (List.filterMap_congr fun name hname => ?_).trans List.filterMap_some
    show (if test name then some name else none) = some name
    rw [h.safe name hname, if_pos rfl]
  unfold safeNames
  dsimp only
  rw [hkept, List.length_map, h.nodup.dedup, if_pos rfl]

end NixNas.Authentik
