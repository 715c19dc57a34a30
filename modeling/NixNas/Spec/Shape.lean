import NixNas.Spec.Idempotent
import NixNas.Spec.Schema

/-!
# Defaults of whole documents

What the schema says about the values that the defaults look into; a document that it accepts has
this shape.  On every such document `normalize` succeeds, only adds, and adds only once.
-/

open Fallible

namespace NixNas.Spec

variable {F : Type} {o o' : Object F}
variable {keys : List Text} {v : Object F} {defaults : List (String × Plain F)}

/-! ## Shapes (`schemas/managed-services-v3.schema.json`) -/

def IsObject (p : Object F → Prop) (value : Plain F) : Prop := ∃ v, value = .object v ∧ p v

def ItemsAt (key : String) (p : Object F → Prop) (o : Object F) : Prop :=
  ∀ value, find key.toList o = some value →
    ∃ items, value = .array items ∧ ∀ item ∈ items, IsObject p item

def ValuesAt (key : String) (p : Object F → Prop) (o : Object F) : Prop :=
  ∀ value, find key.toList o = some value →
    ∃ entries, value = .object entries ∧ ∀ e ∈ entries, IsObject p e.2

def RequiredAt (key : String) (p : Object F → Prop) (o : Object F) : Prop :=
  ∃ v, find key.toList o = some (.object v) ∧ p v

/-- Present with a scalar: a `const` or an `enum` of texts. -/
def ScalarAt (key : String) (o : Object F) : Prop := ∃ a, find key.toList o = some (.scalar a)

def AnyObject (_ : Object F) : Prop := True

/-- `networkPolicy`. -/
def NetworkShape : Object F → Prop := ItemsAt "allowedEgress" AnyObject

/-- `workload`. -/
structure WorkloadShape (workload : Object F) : Prop where
  kind : ScalarAt "kind" workload
  schedules : ItemsAt "schedules" AnyObject workload

/-- `runtime`; an entry point is required of the Python runtimes. -/
structure RuntimeShape (runtime : Object F) : Prop where
  type : ScalarAt "type" runtime
  identity : ObjectAt "identity" AnyObject runtime
  dependencies : ObjectAt "dependencies" AnyObject runtime
  entrypoint : find "type".toList runtime = some (text "python") →
    RequiredAt "entrypoint" AnyObject runtime

/-- `readiness`. -/
structure ReadinessShape (readiness : Object F) : Prop where
  has_probes : Has "probes".toList readiness
  probes : ItemsAt "probes" (ScalarAt "type") readiness

/-- `route`. -/
structure RouteShape (route : Object F) : Prop where
  proxy : ObjectAt "proxy" AnyObject route
  portal : ObjectAt "portal" AnyObject route
  auth : RequiredAt "auth" (ScalarAt "mode") route
  target : RequiredAt "target" (ScalarAt "type") route
  exposure : RequiredAt "exposure" (ScalarAt "type") route

/-- `service`. -/
structure ServiceShape (service : Object F) : Prop where
  workload : RequiredAt "workload" WorkloadShape service
  runtime : RequiredAt "runtime" RuntimeShape service
  authorization : ObjectAt "authorization" AnyObject service
  resources : ObjectAt "resources" (ItemsAt "accelerators" AnyObject) service
  sandbox : ObjectAt "sandbox" AnyObject service
  files : ItemsAt "files" AnyObject service
  readiness : ObjectAt "readiness" ReadinessShape service
  network : ObjectAt "network" NetworkShape service
  dependencies : ItemsAt "dependencies" AnyObject service
  storage : ItemsAt "storage" AnyObject service
  routes : ValuesAt "routes" RouteShape service
  listeners : ValuesAt "listeners" AnyObject service

/-- `storageResource`. -/
structure ResourceShape (resource : Object F) : Prop where
  backup : ObjectAt "backup" AnyObject resource
  fileBrowser : ObjectAt "fileBrowser" AnyObject resource

structure DocumentShape (document : Object F) : Prop where
  backup : BackupShape document
  storageResources : ValuesAt "storageResources" ResourceShape document
  credentials : ValuesAt "credentials" AnyObject document
  networkProfiles : ValuesAt "networkProfiles" NetworkShape document
  has_services : Has "services".toList document
  services : ValuesAt "services" ServiceShape document

/-! ## Passes that succeed -/

variable {f g : Object F → Except Malformed (Object F)} {key : String} {p : Object F → Prop}

/-- The pass succeeds on every object of the shape. -/
def Succeeds (p : Object F → Prop) (f : Object F → Except Malformed (Object F)) : Prop :=
  ∀ o, p o → ∃ o', f o = .ok o'

/-- The pass succeeds as long as the keys keep the values that they have in the object. -/
def SucceedsFrom (keys : List Text) (f : Object F → Except Malformed (Object F)) (o : Object F) :
    Prop :=
  ∀ o', (∀ name ∈ keys, find name o' = find name o) → ∃ result, f o' = .ok result

theorem SucceedsFrom.succeeds (h : SucceedsFrom keys f o) : ∃ result, f o = .ok result :=
  h o fun _ _ => rfl

theorem SucceedsFrom.then {keys' written : List Text} (hf : SucceedsFrom keys f o)
    (hframes : Frames written f) (hg : SucceedsFrom keys' g o)
    (hdisjoint : ∀ name ∈ keys', name ∉ written) : SucceedsFrom (keys ++ keys') (f >=> g) o := by
  intro o' hkeys
  obtain ⟨o₁, hfirst⟩ := hf o' fun name hname => hkeys name (List.mem_append_left _ hname)
  obtain ⟨o₂, hsecond⟩ := hg o₁ fun name hname =>
    (hframes _ _ hfirst name (hdisjoint name hname)).trans
      (hkeys name (List.mem_append_right _ hname))
  refine ⟨o₂, ?_⟩
  show f o' >>= g = _
  rw [hfirst]
  exact hsecond

theorem succeedsFrom_onKey (hf : Succeeds p f) (h : RequiredAt key p o) :
    SucceedsFrom [key.toList] (onKey key f) o := by
  intro o' hkeys
  obtain ⟨v, hfind, hv⟩ := h
  obtain ⟨v', hv'⟩ := hf v hv
  rw [← hkeys key.toList (List.mem_singleton_self _)] at hfind
  exact ⟨_, onKey_of_find hfind hv'⟩

theorem onObject_succeeds (hf : Succeeds p f) {value : Plain F} (h : IsObject p value) :
    ∃ value', onObject f value = .ok value' := by
  obtain ⟨v, rfl, hv⟩ := h
  obtain ⟨v', hv'⟩ := hf v hv
  refine ⟨.object v', ?_⟩
  rw [onObject, hv']
  rfl

theorem succeedsFrom_onItems (hf : Succeeds p f) (hhas : Has key.toList o) (h : ItemsAt key p o) :
    SucceedsFrom [key.toList] (onItems key f) o := by
  intro o' hkeys
  obtain ⟨value, hfind⟩ := Option.isSome_iff_exists.mp hhas
  obtain ⟨items, rfl, hitems⟩ := h value hfind
  obtain ⟨items', hmap⟩ := mapM_succeeds fun item hitem => onObject_succeeds hf (hitems item hitem)
  rw [← hkeys key.toList (List.mem_singleton_self _)] at hfind
  exact ⟨_, onItems_of_find hfind hmap⟩

theorem onValue_succeeds (hf : Succeeds p f) {e : Text × Plain F} (h : IsObject p e.2) :
    ∃ e', onValue f e = .ok e' := by
  obtain ⟨value', hvalue⟩ := onObject_succeeds hf h
  refine ⟨(e.1, value'), ?_⟩
  unfold onValue
  rw [hvalue]
  rfl

theorem succeedsFrom_onValues (hf : Succeeds p f) (hhas : Has key.toList o) (h : ValuesAt key p o) :
    SucceedsFrom [key.toList] (onValues key f) o := by
  intro o' hkeys
  obtain ⟨value, hfind⟩ := Option.isSome_iff_exists.mp hhas
  obtain ⟨entries, rfl, hentries⟩ := h value hfind
  obtain ⟨entries', hmap⟩ := mapM_succeeds fun e he => onValue_succeeds hf (hentries e he)
  rw [← hkeys key.toList (List.mem_singleton_self _)] at hfind
  exact ⟨_, onValues_of_find hfind hmap⟩

theorem succeeds_defaulting (p : Object F → Prop) (defaults : List (String × Plain F)) :
    Succeeds p (defaulting defaults) :=
  fun _ _ => ⟨_, rfl⟩

/-! ## Defaults and shapes -/

theorem find_setDefaults (defaults : List (String × Plain F)) (key : String) (o : Object F) :
    find key.toList (setDefaults defaults o) =
      (find key.toList o).or ((defaults.find? fun d ↦ d.1 = key).map Prod.snd) := by
  induction defaults generalizing o with
  | nil =>
    show find key.toList o = (find key.toList o).or none
    rw [Option.or_none]
  | cons d defaults ih =>
    show find key.toList (setDefaults defaults (setDefault d.1 d.2 o)) = _
    rw [ih, find_setDefault, List.find?_cons]
    by_cases h : d.1 = key
    · rw [if_pos (h ▸ rfl), decide_eq_true h]
      cases find key.toList o <;> rfl
    · rw [if_neg fun heq => h (String.toList_injective heq).symm, decide_eq_false h]

theorem RequiredAt.of_default (h : ObjectAt key p o) (hv : p v)
    (hfind : find key.toList o' = (find key.toList o).or (some (.object v))) :
    RequiredAt key p o' := by
  cases hold : find key.toList o with
  | none =>
    rw [hold] at hfind
    exact ⟨v, hfind, hv⟩
  | some value =>
    obtain ⟨w, rfl, hw⟩ := h value hold
    rw [hold] at hfind
    exact ⟨w, hfind, hw⟩

theorem requiredAt_setDefaults (v : Object F) (h : ObjectAt key p o)
    (hfirst : (defaults.find? fun d ↦ d.1 = key) = some (key, .object v)) (hv : p v) :
    RequiredAt key p (setDefaults defaults o) := by
  apply RequiredAt.of_default h hv
  rw [find_setDefaults, hfirst]
  rfl

theorem itemsAt_of_default (h : ItemsAt key p o)
    (hfind : find key.toList o' = (find key.toList o).or (some (.array []))) :
    Has key.toList o' ∧ ItemsAt key p o' := by
  unfold Has ItemsAt
  rw [hfind]
  cases hold : find key.toList o with
  | none =>
    refine ⟨rfl, ?_⟩
    rintro _ ⟨⟩
    exact ⟨[], rfl, List.forall_mem_nil _⟩
  | some value =>
    refine ⟨rfl, ?_⟩
    rintro _ ⟨⟩
    exact h value hold

theorem itemsAt_nil (key : String) (p : Object F → Prop) : ItemsAt key p [] :=
  nofun

theorem valuesAt_of_default (h : ValuesAt key p o)
    (hfind : find key.toList o' = (find key.toList o).or (some (.object []))) :
    Has key.toList o' ∧ ValuesAt key p o' := by
  unfold Has ValuesAt
  rw [hfind]
  cases hold : find key.toList o with
  | none =>
    refine ⟨rfl, ?_⟩
    rintro _ ⟨⟩
    exact ⟨[], rfl, List.forall_mem_nil _⟩
  | some value =>
    refine ⟨rfl, ?_⟩
    rintro _ ⟨⟩
    exact h value hold

theorem succeeds_normalizeNetwork : Succeeds NetworkShape (normalizeNetwork (F := F)) := by
  intro policy hpolicy
  let defaulted := setDefaults [("mode", text "host"), ("outboundDefault", text "allow"),
    ("lanAccess", boolean false), ("allowedHostPorts", .array []), ("allowedEgress", .array [])]
    policy
  have hegress : Has "allowedEgress".toList defaulted ∧
      ItemsAt "allowedEgress" AnyObject defaulted := by
    apply itemsAt_of_default hpolicy
    rw [find_setDefaults]
    rfl
  exact (succeedsFrom_onItems (succeeds_defaulting AnyObject [("ports", .array [])]) hegress.1
    hegress.2).succeeds

theorem ObjectAt.congr (h : ObjectAt key p o) (hfind : find key.toList o' = find key.toList o) :
    ObjectAt key p o' := by
  intro value hvalue
  exact h value (hfind ▸ hvalue)

theorem succeedsFrom_default (hf : Succeeds p f) (h : ObjectAt key p o) (hv : p v) :
    SucceedsFrom [key.toList] (defaulting [(key, .object v)] >=> onKey key f) o := by
  intro o' hkeys
  have hrequired : RequiredAt key p (setDefaults [(key, .object v)] o') := by
    apply requiredAt_setDefaults v (h.congr (hkeys key.toList (List.mem_singleton_self _))) _ hv
    simp
  exact (succeedsFrom_onKey hf hrequired).succeeds

/-! ## Runtimes, workloads and routes -/

theorem succeedsFrom_normalizeIdentity (h : ObjectAt "identity" AnyObject o) :
    SucceedsFrom ["identity".toList] (normalizeIdentity (F := F)) o := by
  intro o' hkeys
  let defaulted := setDefaults [("environment", .object []),
    ("identity", .object [("mode".toList, text "dynamic")])] o'
  have hidentity : RequiredAt "identity" AnyObject defaulted := by
    exact requiredAt_setDefaults [("mode".toList, text "dynamic")]
      (h.congr (hkeys _ (List.mem_singleton_self _))) rfl trivial
  obtain ⟨identified, hpass⟩ := (succeedsFrom_onKey
    (succeeds_defaulting AnyObject [("mode", text "dynamic")]) hidentity).succeeds
  refine ⟨setDefault "restart" (text "on-failure") identified, ?_⟩
  show onKey "identity" (defaulting [("mode", text "dynamic")]) defaulted >>= _ = _
  rw [hpass]
  rfl

theorem frames_normalizeIdentity :
    Frames ["environment".toList, "identity".toList, "restart".toList]
      (normalizeIdentity (F := F)) := by
  intro o o' hpass
  obtain ⟨identified, hidentity, hpass⟩ := bind_ok hpass
  cases hpass
  exact ((((Frame.refl _ o).setDefault "environment" _ (by decide)).setDefault "identity" _
    (by decide)).onKey hidentity (by decide)).setDefault "restart" _ (by decide)

theorem succeeds_normalizeRuntime : Succeeds RuntimeShape (normalizeRuntime (F := F)) := by
  intro runtime h
  obtain ⟨a, ha⟩ := h.type
  unfold normalizeRuntime
  rw [getItem_ok.mpr ha]
  show ∃ result, (if isText _ "exec" then _ else _) = _
  by_cases hexec : isText (.scalar a : Plain F) "exec" = true
  · rw [if_pos hexec]
    exact (succeedsFrom_normalizeIdentity h.identity).succeeds
  rw [if_neg hexec]
  by_cases hpython : isText (.scalar a : Plain F) "python" = true
  · rw [if_pos hpython]
    rw [eq_text_of_isText hpython] at ha
    obtain ⟨entrypoint, hentry, -⟩ := h.entrypoint ha
    let defaulted := setDefault "interpreter" (text "/run/current-system/sw/bin/python3") runtime
    have hdependencies : SucceedsFrom ["dependencies".toList]
        (defaulting [("dependencies", .object [])] >=>
          onKey "dependencies" (defaulting [("requireHashes", boolean true)])) defaulted := by
      apply succeedsFrom_default (succeeds_defaulting AnyObject _) _ trivial
      exact h.dependencies.congr (frame_setDefault _ _ _ _ (by decide))
    have hidentity := succeedsFrom_normalizeIdentity (o := defaulted)
      (h.identity.congr (frame_setDefault _ _ _ _ (by decide)))
    have hentrypoint : SucceedsFrom ["entrypoint".toList]
        (onKey "entrypoint" (defaulting [("args", .array [])])) defaulted := by
      apply succeedsFrom_onKey (succeeds_defaulting AnyObject _)
      exact ⟨entrypoint, (frame_setDefault _ _ _ _ (by decide)).trans hentry, trivial⟩
    have hrest := hidentity.then frames_normalizeIdentity hentrypoint (by decide)
    have hwritten : Frames ["dependencies".toList, "dependencies".toList]
        (defaulting (F := F) [("dependencies", .object [])] >=>
          onKey "dependencies" (defaulting [("requireHashes", boolean true)])) :=
      (frames_defaulting _).then (frames_onKey _ _)
    obtain ⟨result, hresult⟩ := (hdependencies.then hwritten hrest (by decide)).succeeds
    refine ⟨result, ?_⟩
    rw [← hresult]
    simp only [then_def, bind_assoc]
    rfl
  rw [if_neg hpython]
  split
  · exact ⟨_, rfl⟩
  · exact ⟨_, rfl⟩

theorem succeeds_normalizeWorkload : Succeeds WorkloadShape (normalizeWorkload (F := F)) := by
  intro workload h
  obtain ⟨a, ha⟩ := h.kind
  unfold normalizeWorkload
  rw [getItem_ok.mpr ha]
  show ∃ result, (if isText _ "daemon" then _ else _) = _
  split
  · exact ⟨_, rfl⟩
  split
  · have hschedules : Has "schedules".toList (setDefault "schedules" (.array []) workload) ∧
        ItemsAt "schedules" AnyObject (setDefault "schedules" (.array []) workload) := by
      apply itemsAt_of_default h.schedules
      rw [find_setDefault, if_pos rfl]
      cases find "schedules".toList workload <;> rfl
    exact (succeedsFrom_onItems (succeeds_defaulting AnyObject
      [("randomizedDelaySeconds", number 0), ("persistent", boolean true)]) hschedules.1
      hschedules.2).succeeds
  · exact ⟨_, rfl⟩

theorem succeeds_normalizeProbe : Succeeds (ScalarAt "type") (normalizeProbe (F := F)) := by
  intro probe ⟨a, ha⟩
  unfold normalizeProbe
  rw [getItem_ok.mpr ha]
  show ∃ result, (if isText _ "tcp" then _ else _) = _
  split
  · exact ⟨_, rfl⟩
  split
  · exact ⟨_, rfl⟩
  · exact ⟨_, rfl⟩

theorem succeeds_readiness : Succeeds ReadinessShape
    (defaulting (F := F) [("timeoutSeconds", number 60), ("intervalMilliseconds", number 500)] >=>
      onItems "probes" normalizeProbe) := by
  intro readiness h
  have hsame := frames_defaulting [("timeoutSeconds", number 60), ("intervalMilliseconds", number 500)]
    readiness _ rfl "probes".toList (by simp)
  exact succeedsFrom_onItems succeeds_normalizeProbe h.has_probes h.probes _ fun name hname =>
    List.mem_singleton.mp hname ▸ hsame

theorem succeeds_normalizeSandbox (generatedRuntime : Bool) :
    Succeeds AnyObject (normalizeSandbox (F := F) generatedRuntime) := by
  intro sandbox _
  have hhas : Has "mode".toList
      (setDefault "mode" (text (if generatedRuntime then "strict" else "inherit")) sandbox) :=
    has_setDefaults [("mode", text (if generatedRuntime then "strict" else "inherit"))] sandbox _
      (List.mem_singleton_self _)
  obtain ⟨mode, hmode⟩ := Option.isSome_iff_exists.mp hhas
  unfold normalizeSandbox
  dsimp only
  rw [getItem_ok.mpr hmode]
  show ∃ result, (if isText mode "strict" then _ else _) = _
  split
  · exact ⟨_, rfl⟩
  · exact ⟨_, rfl⟩

theorem succeeds_whenItem {name : String} {q : Plain F → Except Malformed Bool} (key : String)
    (value : Plain F) (hq : ∀ a, ∃ holds, q (.scalar a) = .ok holds) :
    Succeeds (ScalarAt name) fun o ↦ getItem name.toList o >>= fun item ↦ q item >>= fun holds ↦
      .ok (if holds then setDefault key value o else o) := by
  intro o ⟨a, ha⟩
  obtain ⟨holds, hholds⟩ := hq a
  show ∃ result, getItem name.toList o >>= _ = _
  rw [getItem_ok.mpr ha]
  show ∃ result, q (.scalar a) >>= _ = _
  rw [hholds]
  exact ⟨_, rfl⟩

theorem RequiredAt.frame (h : RequiredAt key p o) (hframe : Frame keys o o')
    (hkey : key.toList ∉ keys) : RequiredAt key p o' := by
  obtain ⟨v, hfind, hv⟩ := h
  exact ⟨v, (hframe key.toList hkey).trans hfind, hv⟩

theorem succeeds_normalizeRoute : Succeeds RouteShape (normalizeRoute (F := F)) := by
  intro route h
  have hproxy : SucceedsFrom ["proxy".toList] (defaulting (F := F) [("proxy", .object [])] >=>
      onKey "proxy" fun proxy ↦ .ok (normalizeProxy proxy)) route :=
    succeedsFrom_default (fun _ _ => ⟨_, rfl⟩) h.proxy trivial
  have hportal : SucceedsFrom ["portal".toList] (defaulting (F := F) [("portal", .object [])] >=>
      onKey "portal" (defaulting [("visible", boolean false), ("order", number 0)])) route :=
    succeedsFrom_default (fun _ _ => ⟨_, rfl⟩) h.portal trivial
  have hauth : SucceedsFrom ["auth".toList] (onKey "auth" fun auth : Object F ↦
      getItem "mode".toList auth >>= fun mode ↦ .ok (isText mode "identity") >>= fun isIdentity ↦
        .ok (if isIdentity then setDefault "capability" (text "access") auth else auth)) route :=
    succeedsFrom_onKey (succeeds_whenItem _ _ fun _ => ⟨_, rfl⟩) h.auth
  have htarget : SucceedsFrom ["target".toList] (onKey "target" fun target : Object F ↦
      getItem "type".toList target >>= fun targetType ↦
        inTexts targetType ["http", "https"] >>= fun isHttp ↦
          .ok (if isHttp then setDefault "host" (text "127.0.0.1") target else target)) route :=
    succeedsFrom_onKey (succeeds_whenItem _ _ fun _ => ⟨_, rfl⟩) h.target
  have hexposure : SucceedsFrom ["exposure".toList] (onKey "exposure" fun exposure : Object F ↦
      getItem "type".toList exposure >>= fun exposureType ↦
        .ok (isText exposureType "hostname") >>= fun isHostname ↦
          .ok (if isHostname then setDefault "path" (text "/") exposure else exposure)) route :=
    succeedsFrom_onKey (succeeds_whenItem _ _ fun _ => ⟨_, rfl⟩) h.exposure
  have hproxyAt : Frames ["proxy".toList, "proxy".toList] (defaulting (F := F)
      [("proxy", .object [])] >=> onKey "proxy" fun proxy ↦ .ok (normalizeProxy proxy)) :=
    (frames_defaulting _).then (frames_onKey _ _)
  have hportalAt : Frames ["portal".toList, "portal".toList] (defaulting (F := F)
      [("portal", .object [])] >=>
        onKey "portal" (defaulting [("visible", boolean false), ("order", number 0)])) :=
    (frames_defaulting _).then (frames_onKey _ _)
  have hends := htarget.then (frames_onKey _ _) hexposure (by decide)
  have hguarded := hauth.then (frames_onKey _ _) hends (by decide)
  have hshown := hportal.then hportalAt hguarded (by decide)
  obtain ⟨result, hresult⟩ := (hproxy.then hproxyAt hshown (by decide)).succeeds
  refine ⟨result, ?_⟩
  rw [← hresult]
  simp only [then_def, bind_assoc]
  rfl

/-! ## Services -/

variable {service headed : Object F}

/-- What the tail of a service finds behind the head. -/
structure Headed (service headed : Object F) : Prop where
  frame : Frame (["enabled", "managed", "dependencies", "requiresCapabilities", "authorization",
    "resources", "sandbox", "storage", "credentials"].map String.toList) service headed
  dependencies : find "dependencies".toList headed =
    (find "dependencies".toList service).or (some (.array []))
  storage : find "storage".toList headed = (find "storage".toList service).or (some (.array []))
  resources : RequiredAt "resources" (fun resources ↦ Has "accelerators".toList resources ∧
    ItemsAt "accelerators" AnyObject resources) headed

theorem requiredAt_defaulted {q : Object F → Prop}
    (h : ObjectAt key p o) (hempty : p []) (hq : ∀ v, p v → q (setDefaults defaults v))
    (hpass : (defaulting [(key, .object [])] >=> onKey key (defaulting defaults)) o = .ok o') :
    RequiredAt key q o' := by
  have hrequired : RequiredAt key p (setDefaults [(key, .object [])] o) := by
    apply requiredAt_setDefaults [] h _ hempty
    simp
  have hpass' : onKey key (defaulting defaults) (setDefaults [(key, .object [])] o) = .ok o' := hpass
  obtain ⟨v, v', hfind, hv, rfl⟩ := onKey_ok hpass'
  obtain ⟨w, hfind', hw⟩ := hrequired
  cases hfind.symm.trans hfind'
  cases hv
  exact ⟨_, find_setItem_self _ _ _, hq v hw⟩

theorem succeeds_sandboxPass (h : ServiceShape service) :
    SucceedsFrom ["sandbox".toList, "runtime".toList]
      (defaulting [("sandbox", .object [])] >=> sandboxPass) service := by
  intro service' hkeys
  obtain ⟨runtime, hfind, hruntime⟩ := h.runtime
  obtain ⟨a, ha⟩ := hruntime.type
  let defaulted := setDefaults [("sandbox", .object [])] service'
  have hruntime' : find "runtime".toList defaulted = some (.object runtime) := by
    have hframe := frames_defaulting [("sandbox", .object [])] service' _ rfl
    rw [hframe "runtime".toList (by simp), hkeys _ (by simp)]
    exact hfind
  have hsandbox : RequiredAt "sandbox" AnyObject defaulted := by
    exact requiredAt_setDefaults [] (h.sandbox.congr (hkeys _ (by decide))) rfl trivial
  obtain ⟨result, hresult⟩ := (succeedsFrom_onKey (succeeds_normalizeSandbox
    (["exec", "python", "oci"].any (isText (.scalar a)))) hsandbox).succeeds
  refine ⟨result, ?_⟩
  show sandboxPass defaulted = _
  unfold sandboxPass
  rw [objectItem_of_find hruntime']
  show getItem "type".toList runtime >>= _ = _
  rw [getItem_ok.mpr ha]
  exact hresult

theorem frames_sandboxPass : Frames ["sandbox".toList] (sandboxPass (F := F)) := by
  intro service result hpass
  obtain ⟨_, _, _, -, -, -, hpass⟩ := sandboxPass_ok hpass
  exact frame_onKey hpass

theorem headPass_ok (h : ServiceShape service) :
    ∃ headed, headPass service = .ok headed ∧ Headed service headed := by
  let defaulted := setDefaults [("enabled", boolean true), ("managed", boolean true),
    ("dependencies", .array []), ("requiresCapabilities", .array []),
    ("authorization", .object [("capabilities".toList, .array [])])] service
  have hframe : Frame ["enabled".toList, "managed".toList, "dependencies".toList,
      "requiresCapabilities".toList, "authorization".toList] service defaulted := by
    exact frames_defaulting [("enabled", boolean true), ("managed", boolean true),
      ("dependencies", .array []), ("requiresCapabilities", .array []),
      ("authorization", .object [("capabilities".toList, .array [])])] service _ rfl
  -- The three blocks of the head, each with a default and its own pass.
  have hauthorization : RequiredAt "authorization" AnyObject defaulted :=
    requiredAt_setDefaults [("capabilities".toList, .array [])] h.authorization rfl trivial
  obtain ⟨s₁, h₁⟩ := (succeedsFrom_onKey (succeeds_defaulting AnyObject [("capabilities", .array [])])
    hauthorization).succeeds
  have hframe₁ := (hframe.mono (List.subset_append_left _ ["authorization".toList])).trans
    ((frame_onKey h₁).mono (List.subset_append_right _ _))
  have hresources : ObjectAt "resources" (ItemsAt "accelerators" AnyObject) s₁ :=
    h.resources.congr (hframe₁ _ (by decide))
  obtain ⟨s₂, h₂⟩ := (succeedsFrom_default (succeeds_defaulting (ItemsAt "accelerators" AnyObject)
    [("accelerators", .array [])]) hresources (itemsAt_nil _ _)).succeeds
  have hblock : RequiredAt "resources" (fun resources ↦ Has "accelerators".toList resources ∧
      ItemsAt "accelerators" AnyObject resources) s₂ := by
    apply requiredAt_defaulted hresources (itemsAt_nil _ _) _ h₂
    intro resources haccelerators
    apply itemsAt_of_default haccelerators
    rw [find_setDefaults]
    rfl
  have hresourcesAt : Frames ["resources".toList, "resources".toList] (defaulting (F := F)
      [("resources", .object [])] >=> onKey "resources" (defaulting [("accelerators", .array [])])) :=
    (frames_defaulting _).then (frames_onKey _ _)
  have hframe₂ := (hframe₁.mono (List.subset_append_left _
    ["resources".toList, "resources".toList])).trans
    ((hresourcesAt _ _ h₂).mono (List.subset_append_right _ _))
  obtain ⟨s₃, h₃⟩ := succeeds_sandboxPass h s₂ fun name hname => by
    apply hframe₂
    revert name
    decide
  have hsandboxAt : Frames ["sandbox".toList, "sandbox".toList]
      (defaulting (F := F) [("sandbox", .object [])] >=> sandboxPass) :=
    (frames_defaulting _).then frames_sandboxPass
  have hframe₃ := (hframe₂.mono (List.subset_append_left _ ["sandbox".toList, "sandbox".toList])).trans
    ((hsandboxAt _ _ h₃).mono (List.subset_append_right _ _))
  let headed := setDefaults [("storage", .array []), ("credentials", .array [])] s₃
  have hlast : Frame ["storage".toList, "credentials".toList] s₃ headed :=
    frames_defaulting [("storage", .array []), ("credentials", .array [])] s₃ _ rfl
  have hsecond : onKey "resources" (defaulting [("accelerators", .array [])])
      (setDefaults [("resources", .object [])] s₁) = .ok s₂ := h₂
  have hthird : sandboxPass (setDefaults [("sandbox", .object [])] s₂) = .ok s₃ := h₃
  refine ⟨headed, ?_, ?_, ?_, ?_, ?_⟩
  · show onKey "authorization" (defaulting [("capabilities", .array [])]) defaulted >>= _ = _
    rw [h₁]
    show onKey "resources" (defaulting [("accelerators", .array [])])
      (setDefaults [("resources", .object [])] s₁) >>= _ = _
    rw [hsecond]
    show sandboxPass (setDefaults [("sandbox", .object [])] s₂) >>= _ = _
    rw [hthird]
    rfl
  · exact (hframe₃.mono (by decide)).trans (hlast.mono (by decide))
  · rw [hlast _ (by decide), hsandboxAt _ _ h₃ _ (by decide), hresourcesAt _ _ h₂ _ (by decide),
      frame_onKey h₁ _ (by decide), find_setDefaults]
    rfl
  · rw [find_setDefaults, hframe₃ _ (by decide)]
    rfl
  · exact (hblock.frame (hsandboxAt _ _ h₃) (by decide)).frame hlast (by decide)

theorem succeeds_networkPass (hworkload : RequiredAt "workload" AnyObject o)
    (hnetwork : ObjectAt "network" NetworkShape o) :
    SucceedsFrom ["network".toList, "workload".toList] networkPass o := by
  intro o' hkeys
  obtain ⟨workload, hfind, -⟩ := hworkload
  have hshape : ObjectAt "network" NetworkShape o' := hnetwork.congr (hkeys _ (by decide))
  unfold networkPass
  rw [objectItem_of_find ((hkeys _ (by decide)).trans hfind)]
  show ∃ result, normalizeServiceNetwork workload o' = _
  unfold normalizeServiceNetwork
  split
  · rename_i hhas
    obtain ⟨value, hvalue⟩ := Option.isSome_iff_exists.mp hhas
    obtain ⟨policy, rfl, hpolicy⟩ := hshape value hvalue
    exact (succeedsFrom_onKey succeeds_normalizeNetwork ⟨policy, hvalue, hpolicy⟩).succeeds
  split
  · have hsession : Succeeds NetworkShape (sessionNetwork (F := F)) := by
      intro policy hpolicy
      apply succeeds_normalizeNetwork
      intro value hvalue
      apply hpolicy value
      rw [← hvalue]
      exact ((frame_setDefault "outboundDefault" _ _ _ (by decide)).trans
        (frame_setDefault "mode" _ _ _ (by decide))).symm
    exact (succeedsFrom_default hsession hshape (itemsAt_nil _ _)).succeeds
  · exact ⟨_, rfl⟩

theorem succeeds_normalizeFiles (h : ItemsAt "files" AnyObject o) :
    ∃ result, normalizeFiles o = .ok result := by
  unfold normalizeFiles
  split
  · rename_i hhas
    exact (succeedsFrom_onItems (succeeds_defaulting AnyObject [("delivery", text "generation"),
      ("mode", text "0444"), ("onChange", text "restart")]) hhas h).succeeds
  · exact ⟨_, rfl⟩

theorem succeedsFrom_readiness (h : ObjectAt "readiness" ReadinessShape o) :
    SucceedsFrom ["readiness".toList] normalizeReadiness o := by
  intro o' hkeys
  unfold normalizeReadiness
  split
  · rename_i hhas
    obtain ⟨value, hvalue⟩ := Option.isSome_iff_exists.mp hhas
    have hsame := hkeys _ (List.mem_singleton_self _)
    obtain ⟨readiness, rfl, hreadiness⟩ := h value (hsame ▸ hvalue)
    exact (succeedsFrom_onKey succeeds_readiness ⟨readiness, hvalue, hreadiness⟩).succeeds
  · exact ⟨_, rfl⟩

theorem ItemsAt.congr (h : ItemsAt key p o) (hfind : find key.toList o' = find key.toList o) :
    ItemsAt key p o' := by
  intro value hvalue
  exact h value (hfind ▸ hvalue)

theorem ValuesAt.congr (h : ValuesAt key p o) (hfind : find key.toList o' = find key.toList o) :
    ValuesAt key p o' := by
  intro value hvalue
  exact h value (hfind ▸ hvalue)

theorem bodyPass_ok (h : ServiceShape service) (hheaded : Headed service headed) :
    ∃ result, bodyPass headed = .ok result := by
  obtain ⟨s, hfiles⟩ := succeeds_normalizeFiles
    (h.files.congr (hheaded.frame "files".toList (by decide)))
  have hfilesAt : Frame ["files".toList] headed s :=
    frames_ifPresent (frames_onItems "files" _) _ _ hfiles
  have hframe := (hheaded.frame.mono (List.subset_append_left _ ["files".toList])).trans
    (hfilesAt.mono (List.subset_append_right _ _))
  -- Routes and listeners are there from here on, and the workload stays an object.
  let started := setDefaults [("routes", .object []), ("listeners", .object [])] s
  have hstartedAt : Frame ["routes".toList, "listeners".toList] s started :=
    frames_defaulting [("routes", .object []), ("listeners", .object [])] s _ rfl
  have hframe' := (hframe.mono (List.subset_append_left _
    ["routes".toList, "listeners".toList])).trans (hstartedAt.mono (List.subset_append_right _ _))
  obtain ⟨worked, hworked⟩ := (succeedsFrom_onKey succeeds_normalizeWorkload
    (h.workload.frame hframe' (by decide))).succeeds
  have hworkedAt := frame_onKey hworked
  have hworkload : RequiredAt "workload" AnyObject worked := by
    obtain ⟨v, v', -, -, rfl⟩ := onKey_ok hworked
    exact ⟨v', find_setItem_self _ _ _, trivial⟩
  have hframe'' := (hframe'.mono (List.subset_append_left _ ["workload".toList])).trans
    (hworkedAt.mono (List.subset_append_right _ _))
  have hroutes : Has "routes".toList worked ∧ ValuesAt "routes" RouteShape worked := by
    apply valuesAt_of_default h.routes
    rw [hworkedAt _ (by decide), find_setDefaults, hframe _ (by decide)]
    rfl
  have hlisteners : Has "listeners".toList worked ∧ ValuesAt "listeners" AnyObject worked := by
    apply valuesAt_of_default h.listeners
    rw [hworkedAt _ (by decide), find_setDefaults, hframe _ (by decide)]
    rfl
  have hdependencies : Has "dependencies".toList worked ∧
      ItemsAt "dependencies" AnyObject worked := by
    apply itemsAt_of_default h.dependencies
    rw [hworkedAt _ (by decide), hstartedAt _ (by decide), hfilesAt _ (by decide),
      hheaded.dependencies]
  have hstorage : Has "storage".toList worked ∧ ItemsAt "storage" AnyObject worked := by
    apply itemsAt_of_default h.storage
    rw [hworkedAt _ (by decide), hstartedAt _ (by decide), hfilesAt _ (by decide), hheaded.storage]
  have hresources := ((hheaded.resources.frame hfilesAt (by decide)).frame hstartedAt
    (by decide)).frame hworkedAt (by decide)
  -- The passes one after the other, each on keys that the ones in front of it leave alone.
  have hlast := succeedsFrom_onValues (succeeds_defaulting AnyObject [("firewall", boolean true)])
    hlisteners.1 hlisteners.2
  have hlast := (succeedsFrom_onValues succeeds_normalizeRoute hroutes.1 hroutes.2).then
    (frames_onValues _ _) hlast (by decide)
  have haccelerators : Succeeds (fun resources : Object F ↦ Has "accelerators".toList resources ∧
      ItemsAt "accelerators" AnyObject resources) (onItems "accelerators" fun accelerator ↦
        .ok (normalizeAccelerator accelerator)) := by
    intro resources ⟨hhas, hitems⟩
    exact (succeedsFrom_onItems (fun _ _ => ⟨_, rfl⟩) hhas hitems).succeeds
  have hlast := (succeedsFrom_onKey haccelerators hresources).then (frames_onKey _ _) hlast
    (by decide)
  have hlast := (succeedsFrom_onItems (succeeds_defaulting AnyObject [("access", text "read")])
    hstorage.1 hstorage.2).then (frames_onItems _ _) hlast (by decide)
  have hlast := (succeedsFrom_onItems (succeeds_defaulting AnyObject [("condition", text "ready")])
    hdependencies.1 hdependencies.2).then (frames_onItems _ _) hlast (by decide)
  have hlast := (succeeds_networkPass hworkload (h.network.congr (hframe'' _ (by decide)))).then
    frames_networkPass hlast (by decide)
  have hlast := (succeedsFrom_readiness (h.readiness.congr (hframe'' _ (by decide)))).then
    (frames_ifPresent (frames_onKey _ _)) hlast (by decide)
  have hlast := (succeedsFrom_onKey succeeds_normalizeRuntime
    (h.runtime.frame hframe'' (by decide))).then (frames_onKey _ _) hlast (by decide)
  obtain ⟨result, hresult⟩ := hlast.succeeds
  refine ⟨result, ?_⟩
  show normalizeFiles headed >>= _ = _
  rw [hfiles]
  show onKey "workload" normalizeWorkload started >>= _ = _
  rw [hworked]
  exact hresult

theorem succeeds_normalizeService : Succeeds ServiceShape (normalizeService (F := F)) := by
  intro service h
  obtain ⟨headed, hhead, hheaded⟩ := headPass_ok h
  obtain ⟨result, hresult⟩ := bodyPass_ok h hheaded
  refine ⟨result, ?_⟩
  rw [normalizeService_eq]
  show headPass service >>= bodyPass = _
  rw [hhead]
  exact hresult

/-! ## Documents -/

theorem succeeds_normalizeResource : Succeeds ResourceShape (normalizeResource (F := F)) := by
  intro resource h
  let policy : Object F := [("enabled".toList, boolean false),
    ("consistency".toList, text "filesystem")]
  let defaulted := setDefaults [("scope", text "system"), ("capabilities", .array [text "read"]),
    ("backup", .object policy)] resource
  have hbackup : RequiredAt "backup" AnyObject defaulted :=
    requiredAt_setDefaults policy h.backup rfl trivial
  obtain ⟨s, hs⟩ := (succeedsFrom_onKey (succeeds_defaulting AnyObject [("enabled", boolean false),
    ("consistency", text "filesystem")]) hbackup).succeeds
  have hbrowser : ObjectAt "fileBrowser" AnyObject s := by
    apply h.fileBrowser.congr
    rw [frame_onKey hs _ (by decide), find_setDefaults]
    exact Option.or_none
  obtain ⟨result, hresult⟩ := (succeedsFrom_default (v := [("visible".toList, boolean false)])
    (succeeds_defaulting AnyObject [("visible", boolean false)]) hbrowser trivial).succeeds
  refine ⟨result, ?_⟩
  show onKey "backup" (defaulting [("enabled", boolean false), ("consistency", text "filesystem")])
    defaulted >>= _ = _
  rw [hs]
  exact hresult

variable {document : Object F}

theorem normalize_ok (h : DocumentShape document) :
    ∃ normalized, normalize document = .ok normalized := by
  let defaulted := setDefaults documentDefaults document
  have hframe := frame_normalizeBackup defaulted
  have hresources : Has "storageResources".toList (normalizeBackup defaulted) ∧
      ValuesAt "storageResources" ResourceShape (normalizeBackup defaulted) := by
    apply valuesAt_of_default h.storageResources
    rw [hframe _ (by decide), find_setDefaults]
    rfl
  have hcredentials : Has "credentials".toList (normalizeBackup defaulted) ∧
      ValuesAt "credentials" AnyObject (normalizeBackup defaulted) := by
    apply valuesAt_of_default h.credentials
    rw [hframe _ (by decide), find_setDefaults]
    rfl
  have hprofiles : Has "networkProfiles".toList (normalizeBackup defaulted) ∧
      ValuesAt "networkProfiles" NetworkShape (normalizeBackup defaulted) := by
    apply valuesAt_of_default h.networkProfiles
    rw [hframe _ (by decide), find_setDefaults]
    rfl
  have hsame : find "services".toList (normalizeBackup defaulted) =
      find "services".toList document := by
    rw [hframe _ (by decide), find_setDefaults]
    exact Option.or_none
  have hlast := succeedsFrom_onValues succeeds_normalizeService
    ((has_congr hsame).mpr h.has_services) (h.services.congr hsame)
  have hlast := (succeedsFrom_onValues succeeds_normalizeNetwork hprofiles.1 hprofiles.2).then
    (frames_onValues _ _) hlast (by decide)
  have hlast := (succeedsFrom_onValues (succeeds_defaulting AnyObject [("required", boolean true)])
    hcredentials.1 hcredentials.2).then (frames_onValues _ _) hlast (by decide)
  exact ((succeedsFrom_onValues succeeds_normalizeResource hresources.1 hresources.2).then
    (frames_onValues _ _) hlast (by decide)).succeeds

theorem compileDocument_normalized {validateSchema otherRules : Object F → Except SpecError Unit}
    {normalized : Object F} (hnormalize : normalize document = .ok normalized)
    (hagain : normalize normalized = .ok normalized) (hvalid : validateSchema document = .ok ()) :
    compileDocument validateSchema otherRules normalized =
      compileDocument validateSchema otherRules document := by
  unfold compileDocument
  rw [hvalid, hnormalize, hagain]
  cases hnormalized : validateSchema normalized with
  | error err =>
    show Except.error err = validateSchema normalized >>= _
    rw [hnormalized]
    rfl
  | ok u => rfl

/-- On every document of the schema's shape `normalize` adds defaults and changes nothing else, a
second time adds nothing, and what is compiled from the normalized document is what is compiled
from the one it came from. -/
theorem normalize_adds_once (hdict : Dict (.object document)) (hshape : DocumentShape document) :
    ∃ normalized, normalize document = .ok normalized ∧
      Preserved (.object document) (.object normalized) ∧
      normalize normalized = .ok normalized ∧
      ∀ validateSchema otherRules, validateSchema document = .ok () →
        compileDocument validateSchema otherRules normalized =
          compileDocument validateSchema otherRules document := by
  obtain ⟨normalized, hnormalize⟩ := normalize_ok hshape
  obtain ⟨hpreserved, hagain⟩ := normalize_settles hdict hshape.backup hnormalize
  exact ⟨normalized, hnormalize, hpreserved, hagain, fun _ _ hvalid =>
    compileDocument_normalized hnormalize hagain hvalid⟩

/-! ## A job and a session -/

def toolsServices : Object Unit :=
  [("nightly".toList, .object [("name".toList, text "Nightly"),
      ("workload".toList, .object [("kind".toList, text "job")]),
      ("runtime".toList, .object [("type".toList, text "python"),
        ("entrypoint".toList, .object [("module".toList, text "nightly")])])]),
    ("shell".toList, .object [("name".toList, text "Shell"),
      ("workload".toList, .object [("kind".toList, text "session")]),
      ("runtime".toList, .object [("type".toList, text "oci"),
        ("image".toList, text "shell:1")])])]

def toolsDocument : Object Unit :=
  [("schemaVersion".toList, number 3), ("services".toList, .object toolsServices)]

theorem serviceShape_plain {name : Plain F} {workload runtime : Object F}
    (hworkload : WorkloadShape workload) (hruntime : RuntimeShape runtime) :
    ServiceShape [("name".toList, name), ("workload".toList, .object workload),
      ("runtime".toList, .object runtime)] where
  workload := ⟨workload, by simp [find, List.lookup_cons], hworkload⟩
  runtime := ⟨runtime, by simp [find, List.lookup_cons], hruntime⟩
  authorization := by simp [ObjectAt, find, List.lookup_cons]
  resources := by simp [ObjectAt, find, List.lookup_cons]
  sandbox := by simp [ObjectAt, find, List.lookup_cons]
  files := by simp [ItemsAt, find, List.lookup_cons]
  readiness := by simp [ObjectAt, find, List.lookup_cons]
  network := by simp [ObjectAt, find, List.lookup_cons]
  dependencies := by simp [ItemsAt, find, List.lookup_cons]
  storage := by simp [ItemsAt, find, List.lookup_cons]
  routes := by simp [ValuesAt, find, List.lookup_cons]
  listeners := by simp [ValuesAt, find, List.lookup_cons]

theorem documentShape_tools : DocumentShape toolsDocument where
  backup := by simp [BackupShape, ObjectAt, toolsDocument, find, List.lookup_cons]
  storageResources := by simp [ValuesAt, toolsDocument, find, List.lookup_cons]
  credentials := by simp [ValuesAt, toolsDocument, find, List.lookup_cons]
  networkProfiles := by simp [ValuesAt, toolsDocument, find, List.lookup_cons]
  has_services := by simp [Has, toolsDocument, find, List.lookup_cons]
  services := by
    have hjob : WorkloadShape (F := Unit) [("kind".toList, text "job")] :=
      ⟨⟨.string "job".toList, by simp [find, text]⟩,
        by simp [ItemsAt, find, List.lookup_cons]⟩
    have hsession : WorkloadShape (F := Unit) [("kind".toList, text "session")] :=
      ⟨⟨.string "session".toList, by simp [find, text]⟩,
        by simp [ItemsAt, find, List.lookup_cons]⟩
    have hpython : RuntimeShape (F := Unit) [("type".toList, text "python"),
        ("entrypoint".toList, .object [("module".toList, text "nightly")])] :=
      ⟨⟨.string "python".toList, by simp [find, text]⟩,
        by simp [ObjectAt, find, List.lookup_cons], by simp [ObjectAt, find, List.lookup_cons],
        fun _ => ⟨[("module".toList, text "nightly")], by simp [find, List.lookup_cons], trivial⟩⟩
    have hoci : RuntimeShape (F := Unit) [("type".toList, text "oci"),
        ("image".toList, text "shell:1")] :=
      ⟨⟨.string "oci".toList, by simp [find, text]⟩,
        by simp [ObjectAt, find, List.lookup_cons], by simp [ObjectAt, find, List.lookup_cons],
        fun h => by simp [find, text] at h⟩
    intro value hvalue
    have hfound : find "services".toList toolsDocument = some (.object toolsServices) := by
      simp [toolsDocument, find, List.lookup_cons]
    cases hfound.symm.trans hvalue
    refine ⟨toolsServices, rfl, ?_⟩
    unfold toolsServices
    rw [List.forall_mem_cons, List.forall_mem_cons]
    exact ⟨⟨_, rfl, serviceShape_plain hjob hpython⟩, ⟨_, rfl, serviceShape_plain hsession hoci⟩,
      List.forall_mem_nil _⟩

theorem normalize_adds_once_tools :
    ∃ normalized, normalize toolsDocument = .ok normalized ∧
      Preserved (.object toolsDocument) (.object normalized) ∧
      normalize normalized = .ok normalized ∧
      ∀ validateSchema otherRules, validateSchema toolsDocument = .ok () →
        compileDocument validateSchema otherRules normalized =
          compileDocument validateSchema otherRules toolsDocument :=
  normalize_adds_once (by simp [toolsDocument, toolsServices, Dict, DictEntries]) documentShape_tools

end NixNas.Spec
