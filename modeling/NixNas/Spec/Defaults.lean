import NixNas.Spec.Normalize

/-!
# Defaults and the network rule (`semantic_validate` of `services/nas_v2_spec.py`)
-/

open Fallible

namespace NixNas.Spec

variable {F : Type}
variable {serviceId : Text} {service document result service' workload : Object F}

/-- The network rule of `semantic_validate` for one normalized service. -/
def checkNetworkPolicy (serviceId : Text) (service : Object F) : Except SpecError Unit :=
  if Has "networkProfile".toList service ∧ Has "network".toList service then
    .error ⟨"Use either network or networkProfile, not both".toList,
      jsonPath [.key "services".toList, .key serviceId], "network-policy".toList⟩
  else .ok ()

def IsService (document : Object F) (serviceId : Text) (service : Object F) : Prop :=
  ∃ services, find "services".toList document = some (.object services) ∧
    (serviceId, .object service) ∈ services

def DeclaresBoth (service : Object F) : Prop :=
  Has "network".toList service ∧ Has "networkProfile".toList service

def SessionProfile (service : Object F) : Prop :=
  (∃ workload, find "workload".toList service = some (.object workload) ∧
    isSession workload = true) ∧ Has "networkProfile".toList service

/-- No default contradicts what the document says: the network rule refuses no service. -/
def DefaultsAgree (result : Object F) : Prop :=
  ∀ serviceId service, IsService result serviceId service →
    ¬ DeclaresBoth service ∧ checkNetworkPolicy serviceId service = .ok ()

theorem checkNetworkPolicy_ok :
    checkNetworkPolicy serviceId service = .ok () ↔ ¬ DeclaresBoth service := by
  unfold checkNetworkPolicy
  split
  · rename_i hboth
    exact ⟨nofun, fun h => (h hboth.symm).elim⟩
  · rename_i hboth
    exact ⟨fun _ h => hboth h.symm, fun _ => rfl⟩

theorem Frame.has {keys : List Text} {o o' : Object F} (h : Frame keys o o') {key : Text}
    (hkey : key ∉ keys) : Has key o' ↔ Has key o := by
  unfold Has
  rw [h key hkey]

def documentKeys : List Text :=
  ["generation", "storageResources", "credentials", "networkProfiles", "backup"].map String.toList

theorem find_services_normalize (h : normalize document = .ok result) :
    ∃ services services', find "services".toList document = some (.object services) ∧
      services.mapM (onValue normalizeService) = .ok services' ∧
      find "services".toList result = some (.object services') := by
  obtain ⟨r₁, h₁, h⟩ := bind_ok h
  obtain ⟨r₂, h₂, h⟩ := bind_ok h
  obtain ⟨r₃, h₃, h⟩ := bind_ok h
  obtain ⟨services, services', hfind, hmap, rfl⟩ := onValues_ok h
  refine ⟨services, services', ?_, hmap, ?_⟩
  · -- the passes in front of the services write other keys
    have hother : Frame documentKeys document r₃ := by
      have hdefaults := ((((Frame.refl documentKeys document).setDefault "generation" (number 1)
        (by decide)).setDefault "storageResources" (.object []) (by decide)).setDefault
        "credentials" (.object []) (by decide)).setDefault "networkProfiles" (.object [])
        (by decide)
      have hbackup := hdefaults.trans ((frame_normalizeBackup _).mono (by decide))
      exact ((hbackup.onValues h₁ (by decide)).onValues h₂ (by decide)).onValues h₃ (by decide)
    rw [← hother "services".toList (by decide)]
    exact hfind
  · rw [find_setItem, if_pos rfl]

theorem IsService.normalize
    (hservice : IsService document serviceId service) (h : normalize document = .ok result) :
    ∃ service', normalizeService service = .ok service' ∧ IsService result serviceId service' := by
  obtain ⟨services, services', hfind, hmap, hfind'⟩ := find_services_normalize h
  obtain ⟨found, hfound, hmem⟩ := hservice
  cases hfind.symm.trans hfound
  obtain ⟨e', he', hvalue⟩ := exists_right (mapM_ok hmap) hmem
  obtain ⟨s, s', hentry, hnormal, rfl⟩ := onValue_ok hvalue
  cases hentry
  exact ⟨s', hnormal, services', hfind', he'⟩

theorem isService_normalize (h : normalize document = .ok result) :
    IsService result serviceId service' ↔
      ∃ service, IsService document serviceId service ∧ normalizeService service = .ok service' := by
  constructor
  · intro hservice'
    obtain ⟨services, services', hfind, hmap, hfind'⟩ := find_services_normalize h
    obtain ⟨found, hfound, hmem⟩ := hservice'
    cases hfind'.symm.trans hfound
    obtain ⟨e, he, hvalue⟩ := exists_left (mapM_ok hmap) hmem
    obtain ⟨service, _, hentry, hnormal, heq⟩ := onValue_ok hvalue
    cases heq
    exact ⟨service, ⟨services, hfind, hentry ▸ he⟩, hnormal⟩
  · rintro ⟨service, hservice, hnormal⟩
    obtain ⟨normal, hnormal', hservice'⟩ := hservice.normalize h
    cases hnormal.symm.trans hnormal'
    exact hservice'

theorem isSession_normalizeWorkload {workload' : Object F}
    (h : normalizeWorkload workload = .ok workload') :
    isSession workload' = isSession workload := by
  have hframe : Frame (["activation", "schedules"].map String.toList) workload workload' := by
    obtain ⟨kind, -, h⟩ := bind_ok h
    split at h
    · cases h
      exact (Frame.refl _ workload).setDefault "activation" _ (by decide)
    · split at h
      · exact ((Frame.refl _ workload).setDefault "schedules" _ (by decide)).onItems h (by decide)
      · cases h
        exact .refl _ _
  unfold isSession
  rw [hframe "kind".toList (by decide)]

theorem frame_normalizeReadiness
    (h : normalizeReadiness service = .ok result) : Frame ["readiness".toList] service result := by
  unfold normalizeReadiness at h
  split at h
  · exact frame_onKey h
  · cases h
    exact .refl _ _

theorem frame_normalizeServiceNetwork (h : normalizeServiceNetwork workload service = .ok result) :
    Frame ["network".toList] service result := by
  unfold normalizeServiceNetwork at h
  split at h
  · exact frame_onKey h
  · split at h
    · exact ((Frame.refl _ service).setDefault "network" _ (by decide)).onKey h (by decide)
    · cases h
      exact .refl _ _

theorem has_network_normalizeServiceNetwork
    (h : normalizeServiceNetwork workload service = .ok result) :
    Has "network".toList result ↔ Has "network".toList service ∨ isSession workload = true := by
  unfold normalizeServiceNetwork at h
  by_cases hhas : Has "network".toList service
  · rw [if_pos hhas] at h
    obtain ⟨_, _, -, -, rfl⟩ := onKey_ok h
    unfold Has
    rw [find_setItem, if_pos rfl]
    exact ⟨fun _ => .inl hhas, fun _ => rfl⟩
  · rw [if_neg hhas] at h
    by_cases hsession : isSession workload = true
    · rw [if_pos hsession] at h
      obtain ⟨_, _, -, -, rfl⟩ := onKey_ok h
      unfold Has
      rw [find_setItem, if_pos rfl]
      exact ⟨fun _ => .inr hsession, fun _ => rfl⟩
    · rw [if_neg hsession] at h
      cases h
      exact ⟨.inl, fun h => h.resolve_right hsession⟩

theorem has_normalizeService (h : normalizeService service = .ok service') :
    (Has "networkProfile".toList service' ↔ Has "networkProfile".toList service) ∧
      (Has "network".toList service' ↔ Has "network".toList service ∨
        ∃ workload, find "workload".toList service = some (.object workload) ∧
          isSession workload = true) := by
  obtain ⟨s₁, h₁, h⟩ := bind_ok h
  obtain ⟨s₂, h₂, h⟩ := bind_ok h
  obtain ⟨s₃, h₃, h⟩ := bind_ok h
  obtain ⟨s₄, h₄, h⟩ := bind_ok h
  obtain ⟨workload', hworkload', h⟩ := bind_ok h
  obtain ⟨s₅, h₅, h⟩ := bind_ok h
  have hhead := frame_normalizeHead h₁
  have hruntime := frame_onKey h₃
  have hreadiness := frame_normalizeReadiness h₄
  have hnetwork := frame_normalizeServiceNetwork h₅
  have htail := frame_normalizeTail h
  obtain ⟨workload, workload'', hfind, hnormal, rfl⟩ := onKey_ok h₂
  have hwritten := frame_setItem "workload".toList (Plain.object workload'') s₁
  have hfront {key : Text} (hkey : key ∉ "readiness".toList :: "runtime".toList ::
      "workload".toList :: headKeys) : Has key s₄ ↔ Has key service := by
    rw [List.mem_cons, List.mem_cons, List.mem_cons, not_or, not_or, not_or] at hkey
    rw [hreadiness.has (by simpa using hkey.1), hruntime.has (by simpa using hkey.2.1),
      hwritten.has (by simpa using hkey.2.2.1), hhead.has hkey.2.2.2]
  constructor
  · rw [htail.has (by decide), hnetwork.has (by decide), hfront (by decide)]
  · -- the workload that decides is the normalized one, of the same kind
    have hsame : workload' = workload'' := by
      have hread := objectItem_ok hworkload'
      rw [hreadiness _ (by decide), hruntime _ (by decide), find_setItem, if_pos rfl] at hread
      cases hread
      rfl
    rw [htail.has (by decide), has_network_normalizeServiceNetwork h₅, hfront (by decide), hsame,
      isSession_normalizeWorkload hnormal]
    rw [hhead _ (by decide)] at hfind
    apply or_congr_right
    constructor
    · exact fun hsession => ⟨workload, hfind, hsession⟩
    · rintro ⟨found, hfound, hsession⟩
      cases hfind.symm.trans hfound
      exact hsession

theorem declaresBoth_normalizeService (h : normalizeService service = .ok service') :
    DeclaresBoth service' ↔ DeclaresBoth service ∨ SessionProfile service := by
  obtain ⟨hprofile, hnetwork⟩ := has_normalizeService h
  unfold DeclaresBoth SessionProfile
  rw [hprofile, hnetwork, or_and_right]

/-- For a document in which no service says both, the defaults agree exactly when no session names
a network profile. -/
theorem defaultsAgree_iff {document result : Object F} (h : normalize document = .ok result)
    (hwritten : ∀ serviceId service, IsService document serviceId service →
      ¬ DeclaresBoth service) :
    DefaultsAgree result ↔
      ∀ serviceId service, IsService document serviceId service → ¬ SessionProfile service := by
  unfold DefaultsAgree
  simp only [checkNetworkPolicy_ok, and_self]
  constructor
  · intro hagree serviceId service hservice hsession
    obtain ⟨service', hnormal, hservice'⟩ := hservice.normalize h
    apply hagree serviceId service' hservice'
    exact (declaresBoth_normalizeService hnormal).mpr (.inr hsession)
  · intro hsessions serviceId service' hservice' hboth
    obtain ⟨service, hservice, hnormal⟩ := (isService_normalize h).mp hservice'
    obtain hboth | hsession := (declaresBoth_normalizeService hnormal).mp hboth
    · exact hwritten serviceId service hservice hboth
    · exact hsessions serviceId service hservice hsession

def sessionService (network : Object Empty) : Object Empty :=
  [("name".toList, text "Browser"), ("workload".toList, .object [("kind".toList, text "session")]),
    ("runtime".toList, .object [("type".toList, text "oci"),
      ("image".toList, text "localhost/browser:1")])] ++ network

def sessionDocument (network : Object Empty) : Object Empty :=
  [("schemaVersion".toList, number 3),
    ("networkProfiles".toList, .object [("media".toList, .object [("mode".toList, text "isolated")])]),
    ("services".toList, .object [("browser".toList, .object (sessionService network))])]

def mediaProfile : Object Empty := [("networkProfile".toList, text "media")]

theorem isService_sessionDocument {network service : Object Empty} :
    IsService (sessionDocument network) serviceId service ↔
      serviceId = "browser".toList ∧ service = sessionService network := by
  constructor
  · rintro ⟨services, hfind, hmem⟩
    cases hfind
    cases List.mem_singleton.mp hmem
    exact ⟨rfl, rfl⟩
  · rintro ⟨rfl, rfl⟩
    exact ⟨_, rfl, List.mem_singleton.mpr rfl⟩

theorem defaultsAgree_iff_session :
    ∃ result, normalize (sessionDocument []) = .ok result ∧
      (DefaultsAgree result ↔ ∀ serviceId service,
        IsService (sessionDocument []) serviceId service → ¬ SessionProfile service) := by
  obtain ⟨result, hresult⟩ := exists_of_isOk (x := normalize (sessionDocument [])) (by decide)
  refine ⟨result, hresult, defaultsAgree_iff hresult ?_⟩
  intro serviceId service hservice
  obtain ⟨-, rfl⟩ := isService_sessionDocument.mp hservice
  rintro ⟨hnetwork, -⟩
  exact absurd hnetwork (by decide)

/-- A session that names a profile is given a network block beside it. -/
theorem not_defaultsAgree_mediaProfile :
    ¬ ∀ document result : Object Empty, normalize document = .ok result →
      (∀ serviceId service, IsService document serviceId service → ¬ DeclaresBoth service) →
      DefaultsAgree result := by
  intro h
  obtain ⟨result, hresult⟩ := exists_of_isOk (x := normalize (sessionDocument mediaProfile))
    (by decide)
  have hservice : IsService (sessionDocument mediaProfile) "browser".toList
      (sessionService mediaProfile) := isService_sessionDocument.mpr ⟨rfl, rfl⟩
  obtain ⟨s', hnormal, hservice'⟩ := hservice.normalize hresult
  have hboth : DeclaresBoth s' := by
    apply (declaresBoth_normalizeService hnormal).mpr
    exact .inr ⟨⟨_, rfl, rfl⟩, by decide⟩
  refine (h _ result hresult ?_ _ s' hservice').1 hboth
  intro serviceId service hmem
  obtain ⟨-, rfl⟩ := isService_sessionDocument.mp hmem
  rintro ⟨hnetwork, -⟩
  exact absurd hnetwork (by decide)

end NixNas.Spec
