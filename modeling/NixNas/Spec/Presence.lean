import NixNas.Spec.Defaults
import NixNas.Spec.Schema

/-!
# What the defaults guarantee

A pass removes no key, so what one default sets is there in the end.
-/

open Fallible

namespace NixNas.Spec

variable {F : Type} {o o' o'' service result : Object F} {value : Plain F} {key : String}
  {f : Object F → Except Malformed (Object F)}
variable {workload workload' : Object F}

def Grows (o o' : Object F) : Prop := ∀ key, Has key o → Has key o'

theorem Grows.refl (o : Object F) : Grows o o := fun _ h => h

theorem Grows.trans (h : Grows o o') (h' : Grows o' o'') : Grows o o'' :=
  fun key hkey => h' key (h key hkey)

theorem has_setDefault (key : String) (value : Plain F) (o : Object F) :
    Has key.toList (setDefault key value o) := by
  unfold Has
  rw [find_setDefault, if_pos rfl]
  rfl

theorem grows_setItem (key : Text) (value : Plain F) (o : Object F) :
    Grows o (setItem o key value) := by
  intro key' hkey
  unfold Has
  rw [find_setItem]
  split
  · rfl
  · exact hkey

theorem grows_setDefault (key : String) (value : Plain F) (o : Object F) :
    Grows o (setDefault key value o) := by
  intro key' hkey
  unfold Has
  rw [find_setDefault]
  split
  · rfl
  · exact hkey

theorem Grows.setDefault (h : Grows o o') (key : String) (value : Plain F) :
    Grows o (setDefault key value o') := h.trans (grows_setDefault key value o')

theorem Grows.onKey (h : Grows o o') (hpass : onKey key f o' = .ok o'') : Grows o o'' := by
  obtain ⟨_, _, -, -, rfl⟩ := onKey_ok hpass
  exact h.trans (grows_setItem _ _ _)

theorem Grows.onItems (h : Grows o o') (hpass : onItems key f o' = .ok o'') : Grows o o'' := by
  obtain rfl | ⟨_, _, -, -, rfl⟩ := onItems_ok hpass
  · exact h
  · exact h.trans (grows_setItem _ _ _)

theorem Grows.onValues (h : Grows o o') (hpass : onValues key f o' = .ok o'') : Grows o o'' := by
  obtain ⟨_, _, -, -, rfl⟩ := onValues_ok hpass
  exact h.trans (grows_setItem _ _ _)

theorem has_normalizeHead (h : normalizeHead service = .ok result) :
    Has "enabled".toList result ∧ Has "managed".toList result := by
  obtain ⟨s₁, h₁, h⟩ := bind_ok h
  obtain ⟨s₂, h₂, h⟩ := bind_ok h
  obtain ⟨runtime, -, h⟩ := bind_ok h
  obtain ⟨runtimeType, -, h⟩ := bind_ok h
  obtain ⟨generatedRuntime, -, h⟩ := bind_ok h
  obtain ⟨s₃, h₃, h⟩ := bind_ok h
  obtain ⟨s₄, h₄, h⟩ := bind_ok h
  cases h
  have hdefaults := (((Grows.refl (setDefault "managed" (boolean true)
    (setDefault "enabled" (boolean true) service))).setDefault "dependencies"
    (.array [])).setDefault "requiresCapabilities" (.array [])).setDefault "authorization"
    (.object [("capabilities".toList, .array [])])
  have hresources := ((hdefaults.onKey h₁).setDefault "resources" (.object [])).onKey h₂
  have hsandbox := (hresources.setDefault "sandbox" (.object [])).onKey h₃
  have hlists := (hsandbox.setDefault "storage" (.array [])).setDefault "credentials" (.array [])
  have hfiles : Grows (setDefault "managed" (boolean true)
      (setDefault "enabled" (boolean true) service)) s₄ := by
    unfold normalizeFiles at h₄
    split at h₄
    · exact hlists.onItems h₄
    · cases h₄
      exact hlists
  have hall := (hfiles.setDefault "routes" (.object [])).setDefault "listeners" (.object [])
  exact ⟨hall _ (grows_setDefault _ _ _ _ (has_setDefault _ _ _)), hall _ (has_setDefault _ _ _)⟩

theorem grows_normalizeReadiness (h : normalizeReadiness service = .ok result) :
    Grows service result := by
  unfold normalizeReadiness at h
  split at h
  · exact (Grows.refl service).onKey h
  · cases h
    exact .refl service

theorem grows_normalizeServiceNetwork
    (h : normalizeServiceNetwork workload service = .ok result) : Grows service result := by
  unfold normalizeServiceNetwork at h
  split at h
  · exact (Grows.refl service).onKey h
  split at h
  · exact ((Grows.refl service).setDefault "network" (.object [])).onKey h
  · cases h
    exact .refl service

theorem grows_normalizeTail (h : normalizeTail service = .ok result) : Grows service result := by
  obtain ⟨s₁, h₁, h⟩ := bind_ok h
  obtain ⟨s₂, h₂, h⟩ := bind_ok h
  obtain ⟨s₃, h₃, h⟩ := bind_ok h
  obtain ⟨s₄, h₄, h⟩ := bind_ok h
  exact ((((Grows.refl service).onItems h₁).onItems h₂).onKey h₃).onValues h₄ |>.onValues h

theorem has_normalizeWorkload (h : normalizeWorkload workload = .ok workload') :
    (keyIs "kind" "daemon" workload' = true → Has "activation".toList workload') ∧
      (keyIs "kind" "job" workload' = true → Has "schedules".toList workload') := by
  obtain ⟨kind, hkind, h⟩ := bind_ok h
  have hfind := getItem_ok.mp hkind
  split at h
  · -- a daemon
    rename_i hdaemon
    cases h
    have hkind' : find "kind".toList (setDefault "activation" (text "persistent") workload) =
        some (text "daemon") := by
      rw [frame_setDefault "activation" _ _ _ (by decide), hfind, eq_text_of_isText hdaemon]
    refine ⟨fun _ => has_setDefault _ _ _, fun hjob => ?_⟩
    rw [keyIs_iff, hkind', Option.some.injEq] at hjob
    exact absurd (text_injective hjob) (by decide)
  split at h
  · rename_i hjob
    have hgrows := (Grows.refl _).onItems h
    have hkind' : find "kind".toList workload' = some (text "job") := by
      rw [frame_onItems h _ (by decide), frame_setDefault "schedules" _ _ _ (by decide), hfind,
        eq_text_of_isText hjob]
    refine ⟨fun hdaemon => ?_, fun _ => hgrows _ (has_setDefault _ _ _)⟩
    rw [keyIs_iff, hkind', Option.some.injEq] at hdaemon
    exact absurd (text_injective hdaemon) (by decide)
  · rename_i hdaemon hjob
    cases h
    have hother : ∀ name, isText kind name = false → keyIs "kind" name workload = false := by
      intro name hname
      unfold keyIs
      rw [hfind]
      exact hname
    rw [hother "daemon" (Bool.eq_false_iff.mpr hdaemon), hother "job" (Bool.eq_false_iff.mpr hjob)]
    exact ⟨nofun, nofun⟩

def HasDefaults (r : Object F) : Prop :=
  Has "vendor".toList r ∧ Has "quantity".toList r ∧ Has "required".toList r ∧ Has "mode".toList r

theorem hasDefaults_normalizeAccelerator (r : Object F) : HasDefaults (normalizeAccelerator r) := by
  have hvendor := (((Grows.refl (setDefault "vendor" (text "any") r)).setDefault "quantity"
    (number 1)).setDefault "required" (boolean false)).setDefault "mode" (text "shared")
  have hquantity := ((Grows.refl (setDefault "quantity" (number 1) (setDefault "vendor" (text "any")
    r))).setDefault "required" (boolean false)).setDefault "mode" (text "shared")
  exact ⟨hvendor _ (has_setDefault _ _ _), hquantity _ (has_setDefault _ _ _),
    grows_setDefault _ _ _ _ (has_setDefault _ _ _), has_setDefault _ _ _⟩

structure Normalized (service : Object F) : Prop where
  enabled : Has "enabled".toList service
  managed : Has "managed".toList service
  resources : ∃ r, find "resources".toList service = some (.object r) ∧
    (∀ items, find "accelerators".toList r = some (.array items) →
      ∀ item ∈ items, ∃ a, item = .object a ∧ HasDefaults a) ∧ Has "accelerators".toList r
  activation : ∀ w, find "workload".toList service = some (.object w) →
    keyIs "kind" "daemon" w = true → Has "activation".toList w
  schedules : ∀ w, find "workload".toList service = some (.object w) →
    keyIs "kind" "job" w = true → Has "schedules".toList w

theorem resources_normalizeTail (h : normalizeTail service = .ok result) :
    ∃ r, find "resources".toList result = some (.object r) ∧
      (∀ items, find "accelerators".toList r = some (.array items) →
        ∀ item ∈ items, ∃ a, item = .object a ∧ HasDefaults a) ∧ Has "accelerators".toList r := by
  obtain ⟨s₁, h₁, h⟩ := bind_ok h
  obtain ⟨s₂, h₂, h⟩ := bind_ok h
  obtain ⟨s₃, h₃, h⟩ := bind_ok h
  obtain ⟨s₄, h₄, h₅⟩ := bind_ok h
  obtain ⟨r, r', -, hpass, rfl⟩ := onKey_ok h₃
  have hhas : Has "accelerators".toList r' := by
    obtain ⟨value, hvalue, -⟩ := bind_ok hpass
    refine (Grows.refl r).onItems hpass _ ?_
    unfold Has
    rw [getItem_ok.mp hvalue]
    rfl
  refine ⟨r', ?_, fun items hitems item hitem => ?_, hhas⟩
  · -- the routes and the listeners are other keys
    rw [frame_onValues h₅ _ (by decide), frame_onValues h₄ _ (by decide), find_setItem, if_pos rfl]
  · obtain rfl | ⟨old, new, -, hmap, rfl⟩ := onItems_ok hpass
    · -- an array is always passed over
      obtain ⟨value, hvalue, hpass⟩ := bind_ok hpass
      rw [getItem_ok, hitems] at hvalue
      cases hvalue
      obtain ⟨new, hmap, hpass⟩ := bind_ok hpass
      have hsame : new = items := by
        have hset : setItem r' "accelerators".toList (.array new) = r' := Except.ok.inj hpass
        have hfind := find_setItem "accelerators".toList "accelerators".toList (.array new) r'
        rw [hset, hitems, if_pos rfl, Option.some.injEq, Plain.array.injEq] at hfind
        exact hfind.symm
      subst hsame
      obtain ⟨_, -, hitem⟩ := exists_left (mapM_ok hmap) hitem
      rename_i before
      cases before with
      | scalar => cases hitem
      | array => cases hitem
      | object a =>
        cases hitem
        exact ⟨_, rfl, hasDefaults_normalizeAccelerator a⟩
    · rw [find_setItem, if_pos rfl, Option.some.injEq, Plain.array.injEq] at hitems
      subst hitems
      obtain ⟨before, -, hitem⟩ := exists_left (mapM_ok hmap) hitem
      cases before with
      | scalar => cases hitem
      | array => cases hitem
      | object a =>
        cases hitem
        exact ⟨_, rfl, hasDefaults_normalizeAccelerator a⟩

theorem workload_normalizeService (h : normalizeService service = .ok result) :
    ∃ w w', find "workload".toList service = some (.object w) ∧ normalizeWorkload w = .ok w' ∧
      find "workload".toList result = some (.object w') := by
  obtain ⟨s₁, hhead, h⟩ := bind_ok h
  obtain ⟨s₂, hworkload, h⟩ := bind_ok h
  obtain ⟨s₃, hruntime, h⟩ := bind_ok h
  obtain ⟨s₄, hreadiness, h⟩ := bind_ok h
  obtain ⟨workload, -, h⟩ := bind_ok h
  obtain ⟨s₅, hnetwork, htail⟩ := bind_ok h
  -- behind its pass nothing writes the workload
  have hframe : Frame (["runtime", "readiness", "network"].map String.toList ++ tailKeys) s₂ result :=
    ((((Frame.refl _ s₂).onKey hruntime (by decide)).trans
      ((frame_normalizeReadiness hreadiness).mono (by decide))).trans
      ((frame_normalizeServiceNetwork hnetwork).mono (by decide))).trans
      ((frame_normalizeTail htail).mono (by decide))
  obtain ⟨w, w', hbefore, hpass, rfl⟩ := onKey_ok hworkload
  refine ⟨w, w', ?_, hpass, ?_⟩
  · rw [← frame_normalizeHead hhead "workload".toList (by decide), hbefore]
  · rw [hframe "workload".toList (by decide), find_setItem, if_pos rfl]

theorem find_normalizeWorkload (h : normalizeWorkload workload = .ok workload') :
    find "kind".toList workload' = find "kind".toList workload ∧
      (keyIs "kind" "daemon" workload = false →
        find "activation".toList workload' = find "activation".toList workload) := by
  obtain ⟨kind, hkind, h⟩ := bind_ok h
  have hfind := getItem_ok.mp hkind
  split at h
  · rename_i hdaemon
    cases h
    refine ⟨frame_setDefault "activation" _ _ _ (by decide), fun hnot => ?_⟩
    have hkeyIs : keyIs "kind" "daemon" workload = true := by
      rw [keyIs_iff, hfind, eq_text_of_isText hdaemon]
    cases hnot.symm.trans hkeyIs
  · split at h
    · -- a job is given its schedules alone
      have hframe := ((Frame.refl ["schedules".toList] workload).setDefault "schedules" _
        (by decide)).onItems h (by decide)
      exact ⟨hframe _ (by decide), fun _ => hframe _ (by decide)⟩
    · cases h
      exact ⟨rfl, fun _ => rfl⟩

theorem normalized_normalizeService (h : normalizeService service = .ok result) :
    Normalized result := by
  obtain ⟨w, w', -, hpass, hfind⟩ := workload_normalizeService h
  obtain ⟨s₁, hhead, h⟩ := bind_ok h
  obtain ⟨s₂, hworkload, h⟩ := bind_ok h
  obtain ⟨s₃, hruntime, h⟩ := bind_ok h
  obtain ⟨s₄, hreadiness, h⟩ := bind_ok h
  obtain ⟨workload, -, h⟩ := bind_ok h
  obtain ⟨s₅, hnetwork, htail⟩ := bind_ok h
  have hgrows : Grows s₁ result :=
    ((((Grows.refl s₁).onKey hworkload).onKey hruntime).trans
      (grows_normalizeReadiness hreadiness)).trans
      ((grows_normalizeServiceNetwork hnetwork).trans (grows_normalizeTail htail))
  have hhas := has_normalizeHead hhead
  have hfields := has_normalizeWorkload hpass
  refine ⟨hgrows _ hhas.1, hgrows _ hhas.2, resources_normalizeTail htail, ?_, ?_⟩
  · intro found hfound
    cases hfind.symm.trans hfound
    exact hfields.1
  · intro found hfound
    cases hfind.symm.trans hfound
    exact hfields.2

theorem not_has_activation {float : FloatEq F} {validateSchema otherRules : Object F → Except SpecError Unit}
    {document effective : Object F} {serviceId : Text} {w : Object F}
    (h : compileDocument validateSchema otherRules document = .ok effective)
    (hschema : ∀ document, validateSchema document = .ok () → DocumentSchema float document)
    (hservice : IsService document serviceId service)
    (hworkload : find "workload".toList service = some (.object w))
    (hkind : keyIs "kind" "daemon" w = false) : ¬ Has "activation".toList w := by
  obtain ⟨normalized, hnormal, hvalid, hrules, -⟩ := compileDocument_ok h
  obtain ⟨result, hresult, services, hservices, hmem⟩ := hservice.normalize hnormal
  obtain ⟨w₀, w', hfound, hpass, hfind⟩ := workload_normalizeService hresult
  cases hworkload.symm.trans hfound
  obtain ⟨hkind', hactivation⟩ := find_normalizeWorkload hpass
  obtain ⟨hcheck, -⟩ := semanticValidate_ok hrules hservices hmem
  obtain ⟨found, hfound, hall⟩ := (hschema _ hvalid).services
  cases hservices.symm.trans hfound
  obtain ⟨_, ⟨⟩, hschema'⟩ := hall _ hmem
  obtain ⟨_, hfound', hworkload'⟩ := hschema'.workload
  cases hfind.symm.trans hfound'
  obtain ⟨name, hname, hkindName⟩ := hworkload'.kind
  have hsame : Has "activation".toList w' ↔ Has "activation".toList w := by
    unfold Has
    rw [hactivation hkind]
  rw [← hsame]
  have hread : ∀ name, keyIs "kind" name w' = keyIs "kind" name w := by
    intro name
    unfold keyIs
    rw [hkind']
  intro hhas
  unfold checkWorkload at hcheck
  rw [hfind] at hcheck
  dsimp only [asObject] at hcheck
  rw [hread "daemon", hkind, if_neg Bool.false_ne_true] at hcheck
  split at hcheck
  · -- a job
    rw [if_pos (.inl hhas)] at hcheck
    cases hcheck
  · rename_i hjob
    split at hcheck
    · rw [if_pos (.inl hhas)] at hcheck
      cases hcheck
    · rename_i hsession
      -- the schema knows three kinds
      have hnot : ∀ other, keyIs "kind" other w' = false → name ≠ other := by
        rintro other hother rfl
        rw [keyIs_iff.mpr hkindName] at hother
        cases hother
      have hcases : name = "daemon" ∨ name = "job" ∨ name = "session" := by
        simpa using hname
      obtain hcase | hcase | hcase := hcases
      · exact hnot "daemon" (hread "daemon" ▸ hkind) hcase
      · exact hnot "job" (Bool.eq_false_iff.mpr hjob) hcase
      · exact hnot "session" (Bool.eq_false_iff.mpr hsession) hcase

end NixNas.Spec
