import NixNas.Spec.Equality
import NixNas.Spec.Normalize

/-!
# Documents are trees of dictionaries

What the loader's tree is turned into has each key of a dictionary once, and the defaults keep that.
-/

open Fallible

namespace NixNas.Spec

variable {F : Type} {o o' : Object F} {value : Plain F} {key : String}
  {f : Object F → Except Malformed (Object F)}
variable {α : Type}

theorem dict_nil : Dict (.object ([] : Object F)) := ⟨.nil, trivial⟩

theorem Dict.of_find {key : Text} (h : Dict (.object o)) (hfind : find key o = some value) :
    Dict value :=
  dictEntries_iff.mp h.2 _ (mem_of_find hfind)

theorem keys_setItem {entries : List (Text × α)} (key : Text) (value : α)
    (h : (entries.map Prod.fst).Nodup) : ((setItem entries key value).map Prod.fst).Nodup := by
  unfold setItem
  split
  · have hkeys : (entries.map fun e ↦ if e.1 = key then (key, value) else e).map Prod.fst =
        entries.map Prod.fst := by
      rw [List.map_map]
      refine List.map_congr_left fun e _ => ?_
      show (if e.1 = key then (key, value) else e).1 = e.1
      split
      · rename_i heq
        exact heq.symm
      · rfl
    rwa [hkeys]
  · rename_i hnew
    rw [List.map_append, List.nodup_append]
    refine ⟨h, List.pairwise_singleton _ _, fun a ha b hb heq => hnew ?_⟩
    obtain rfl := List.mem_singleton.mp hb
    exact heq ▸ ha

theorem Dict.setItem (h : Dict (.object o)) (key : Text) (hvalue : Dict value) :
    Dict (.object (setItem o key value)) := by
  refine ⟨keys_setItem key value h.1, dictEntries_iff.mpr fun e he => ?_⟩
  unfold Spec.setItem at he
  split at he
  · obtain ⟨d, hd, rfl⟩ := List.mem_map.mp he
    split
    · exact hvalue
    · exact dictEntries_iff.mp h.2 d hd
  · obtain he | he := List.mem_append.mp he
    · exact dictEntries_iff.mp h.2 e he
    · obtain rfl := List.mem_singleton.mp he
      exact hvalue

theorem Dict.setDefault (h : Dict (.object o)) (key : String) (value : Plain F)
    (hvalue : Dict value) : Dict (.object (setDefault key value o)) := by
  unfold Spec.setDefault
  split
  · exact h
  · rename_i hnew
    have hset := h.setItem key.toList hvalue
    rwa [Spec.setItem, if_neg fun hmem => hnew (has_iff_mem.mpr hmem)] at hset

section Plain

variable (repr : F → Text)

theorem dict_plainScalar {a : Scalar F} (h : plainScalar a = .ok value) : Dict value := by
  cases a <;> cases h <;> trivial

mutual

theorem dict_plainBounded : ∀ (tree : Tree F) {path : List PathPart} {depth count n : Nat}
    {value : Plain F}, plainBounded repr path depth count tree = .ok (value, n) → Dict value
  | .scalar a, _, _, _, _, _, h => by
    rw [plainBounded] at h
    obtain ⟨_, -, h⟩ := bind_ok h
    obtain ⟨plain, hplain, h⟩ := bind_ok h
    cases h
    exact dict_plainScalar hplain
  | .sequence items, _, _, _, _, _, h => by
    rw [plainBounded] at h
    obtain ⟨_, -, h⟩ := bind_ok h
    obtain ⟨⟨plains, _⟩, hplains, h⟩ := bind_ok h
    cases h
    exact dict_plainItems items hplains
  | .mapping entries, _, _, _, _, _, h => by
    rw [plainBounded] at h
    obtain ⟨_, -, h⟩ := bind_ok h
    obtain ⟨⟨plains, _⟩, hplains, h⟩ := bind_ok h
    cases h
    exact dict_plainEntries entries dict_nil hplains

theorem dict_plainItems : ∀ (items : List (Tree F)) {path : List PathPart}
    {depth count index n : Nat} {plains : List (Plain F)},
    plainItems repr path depth count index items = .ok (plains, n) → DictItems plains
  | [], _, _, _, _, _, _, h => by
    rw [plainItems] at h
    cases h
    trivial
  | item :: items, _, _, _, _, _, _, h => by
    rw [plainItems] at h
    obtain ⟨⟨plain, _⟩, hplain, h⟩ := bind_ok h
    obtain ⟨⟨plains, _⟩, hplains, h⟩ := bind_ok h
    cases h
    exact ⟨dict_plainBounded item hplain, dict_plainItems items hplains⟩

theorem dict_plainEntries : ∀ (entries : List (Key F × Tree F)) {path : List PathPart}
    {depth count n : Nat} {dict plains : Object F}, Dict (.object dict) →
    plainEntries repr path depth count dict entries = .ok (plains, n) → Dict (.object plains)
  | [], _, _, _, _, _, _, hdict, h => by
    rw [plainEntries] at h
    cases h
    exact hdict
  | (key, item) :: entries, _, _, _, _, _, _, hdict, h => by
    rw [plainEntries] at h
    obtain ⟨⟨plain, _⟩, hplain, h⟩ := bind_ok h
    exact dict_plainEntries entries (hdict.setItem _ (dict_plainBounded item hplain)) h

end

theorem dict_parseLoaded {tree : Tree F} (h : parseLoaded repr tree = .ok o) :
    Dict (.object o) := by
  unfold parseLoaded at h
  split at h
  · cases h
  · obtain ⟨value, hvalue, h⟩ := bind_ok h
    obtain ⟨⟨plain, n⟩, hplain, rfl⟩ := map_ok hvalue
    split at h
    · cases h
      rename_i heq
      exact heq ▸ dict_plainBounded repr tree hplain
    · cases h

end Plain

/-- The pass keeps dictionaries. -/
def Keeps (f : Object F → Except Malformed (Object F)) : Prop :=
  ∀ o o', f o = .ok o' → Dict (.object o) → Dict (.object o')

theorem Dict.onKey (h : Dict (.object o)) (hpass : onKey key f o = .ok o') (hf : Keeps f) :
    Dict (.object o') := by
  obtain ⟨v, v', hfind, hv, rfl⟩ := onKey_ok hpass
  exact h.setItem _ (hf v v' hv (h.of_find hfind))

theorem Dict.onItems (h : Dict (.object o)) (hpass : onItems key f o = .ok o') (hf : Keeps f) :
    Dict (.object o') := by
  obtain rfl | ⟨items, items', hfind, hmap, rfl⟩ := onItems_ok hpass
  · exact h
  · have hitems : DictItems items := h.of_find hfind
    refine h.setItem _ (dictItems_iff.mpr fun item' hitem' => ?_)
    obtain ⟨item, hitem, hpass⟩ := exists_left (mapM_ok hmap) hitem'
    cases item with
    | scalar => cases hpass
    | array => cases hpass
    | object v =>
      obtain ⟨v', hv', rfl⟩ := map_ok hpass
      exact hf v v' hv' (dictItems_iff.mp hitems _ hitem)

theorem keys_onValue {entries entries' : Object F}
    (h : List.Forall₂ (fun e e' ↦ onValue f e = .ok e') entries entries') :
    entries'.map Prod.fst = entries.map Prod.fst := by
  induction h with
  | nil => rfl
  | cons hvalue _ ih =>
    obtain ⟨_, _, -, -, heq⟩ := onValue_ok hvalue
    rw [List.map_cons, List.map_cons, ih, heq]

theorem Dict.onValues (h : Dict (.object o)) (hpass : onValues key f o = .ok o') (hf : Keeps f) :
    Dict (.object o') := by
  obtain ⟨entries, entries', hfind, hmap, rfl⟩ := onValues_ok hpass
  have hentries : Dict (.object entries) := h.of_find hfind
  have hpairs := mapM_ok hmap
  refine h.setItem _ ⟨?_, dictEntries_iff.mpr fun e' he' => ?_⟩
  · rw [keys_onValue hpairs]
    exact hentries.1
  · obtain ⟨e, he, hvalue⟩ := exists_left hpairs he'
    obtain ⟨v, v', heq, hv, rfl⟩ := onValue_ok hvalue
    have hv' := dictEntries_iff.mp hentries.2 e he
    rw [heq] at hv'
    exact hf v v' hv hv'

theorem keeps_ok {g : Object F → Object F} (hg : ∀ o, Dict (.object o) → Dict (.object (g o))) :
    Keeps fun o ↦ .ok (g o) := by
  rintro o _ ⟨⟩ h
  exact hg o h

theorem keeps_setDefault (key : String) (hvalue : Dict value) :
    Keeps fun o : Object F ↦ .ok (setDefault key value o) :=
  keeps_ok fun _ h => h.setDefault key value hvalue

theorem keeps_normalizeNetwork : Keeps (normalizeNetwork (F := F)) := by
  intro o o' hpass h
  have hdefaults := (((h.setDefault "mode" (text "host") trivial).setDefault "outboundDefault"
    (text "allow") trivial).setDefault "lanAccess" (boolean false) trivial).setDefault
    "allowedHostPorts" (.array []) trivial
  exact (hdefaults.setDefault "allowedEgress" (.array []) trivial).onItems hpass
    (keeps_setDefault "ports" trivial)

theorem dict_singleton (key : Text) (hvalue : Dict value) : Dict (.object [(key, value)]) :=
  ⟨List.pairwise_singleton _ _, hvalue, trivial⟩

theorem keeps_normalizeIdentity : Keeps (normalizeIdentity (F := F)) := by
  intro o o' hpass h
  obtain ⟨s, hidentity, hpass⟩ := bind_ok hpass
  cases hpass
  have hdefaults := (h.setDefault "environment" (.object []) dict_nil).setDefault "identity"
    (.object [("mode".toList, text "dynamic")]) (dict_singleton _ trivial)
  exact (hdefaults.onKey hidentity (keeps_setDefault "mode" trivial)).setDefault "restart"
    (text "on-failure") trivial

theorem keeps_normalizeRuntime : Keeps (normalizeRuntime (F := F)) := by
  intro o o' hpass h
  obtain ⟨runtimeType, -, hpass⟩ := bind_ok hpass
  split at hpass
  · exact keeps_normalizeIdentity _ _ hpass h
  split at hpass
  · obtain ⟨s, hdependencies, hpass⟩ := bind_ok hpass
    obtain ⟨s', hidentity, hpass⟩ := bind_ok hpass
    have hdefaults := (h.setDefault "interpreter"
      (text "/run/current-system/sw/bin/python3") trivial).setDefault "dependencies" (.object [])
      dict_nil
    have hidentified := keeps_normalizeIdentity _ _ hidentity
      (hdefaults.onKey hdependencies (keeps_setDefault "requireHashes" trivial))
    exact hidentified.onKey hpass (keeps_setDefault "args" trivial)
  split at hpass
  · cases hpass
    exact (h.setDefault "command" (.array []) trivial).setDefault "pull" (text "missing") trivial
  · cases hpass
    exact h

theorem keeps_normalizeSandbox (generatedRuntime : Bool) :
    Keeps (normalizeSandbox (F := F) generatedRuntime) := by
  intro o o' hpass h
  obtain ⟨mode, -, hpass⟩ := bind_ok hpass
  have hmode := h.setDefault "mode" (text (if generatedRuntime then "strict" else "inherit")) trivial
  split at hpass
  · cases hpass
    exact (((((hmode.setDefault "readOnlyRoot" (boolean true) trivial).setDefault "writablePaths"
      (.array []) trivial).setDefault "tmpfs" (.array []) trivial).setDefault "addCapabilities"
      (.array []) trivial).setDefault "dropCapabilities" (.array []) trivial).setDefault
      "noNewPrivileges" (boolean true) trivial
  · cases hpass
    exact hmode

theorem keeps_normalizeFiles : Keeps (normalizeFiles (F := F)) := by
  intro o o' hpass h
  unfold normalizeFiles at hpass
  split at hpass
  · exact h.onItems hpass (keeps_ok fun _ h => ((h.setDefault "delivery" (text "generation")
      trivial).setDefault "mode" (text "0444") trivial).setDefault "onChange" (text "restart")
      trivial)
  · cases hpass
    exact h

theorem keeps_normalizeHead : Keeps (normalizeHead (F := F)) := by
  intro o o' hpass h
  obtain ⟨s₁, hauthorization, hpass⟩ := bind_ok hpass
  obtain ⟨s₂, hresources, hpass⟩ := bind_ok hpass
  obtain ⟨runtime, -, hpass⟩ := bind_ok hpass
  obtain ⟨runtimeType, -, hpass⟩ := bind_ok hpass
  obtain ⟨generatedRuntime, -, hpass⟩ := bind_ok hpass
  obtain ⟨s₃, hsandbox, hpass⟩ := bind_ok hpass
  obtain ⟨s₄, hfiles, hpass⟩ := bind_ok hpass
  cases hpass
  have hdefaults := ((((h.setDefault "enabled" (boolean true) trivial).setDefault "managed"
    (boolean true) trivial).setDefault "dependencies" (.array []) trivial).setDefault
    "requiresCapabilities" (.array []) trivial).setDefault "authorization"
    (.object [("capabilities".toList, .array [])]) (dict_singleton _ trivial)
  have h₁ := hdefaults.onKey hauthorization (keeps_setDefault "capabilities" trivial)
  have h₂ := (h₁.setDefault "resources" (.object []) dict_nil).onKey hresources
    (keeps_setDefault "accelerators" trivial)
  have h₃ := (h₂.setDefault "sandbox" (.object []) dict_nil).onKey hsandbox
    (keeps_normalizeSandbox generatedRuntime)
  have h₄ := keeps_normalizeFiles _ _ hfiles ((h₃.setDefault "storage" (.array [])
    trivial).setDefault "credentials" (.array []) trivial)
  exact (h₄.setDefault "routes" (.object []) dict_nil).setDefault "listeners" (.object []) dict_nil

theorem keeps_normalizeWorkload : Keeps (normalizeWorkload (F := F)) := by
  intro o o' hpass h
  obtain ⟨kind, -, hpass⟩ := bind_ok hpass
  split at hpass
  · cases hpass
    exact h.setDefault "activation" (text "persistent") trivial
  split at hpass
  · exact (h.setDefault "schedules" (.array []) trivial).onItems hpass (keeps_ok fun _ h =>
      (h.setDefault "randomizedDelaySeconds" (number 0) trivial).setDefault "persistent"
        (boolean true) trivial)
  · cases hpass
    exact h

theorem keeps_normalizeProbe : Keeps (normalizeProbe (F := F)) := by
  intro o o' hpass h
  obtain ⟨probeType, -, hpass⟩ := bind_ok hpass
  split at hpass
  · cases hpass
    exact h.setDefault "host" (text "127.0.0.1") trivial
  split at hpass
  · cases hpass
    exact (h.setDefault "acceptStatusMin" (number 200) trivial).setDefault "acceptStatusMax"
      (number 399) trivial
  · cases hpass
    exact h

theorem keeps_normalizeReadiness : Keeps (normalizeReadiness (F := F)) := by
  intro o o' hpass h
  unfold normalizeReadiness at hpass
  split at hpass
  · refine h.onKey hpass fun readiness readiness' hpass h => ?_
    exact ((h.setDefault "timeoutSeconds" (number 60) trivial).setDefault "intervalMilliseconds"
      (number 500) trivial).onItems hpass keeps_normalizeProbe
  · cases hpass
    exact h

theorem keeps_normalizeServiceNetwork (workload : Object F) :
    Keeps (normalizeServiceNetwork workload) := by
  intro o o' hpass h
  unfold normalizeServiceNetwork at hpass
  split at hpass
  · exact h.onKey hpass keeps_normalizeNetwork
  split at hpass
  · refine (h.setDefault "network" (.object []) dict_nil).onKey hpass fun policy policy' hpass h => ?_
    exact keeps_normalizeNetwork _ _ hpass ((h.setDefault "mode" (text "isolated")
      trivial).setDefault "outboundDefault" (text "deny") trivial)
  · cases hpass
    exact h

theorem Dict.normalizeAccelerator (h : Dict (.object o)) :
    Dict (.object (normalizeAccelerator o)) :=
  (((h.setDefault "vendor" (text "any") trivial).setDefault "quantity" (number 1)
    trivial).setDefault "required" (boolean false) trivial).setDefault "mode" (text "shared") trivial

theorem Dict.normalizeProxy (h : Dict (.object o)) : Dict (.object (normalizeProxy o)) :=
  ((((h.setDefault "requestHeaders" (.object []) dict_nil).setDefault "removeRequestHeaders"
    (.array []) trivial).setDefault "responseHeaders" (.object []) dict_nil).setDefault
    "trustedIdentityHeaders" (.array []) trivial).setDefault "requireHeaders" (.object []) dict_nil

theorem keeps_onCondition {read : Object F → Except Malformed α} {p : α → Bool}
    (key : String) (value : Plain F) (hvalue : Dict value) :
    Keeps fun o ↦ read o >>= fun a ↦ .ok (if p a then setDefault key value o else o) := by
  intro o o' hpass h
  obtain ⟨a, -, hpass⟩ := bind_ok hpass
  cases hpass
  split
  · exact h.setDefault key value hvalue
  · exact h

theorem keeps_normalizeRoute : Keeps (normalizeRoute (F := F)) := by
  intro o o' hpass h
  obtain ⟨s₁, hproxy, hpass⟩ := bind_ok hpass
  obtain ⟨s₂, hportal, hpass⟩ := bind_ok hpass
  obtain ⟨s₃, hauth, hpass⟩ := bind_ok hpass
  obtain ⟨s₄, htarget, hpass⟩ := bind_ok hpass
  have h₁ := (h.setDefault "proxy" (.object []) dict_nil).onKey hproxy
    (keeps_ok fun _ h => h.normalizeProxy)
  have h₂ := (h₁.setDefault "portal" (.object []) dict_nil).onKey hportal (keeps_ok fun _ h =>
    (h.setDefault "visible" (boolean false) trivial).setDefault "order" (number 0) trivial)
  have h₃ := h₂.onKey hauth (keeps_onCondition "capability" (text "access") trivial)
  have h₄ := h₃.onKey htarget fun target target' hpass h => by
    obtain ⟨targetType, -, hpass⟩ := bind_ok hpass
    obtain ⟨isHttp, -, hpass⟩ := bind_ok hpass
    cases hpass
    split
    · exact h.setDefault "host" (text "127.0.0.1") trivial
    · exact h
  exact h₄.onKey hpass (keeps_onCondition "path" (text "/") trivial)

theorem keeps_normalizeTail : Keeps (normalizeTail (F := F)) := by
  intro o o' hpass h
  obtain ⟨s₁, hdependencies, hpass⟩ := bind_ok hpass
  obtain ⟨s₂, hstorage, hpass⟩ := bind_ok hpass
  obtain ⟨s₃, hresources, hpass⟩ := bind_ok hpass
  obtain ⟨s₄, hroutes, hpass⟩ := bind_ok hpass
  have h₁ := h.onItems hdependencies (keeps_setDefault "condition" trivial)
  have h₂ := h₁.onItems hstorage (keeps_setDefault "access" trivial)
  have h₃ := h₂.onKey hresources fun resources resources' hpass h =>
    h.onItems hpass (keeps_ok fun _ h => h.normalizeAccelerator)
  exact (h₃.onValues hroutes keeps_normalizeRoute).onValues hpass
    (keeps_setDefault "firewall" trivial)

theorem keeps_normalizeService : Keeps (normalizeService (F := F)) := by
  intro o o' hpass h
  obtain ⟨s₁, hhead, hpass⟩ := bind_ok hpass
  obtain ⟨s₂, hworkload, hpass⟩ := bind_ok hpass
  obtain ⟨s₃, hruntime, hpass⟩ := bind_ok hpass
  obtain ⟨s₄, hreadiness, hpass⟩ := bind_ok hpass
  obtain ⟨workload, -, hpass⟩ := bind_ok hpass
  obtain ⟨s₅, hnetwork, hpass⟩ := bind_ok hpass
  have h₂ := (keeps_normalizeHead _ _ hhead h).onKey hworkload keeps_normalizeWorkload
  have h₄ := keeps_normalizeReadiness _ _ hreadiness (h₂.onKey hruntime keeps_normalizeRuntime)
  exact keeps_normalizeTail _ _ hpass (keeps_normalizeServiceNetwork workload _ _ hnetwork h₄)

theorem Dict.asObject {value : Option (Plain F)} (h : ∀ v, value = some v → Dict v) :
    Dict (.object (asObject value)) := by
  unfold Spec.asObject
  split
  · exact h _ rfl
  · exact dict_nil

theorem Dict.normalizeBackup (h : Dict (.object o)) : Dict (.object (normalizeBackup o)) := by
  have hbackup : Dict (.object (Spec.asObject (find "backup".toList o))) :=
    .asObject fun _ hfind => h.of_find hfind
  have hremote : Dict (.object (Spec.asObject (find "remote".toList
      (Spec.asObject (find "backup".toList o))))) := .asObject fun _ hfind => hbackup.of_find hfind
  have hdefaults := (((hremote.setDefault "provider" (text "local") trivial).setDefault "scope"
    (text "config-only") trivial).setDefault "rcloneRemote" (text "") trivial).setDefault
    "rcloneConfigFile" (text "") trivial
  exact h.setItem _ (hbackup.setItem _ hdefaults)

theorem keeps_normalizeResource : Keeps (normalizeResource (F := F)) := by
  intro o o' hpass h
  obtain ⟨s, hbackup, hpass⟩ := bind_ok hpass
  have hdefaults := ((h.setDefault "scope" (text "system") trivial).setDefault "capabilities"
    (.array [text "read"]) ⟨trivial, trivial⟩).setDefault "backup"
    (.object [("enabled".toList, boolean false), ("consistency".toList, text "filesystem")])
    ⟨by simp, trivial, trivial, trivial⟩
  have h₁ := hdefaults.onKey hbackup (keeps_ok fun _ h =>
    (h.setDefault "enabled" (boolean false) trivial).setDefault "consistency" (text "filesystem")
      trivial)
  exact (h₁.setDefault "fileBrowser" (.object [("visible".toList, boolean false)])
    (dict_singleton _ trivial)).onKey hpass (keeps_setDefault "visible" trivial)

theorem keeps_normalize : Keeps (normalize (F := F)) := by
  intro o o' hpass h
  obtain ⟨r₁, hresources, hpass⟩ := bind_ok hpass
  obtain ⟨r₂, hcredentials, hpass⟩ := bind_ok hpass
  obtain ⟨r₃, hprofiles, hpass⟩ := bind_ok hpass
  have hdefaults := (((h.setDefault "generation" (number 1) trivial).setDefault "storageResources"
    (.object []) dict_nil).setDefault "credentials" (.object []) dict_nil).setDefault
    "networkProfiles" (.object []) dict_nil
  have h₁ := hdefaults.normalizeBackup.onValues hresources keeps_normalizeResource
  have h₂ := h₁.onValues hcredentials (keeps_setDefault "required" trivial)
  exact (h₂.onValues hprofiles keeps_normalizeNetwork).onValues hpass keeps_normalizeService

end NixNas.Spec
