import NixNas.Identity.ProxyApplication
import NixNas.Lib.Association

/-!
# The snapshots of a proxy application

What a listing shows of the provider, the application and the outpost is enough to take back every
field that the call writes.
-/

open Fallible Journal

namespace NixNas.Identity

open Spec

variable {F : Type}
variable {restore : Object F} {record : Record F}

/-! ## Records -/

theorem lookup_patch (body : Object F) (record : Record F) (key : Text) :
    (record.patch body).lookup key = (find key body).or (record.lookup key) := by
  induction body with
  | nil => rfl
  | cons field body ih =>
    show ((record.patch body).insert field.1 field.2).lookup key = _
    rw [find_cons]
    by_cases h : key = field.1
    · rw [if_pos h, h, Finmap.lookup_insert]
      rfl
    · rw [if_neg h, Finmap.lookup_insert_of_ne _ h, ih]

theorem patch_restore (payload : Object F)
    (hkeys : ∀ key, find key restore = none → find key payload = none)
    (hvalues : ∀ key value, find key restore = some value → record.lookup key = some value) :
    (record.patch payload).patch restore = record := by
  apply Finmap.ext_lookup
  intro key
  rw [lookup_patch, lookup_patch]
  cases hrestore : find key restore with
  | some value => exact (hvalues key value hrestore).symm
  | none =>
    rw [hkeys key hrestore]
    rfl

theorem find_map (f : Text → Plain F → Plain F) (o : Object F) (key : Text) :
    find key (o.map fun field ↦ (field.1, f field.1 field.2)) = (find key o).map (f key) := by
  induction o with
  | nil => rfl
  | cons field o ih =>
    rw [List.map_cons, find_cons, find_cons, ih]
    by_cases h : key = field.1
    · rw [if_pos h, if_pos h, h]
      rfl
    · rw [if_neg h, if_neg h]

theorem mem_keys_of_find {o : Object F} {key : Text} {value : Plain F}
    (h : find key o = some value) : key ∈ o.map Prod.fst :=
  List.mem_map_of_mem (mem_of_find h)

theorem providerRestore_spec {payload : Object F}
    (h : Arguments.providerRestore payload record = .ok restore) :
    (record.patch payload).patch restore = record ∧ record.patch restore = record := by
  unfold Arguments.providerRestore at h
  dsimp only at h
  split at h
  swap
  · cases h
  rename_i hmissing
  cases h
  have hpresent : ∀ key ∈ payload.map Prod.fst, key ∈ record := by
    intro key hkey
    by_contra hnot
    have hin : key ∈ (payload.map Prod.fst).filter (· ∉ record) :=
      List.mem_filter.mpr ⟨hkey, decide_eq_true hnot⟩
    rw [hmissing] at hin
    cases hin
  have hfind : ∀ key, find key (payload.map fun field ↦
      (field.1, (record.lookup field.1).getD null)) =
        (find key payload).map fun _ ↦ (record.lookup key).getD null :=
    find_map (fun key _ ↦ (record.lookup key).getD null) payload
  have hvalues : ∀ key value, find key (payload.map fun field ↦
      (field.1, (record.lookup field.1).getD null)) = some value →
        record.lookup key = some value := by
    intro key value hvalue
    rw [hfind, Option.map_eq_some_iff] at hvalue
    obtain ⟨desired, hdesired, rfl⟩ := hvalue
    obtain ⟨old, hold⟩ := Finmap.mem_iff.mp (hpresent key (mem_keys_of_find hdesired))
    rw [hold]
    rfl
  constructor
  · apply patch_restore payload ?_ hvalues
    intro key hnone
    rw [hfind, Option.map_eq_none_iff] at hnone
    exact hnone
  · exact patch_restore [] (fun _ _ => rfl) hvalues

section Template

variable (a : Arguments F)
variable {fields o : Object F} {key : Text}

theorem find_foldl_setItem (h : key ∉ fields.map Prod.fst) :
    find key (fields.foldl (fun o field ↦ setItem o field.1 field.2) o) = find key o := by
  induction fields generalizing o with
  | nil => rfl
  | cons field fields ih =>
    rw [List.map_cons, List.mem_cons, not_or] at h
    rw [List.foldl_cons, ih h.2, find_setItem, if_neg h.1]

theorem find_of_foldl_setItem
    (h : find key (fields.foldl (fun o field ↦ setItem o field.1 field.2) o) = none) :
    find key o = none := by
  induction fields generalizing o with
  | nil => exact h
  | cons field fields ih =>
    have hset := ih h
    rw [find_setItem] at hset
    split at hset
    · cases hset
    · exact hset

def applicationPayload (provider : Plain F) : Object F :=
  setItem a.applicationTemplate "provider".toList provider

variable {a}

theorem find_slug (hslug : "slug".toList ∉ a.applicationMetadata.map Prod.fst) (provider : Plain F) :
    find "slug".toList (applicationPayload a provider) = some (string a.applicationSlug) := by
  unfold applicationPayload
  rw [find_setItem, if_neg (by decide)]
  unfold Arguments.applicationTemplate
  rw [find_foldl_setItem hslug]
  rfl

/-- The snapshot of an application that shows every field takes every payload back. -/
theorem applicationRestore_spec {record : Record F}
    (hrecord : record.lookup "slug".toList = some (string a.applicationSlug))
    (hshows : ∀ key ∈ a.applicationTemplate.map Prod.fst, key ∈ record) :
    (∀ provider, (record.patch (applicationPayload a provider)).patch (a.applicationRestore record) =
      record) ∧ record.patch (a.applicationRestore record) = record := by
  have hfind : ∀ key, find key (a.applicationRestore record) =
      (find key a.applicationTemplate).map (a.restoredValue record key) :=
    find_map (a.restoredValue record) a.applicationTemplate
  have hvalues : ∀ key value, find key (a.applicationRestore record) = some value →
      record.lookup key = some value := by
    intro key value hvalue
    rw [hfind, Option.map_eq_some_iff] at hvalue
    obtain ⟨desired, hdesired, rfl⟩ := hvalue
    obtain ⟨old, hold⟩ := Finmap.mem_iff.mp (hshows key (mem_keys_of_find hdesired))
    -- The slug is the only field that is not read back.
    have hread : a.restoredValue record key desired = old := by
      unfold Arguments.restoredValue
      rw [hold]
      split
      · rfl
      split
      · rename_i hkey
        rw [hkey, hrecord] at hold
        exact Option.some_inj.mp hold
      · rw [Option.getD_some, Option.getD_some, ite_self]
    rw [hread, hold]
  constructor
  · intro provider
    apply patch_restore _ ?_ hvalues
    intro key hnone
    rw [hfind, Option.map_eq_none_iff] at hnone
    unfold applicationPayload
    rw [find_setItem, if_neg, hnone]
    rintro rfl
    unfold Arguments.applicationTemplate at hnone
    have hprovider := find_of_foldl_setItem hnone
    cases hprovider
  · exact patch_restore [] (fun _ _ => rfl) hvalues

end Template

/-! ## What the call relies on -/

/-- The references of the server hold. -/
structure Consistent (server : Server F) : Prop where
  slugs : ∀ slug record, server.applications.lookup slug = some record →
    record.lookup "slug".toList = some (string slug)
  pointers : ∀ slug record pk, server.applications.lookup slug = some record →
    record.pointsTo pk = true → pk ∈ server.providers
  known : ∀ pk outpost, server.outposts.lookup pk = some outpost →
    ∀ provider ∈ outpost.providers, provider ∈ server.providers
  nodup : ∀ pk outpost, server.outposts.lookup pk = some outpost → outpost.providers.Nodup

def ShowsApplication (a : Arguments F) (server : Server F) : Prop :=
  ∀ record, server.applications.lookup a.applicationSlug = some record →
    ∀ key ∈ a.applicationTemplate.map Prod.fst, key ∈ record

structure Undoable (env : Environment F) : Prop where
  applicationDiscovery : env.applicationDiscovery = true
  providerDiscovery : env.providerDiscovery = true
  outpost : env.outpostRollback.succeeds = true
  application : env.applicationRollback.succeeds = true
  provider : env.providerRollback.succeeds = true

/-! ## Listings -/

section Listings

variable {K V : Type} [DecidableEq K] {order : Listing K V} {store : Store K V} {p : V → Bool} {k : K}
  {v : V}

theorem lookup_of_find (h : (order.entries store).find? (fun entry ↦ p entry.2) = some (k, v)) :
    store.lookup k = some v ∧ p v = true := by
  have hp := @List.find?_some (K × V) (fun entry ↦ p entry.2) (k, v) (order.entries store) h
  exact ⟨(order.mem_entries store k v).mp (List.mem_of_find?_eq_some h), hp⟩

theorem not_of_find_none (h : (order.entries store).find? (fun entry ↦ p entry.2) = none)
    (hlookup : store.lookup k = some v) : p v = false := by
  rw [List.find?_eq_none] at h
  have hnot := h (k, v) ((order.mem_entries store k v).mpr hlookup)
  exact Bool.eq_false_iff.mpr hnot

theorem find_insert (hnone : ∀ k v, store.lookup k = some v → p v = false) (hv : p v = true) :
    (order.entries (store.insert k v)).find? (fun entry ↦ p entry.2) = some (k, v) := by
  cases hfound : (order.entries (store.insert k v)).find? (fun entry ↦ p entry.2) with
  | none =>
    have hnot := not_of_find_none hfound (Finmap.lookup_insert (a := k) (b := v) store)
    rw [hv] at hnot
    cases hnot
  | some entry =>
    obtain ⟨hlookup, hp⟩ := lookup_of_find hfound
    by_cases hkey : entry.1 = k
    · rw [hkey, Finmap.lookup_insert] at hlookup
      rw [Option.some_inj.mp hlookup, ← hkey]
    · rw [Finmap.lookup_insert_of_ne _ hkey] at hlookup
      rw [hnone _ _ hlookup] at hp
      cases hp

end Listings

/-! ## What is staged -/

section

variable {env : Environment F} {a : Arguments F} {server : Server F} {staged : Staged F}
variable {key : String} {value : Text}

theorem lookup_slug_of_fieldIs
    (h : fieldIs key value record = true) : record.lookup key.toList = some (string value) := by
  unfold fieldIs at h
  split at h
  · rename_i t ht
    rw [ht, of_decide_eq_true h]
    rfl
  · cases h

theorem fieldIs_of_lookup
    (h : record.lookup key.toList = some (string value)) : fieldIs key value record = true := by
  unfold fieldIs
  rw [h]
  exact decide_eq_true rfl

structure Snapshot (env : Environment F) (a : Arguments F) (server : Server F) (staged : Staged F) :
    Prop where
  provider : ∀ pk restore, staged.provider = some (pk, restore) →
    ∃ record, server.providers.lookup pk = some record ∧ fieldIs "name" a.providerName record = true ∧
      (record.patch staged.payload).patch restore = record ∧ record.patch restore = record
  noProvider : staged.provider = none →
    ∀ pk record, server.providers.lookup pk = some record → fieldIs "name" a.providerName record = false
  application : ∀ restore, staged.application = some restore →
    ∃ record, server.applications.lookup a.applicationSlug = some record ∧
      (∀ provider, (record.patch (applicationPayload a provider)).patch restore = record) ∧
      record.patch restore = record
  noApplication : staged.application = none →
    server.applications.lookup a.applicationSlug = none
  outpost : server.outposts.lookup staged.outpostPk = some staged.outpost
  managed : staged.outpost.managed = some embedded
  name : find "name".toList staged.payload = some (string a.providerName)

theorem providerPayload_name {payload : Object F} (h : a.providerPayload = .ok payload) :
    find "name".toList payload = some (string a.providerName) := by
  unfold Arguments.providerPayload at h
  obtain ⟨flows, -, h⟩ := bind_ok h
  cases h
  rfl

theorem snapshot_of_stage (hconsistent : Consistent server) (hshows : ShowsApplication a server)
    (h : stage env a server = .ok staged) : Snapshot env a server staged := by
  unfold stage at h
  obtain ⟨payload, hpayload, h⟩ := bind_ok h
  have hname := providerPayload_name hpayload
  split at h
  · cases h
  rename_i outpostPk outpost houtpost
  have hlookup : server.outposts.lookup outpostPk = some outpost := by
    unfold findOutpost at houtpost
    exact (env.outpostOrder.mem_entries _ _ _).mp (List.mem_of_find?_eq_some houtpost)
  have hmanaged : outpost.managed = some embedded := by
    unfold findOutpost at houtpost
    have hfound := List.find?_some houtpost
    exact of_decide_eq_true hfound
  -- The application is found under its slug and nowhere else.
  have happlication : ∀ restore,
      (findApplication env a server).map (fun entry ↦ a.applicationRestore entry.2) = some restore →
      ∃ record, server.applications.lookup a.applicationSlug = some record ∧
        (∀ provider, (record.patch (applicationPayload a provider)).patch restore = record) ∧
        record.patch restore = record := by
    intro restore hrestore
    obtain ⟨⟨slug, record⟩, hfound, rfl⟩ := Option.map_eq_some_iff.mp hrestore
    obtain ⟨hrecord, hfield⟩ := lookup_of_find hfound
    have hslug := lookup_slug_of_fieldIs hfield
    have hkey : slug = a.applicationSlug := by
      have hown := hconsistent.slugs slug record hrecord
      rw [hslug] at hown
      cases hown
      rfl
    rw [hkey] at hrecord
    exact ⟨record, hrecord, applicationRestore_spec hslug (hshows record hrecord)⟩
  have hnoApplication :
      (findApplication env a server).map (fun entry ↦ a.applicationRestore entry.2) = none →
      server.applications.lookup a.applicationSlug = none := by
    intro hnone
    rw [Option.map_eq_none_iff] at hnone
    cases hlookup : server.applications.lookup a.applicationSlug with
    | none => rfl
    | some record =>
      have hnot := not_of_find_none hnone hlookup
      rw [fieldIs_of_lookup (hconsistent.slugs _ _ hlookup)] at hnot
      cases hnot
  split at h
  · rename_i hprovider
    cases h
    exact ⟨nofun, fun _ pk record hrecord => not_of_find_none hprovider hrecord, happlication,
      hnoApplication, hlookup, hmanaged, hname⟩
  · rename_i pk record hprovider
    obtain ⟨restore, hrestore, h⟩ := bind_ok h
    cases h
    refine ⟨?_, nofun, happlication, hnoApplication, hlookup, hmanaged, hname⟩
    intro pk' restore' heq
    cases heq
    obtain ⟨hrecord, hfield⟩ := lookup_of_find hprovider
    exact ⟨record, hrecord, hfield, providerRestore_spec hrestore⟩

end

end NixNas.Identity
