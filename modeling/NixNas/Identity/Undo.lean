import NixNas.Identity.Snapshot

/-!
# The rollback of a proxy application

A request that fails leaves the server as it was or with the request carried out.  What the call
knows of it decides how each of the three objects is taken back.
-/

open Fallible Journal

namespace NixNas.Identity

open Spec

variable {F : Type} {env : Environment F} {a : Arguments F} {server : Server F} {staged : Staged F}
variable {outcome : Outcome} {request : Server F → Server F} {p p' : Progress F} {s t : Server F}
  {float : FloatEq F} {K V : Type} {store : Store K V} {k : K} {v : V} {pk : ℕ} {restore : Object F}

def newProvider (env : Environment F) (staged : Staged F) : Record F :=
  env.providerDefaults.patch staged.payload

def newApplication (env : Environment F) (a : Arguments F) (provider : Plain F) : Record F :=
  env.applicationDefaults.patch (applicationPayload a provider)

/-- Each object is as it was, or written with the flag set that takes it back. -/
structure Reached (env : Environment F) (a : Arguments F) (server : Server F) (staged : Staged F)
    (p : Progress F) : Prop where
  provider : ∀ pk restore, staged.provider = some (pk, restore) → p.providerPk = some pk ∧
    (p.server.providers = server.providers ∨ p.providerCommitted = true ∧
      p.server.providers = (server.patchProvider pk staged.payload).providers)
  noProvider : staged.provider = none →
    p.server.providers = server.providers ∧ p.providerCommitted = false ∨
    p.server.providers =
        server.providers.insert (env.newPk server.providers) (newProvider env staged) ∧
      (p.providerCommitted = true ∧ p.providerPk = some (env.newPk server.providers) ∨
        p.providerCommitted = false ∧ p.providerCreateAttempted = true)
  application : ∀ restore, staged.application = some restore →
    (p.applicationCommitted = true → p.applicationRestoreNeeded = true) ∧
    (p.server.applications = server.applications ∨ p.applicationRestoreNeeded = true ∧
      ∃ provider, p.server.applications = (server.patchApplication a.applicationSlug
        (applicationPayload a provider)).applications)
  noApplication : staged.application = none →
    p.server.applications = server.applications ∨
    (p.applicationCommitted = true ∨ p.applicationCreateAttempted = true) ∧
      ∃ provider, p.server.applications =
        server.applications.insert a.applicationSlug (newApplication env a provider)
  outpost : p.server.outposts = server.outposts ∨ p.outpostRestoreNeeded = true ∧
    ∃ providers config, (config.isSome = true → a.outpostConfigPatch.isSome = true) ∧
      p.server.outposts = (server.patchOutpost staged.outpostPk providers config).outposts

structure Untouched (server : Server F) (p : Progress F) : Prop where
  applications : p.server.applications = server.applications
  committed : p.applicationCommitted = false
  outposts : p.server.outposts = server.outposts

theorem carries_request {P : Progress F → Prop}
    (hkept : P p) (hdone : P { p with server := request p.server }) :
    Carries P (p.request outcome request) := by
  have hsend : P (p.send outcome request) := by
    unfold Progress.send
    split
    · exact hdone
    · exact hkept
  unfold Progress.request
  split
  · exact hsend
  · exact hsend

theorem reached_of_untouched (huntouched : Untouched server p)
    (hprovider : ∀ pk restore, staged.provider = some (pk, restore) → p.providerPk = some pk ∧
      (p.server.providers = server.providers ∨ p.providerCommitted = true ∧
        p.server.providers = (server.patchProvider pk staged.payload).providers))
    (hnoProvider : staged.provider = none →
      p.server.providers = server.providers ∧ p.providerCommitted = false ∨
      p.server.providers =
          server.providers.insert (env.newPk server.providers) (newProvider env staged) ∧
        (p.providerCommitted = true ∧ p.providerPk = some (env.newPk server.providers) ∨
          p.providerCommitted = false ∧ p.providerCreateAttempted = true)) :
    Reached env a server staged p where
  provider := hprovider
  noProvider := hnoProvider
  application _ _ := by
    refine ⟨fun hcommitted => ?_, .inl huntouched.applications⟩
    rw [huntouched.committed] at hcommitted
    cases hcommitted
  noApplication _ := .inl huntouched.applications
  outpost := .inl huntouched.outposts

def startOf (server : Server F) (staged : Staged F) : Progress F :=
  ⟨server, staged.provider.map Prod.fst, false, false, false, false, false, false⟩

theorem writeProvider_reached :
    Carries (fun p ↦ Reached env a server staged p ∧ Untouched server p)
      (writeProvider env staged (startOf server staged)) := by
  unfold writeProvider startOf
  cases hprovider : staged.provider with
  | some found =>
    obtain ⟨pk, restore⟩ := found
    dsimp only
    apply carries_request
    · refine ⟨reached_of_untouched ⟨rfl, rfl, rfl⟩ ?_ ?_, ⟨rfl, rfl, rfl⟩⟩
      · intro pk' restore' heq
        rw [hprovider] at heq
        cases heq
        exact ⟨rfl, .inl rfl⟩
      · intro hnone
        rw [hprovider] at hnone
        cases hnone
    · have huntouched : Untouched server
          { server := server.patchProvider pk staged.payload, providerPk := some pk,
            providerCommitted := true, providerCreateAttempted := false,
            applicationCommitted := false, applicationCreateAttempted := false,
            applicationRestoreNeeded := false, outpostRestoreNeeded := false : Progress F } :=
        ⟨server.patchProvider_applications .., rfl, server.patchProvider_outposts ..⟩
      refine ⟨reached_of_untouched huntouched ?_ ?_, huntouched⟩
      · intro pk' restore' heq
        rw [hprovider] at heq
        cases heq
        exact ⟨rfl, .inr ⟨rfl, rfl⟩⟩
      · intro hnone
        rw [hprovider] at hnone
        cases hnone
  | none =>
    have hno : ∀ pk restore, staged.provider = some (pk, restore) → False := by
      intro pk restore heq
      rw [hprovider] at heq
      cases heq
    have hkept : ∀ p : Progress F, Untouched server p → p.server.providers = server.providers →
        p.providerCommitted = false → Reached env a server staged p ∧ Untouched server p :=
      fun p huntouched hproviders hcommitted => ⟨reached_of_untouched huntouched
        (fun pk restore heq => (hno pk restore heq).elim)
        fun _ => .inl ⟨hproviders, hcommitted⟩, huntouched⟩
    have hmade : ∀ p : Progress F, Untouched server p → p.server.providers =
          server.providers.insert (env.newPk server.providers) (newProvider env staged) →
        (p.providerCommitted = true ∧ p.providerPk = some (env.newPk server.providers) ∨
          p.providerCommitted = false ∧ p.providerCreateAttempted = true) →
        Reached env a server staged p ∧ Untouched server p :=
      fun p huntouched hproviders hflags => ⟨reached_of_untouched huntouched
        (fun pk restore heq => (hno pk restore heq).elim)
        fun _ => .inr ⟨hproviders, hflags⟩, huntouched⟩
    dsimp only
    cases henv : env.provider with
    | replied => exact hmade _ ⟨rfl, rfl, rfl⟩ rfl (.inl ⟨rfl, rfl⟩)
    | unnamed applied =>
      cases applied with
      | true => exact hmade _ ⟨rfl, rfl, rfl⟩ rfl (.inr ⟨rfl, rfl⟩)
      | false => exact hkept _ ⟨rfl, rfl, rfl⟩ rfl rfl
    | raised applied =>
      cases applied with
      | true => exact hmade _ ⟨rfl, rfl, rfl⟩ rfl (.inr ⟨rfl, rfl⟩)
      | false => exact hkept _ ⟨rfl, rfl, rfl⟩ rfl rfl

/-- The progresses differ in nothing that is known of the provider. -/
structure SameProvider (p p' : Progress F) : Prop where
  providers : p'.server.providers = p.server.providers
  pk : p'.providerPk = p.providerPk
  committed : p'.providerCommitted = p.providerCommitted
  attempted : p'.providerCreateAttempted = p.providerCreateAttempted

theorem Reached.of_same (h : Reached env a server staged p) (hsame : SameProvider p p')
    (happlication : ∀ restore, staged.application = some restore →
      (p'.applicationCommitted = true → p'.applicationRestoreNeeded = true) ∧
      (p'.server.applications = server.applications ∨ p'.applicationRestoreNeeded = true ∧
        ∃ provider, p'.server.applications = (server.patchApplication a.applicationSlug
          (applicationPayload a provider)).applications))
    (hnoApplication : staged.application = none →
      p'.server.applications = server.applications ∨
      (p'.applicationCommitted = true ∨ p'.applicationCreateAttempted = true) ∧
        ∃ provider, p'.server.applications =
          server.applications.insert a.applicationSlug (newApplication env a provider))
    (houtpost : p'.server.outposts = server.outposts ∨ p'.outpostRestoreNeeded = true ∧
      ∃ providers config, (config.isSome = true → a.outpostConfigPatch.isSome = true) ∧
        p'.server.outposts = (server.patchOutpost staged.outpostPk providers config).outposts) :
    Reached env a server staged p' where
  provider := by
    rw [hsame.providers, hsame.pk, hsame.committed]
    exact h.provider
  noProvider := by
    rw [hsame.providers, hsame.pk, hsame.committed, hsame.attempted]
    exact h.noProvider
  application := happlication
  noApplication := hnoApplication
  outpost := houtpost

theorem patchApplication_congr (h : s.applications = t.applications) (slug : Text)
    (body : Object F) :
    (s.patchApplication slug body).applications = (t.patchApplication slug body).applications := by
  unfold Server.patchApplication
  rw [h]
  split <;> simp [h]

theorem patchOutpost_congr (h : s.outposts = t.outposts) (pk : Text)
    (providers : List ℕ) (config : Option (Record F)) :
    (s.patchOutpost pk providers config).outposts =
      (t.patchOutpost pk providers config).outposts := by
  unfold Server.patchOutpost
  rw [h]
  split <;> simp [h]

theorem writeApplication_reached (h : Reached env a server staged p)
    (huntouched : Untouched server p) :
    Carries (fun p ↦ Reached env a server staged p ∧ p.server.outposts = server.outposts)
      (writeApplication env a staged p) := by
  unfold writeApplication
  dsimp only
  cases happlication : staged.application with
  | some restore =>
    have hno : staged.application ≠ none := by
      rw [happlication]
      exact Option.some_ne_none restore
    have hall : ∀ p' : Progress F, SameProvider p p' → p'.server.outposts = server.outposts →
        p'.applicationRestoreNeeded = true →
        (p'.server.applications = server.applications ∨ ∃ provider, p'.server.applications =
          (server.patchApplication a.applicationSlug
            (applicationPayload a provider)).applications) →
        Reached env a server staged p' ∧ p'.server.outposts = server.outposts := by
      intro p' hsame houtposts hneeded happlications
      refine ⟨h.of_same hsame (fun _ _ => ⟨fun _ => hneeded, ?_⟩) (fun hnone => (hno hnone).elim)
        (.inl houtposts), houtposts⟩
      rcases happlications with hkept | hdone
      · exact .inl hkept
      · exact .inr ⟨hneeded, hdone⟩
    have hsent : (p.server.patchApplication a.applicationSlug (applicationPayload a
        (p.providerPk.elim null (number ·)))).applications = (server.patchApplication
          a.applicationSlug (applicationPayload a (p.providerPk.elim null (number ·)))).applications :=
      patchApplication_congr huntouched.applications _ _
    dsimp only
    apply Carries.bind_mono (P := fun p' ↦ SameProvider p p' ∧
      p'.server.outposts = server.outposts ∧ p'.applicationRestoreNeeded = true ∧
      (p'.server.applications = server.applications ∨ ∃ provider, p'.server.applications =
        (server.patchApplication a.applicationSlug (applicationPayload a provider)).applications))
    · apply carries_request
      · exact ⟨⟨rfl, rfl, rfl, rfl⟩, huntouched.outposts, rfl, .inl huntouched.applications⟩
      · refine ⟨⟨?_, rfl, rfl, rfl⟩, ?_, rfl, .inr ⟨_, hsent⟩⟩
        · exact p.server.patchApplication_providers ..
        · exact (p.server.patchApplication_outposts ..).trans huntouched.outposts
    · exact fun p' ⟨hsame, houtposts, hneeded, hor⟩ => hall p' hsame houtposts hneeded hor
    · intro p' ⟨hsame, houtposts, hneeded, hor⟩
      exact hall _ ⟨hsame.providers, hsame.pk, hsame.committed, hsame.attempted⟩ houtposts hneeded hor
  | none =>
    have hno : ∀ restore, staged.application = some restore → False := by
      intro restore heq
      rw [happlication] at heq
      cases heq
    have hall : ∀ p' : Progress F, SameProvider p p' → p'.server.outposts = server.outposts →
        (p'.server.applications = server.applications ∨
          (p'.applicationCommitted = true ∨ p'.applicationCreateAttempted = true) ∧
          ∃ provider, p'.server.applications =
            server.applications.insert a.applicationSlug (newApplication env a provider)) →
        Reached env a server staged p' ∧ p'.server.outposts = server.outposts := by
      intro p' hsame houtposts happlications
      exact ⟨h.of_same hsame (fun restore heq => (hno restore heq).elim) (fun _ => happlications)
        (.inl houtposts), houtposts⟩
    dsimp only
    apply Carries.bind_mono (P := fun p' ↦ SameProvider p p' ∧
      p'.server.outposts = server.outposts ∧
      (p'.server.applications = server.applications ∨
        p'.applicationCreateAttempted = true ∧ ∃ provider, p'.server.applications =
          server.applications.insert a.applicationSlug (newApplication env a provider)))
    · apply carries_request
      · exact ⟨⟨rfl, rfl, rfl, rfl⟩, huntouched.outposts, .inl huntouched.applications⟩
      · refine ⟨⟨rfl, rfl, rfl, rfl⟩, huntouched.outposts,
          .inr ⟨rfl, p.providerPk.elim null (number ·), ?_⟩⟩
        show p.server.applications.insert _ _ = _
        rw [huntouched.applications]
        rfl
    · rintro p' ⟨hsame, houtposts, hkept | ⟨hattempted, hdone⟩⟩
      · exact hall p' hsame houtposts (.inl hkept)
      · exact hall p' hsame houtposts (.inr ⟨.inr hattempted, hdone⟩)
    · rintro p' ⟨hsame, houtposts, hkept | ⟨-, hdone⟩⟩
      · exact hall _ ⟨hsame.providers, hsame.pk, hsame.committed, hsame.attempted⟩ houtposts
          (.inl hkept)
      · exact hall _ ⟨hsame.providers, hsame.pk, hsame.committed, hsame.attempted⟩ houtposts
          (.inr ⟨.inl rfl, hdone⟩)

theorem writeOutpost_reached
    (h : Reached env a server staged p) (houtposts : p.server.outposts = server.outposts) :
    Carries (Reached env a server staged) (writeOutpost env a staged float p) := by
  unfold writeOutpost
  dsimp only
  split
  · apply carries_request
    · exact h.of_same ⟨rfl, rfl, rfl, rfl⟩ h.application h.noApplication (.inl houtposts)
    · refine h.of_same ⟨?_, rfl, rfl, rfl⟩ ?_ ?_ (.inr ⟨rfl, staged.outpost.providers ++
        p.providerPk.toList.filter (· ∉ staged.outpost.providers), desiredConfig a staged, ?_, ?_⟩)
      · exact p.server.patchOutpost_providers ..
      · simpa using h.application
      · simpa using h.noApplication
      · unfold desiredConfig
        rw [Option.isSome_map]
        exact id
      · exact patchOutpost_congr houtposts _ _ _
  · exact h

theorem forward_reached :
    Carries (Reached env a server staged) (forward env a staged float server) := by
  unfold forward
  apply Carries.bind_mono writeProvider_reached
  · exact fun p h => h.1
  · intro p ⟨h, huntouched⟩
    apply Carries.bind_mono (writeApplication_reached h huntouched)
    · exact fun p h => h.1
    · exact fun p ⟨h, houtposts⟩ => writeOutpost_reached h houtposts

theorem insert_of_lookup [DecidableEq K]
    (h : store.lookup k = some v) : store.insert k v = store := by
  apply Finmap.ext_lookup
  intro j
  by_cases hj : j = k
  · rw [hj, Finmap.lookup_insert, h]
  · rw [Finmap.lookup_insert_of_ne _ hj]

theorem erase_insert [DecidableEq K]
    (h : store.lookup k = none) : (store.insert k v).erase k = store := by
  apply Finmap.ext_lookup
  intro j
  by_cases hj : j = k
  · rw [hj, Finmap.lookup_erase, h]
  · rw [Finmap.lookup_erase_ne hj, Finmap.lookup_insert_of_ne _ hj]

theorem erase_of_lookup [DecidableEq K] (h : store.lookup k = none) : store.erase k = store := by
  apply Finmap.ext_lookup
  intro j
  by_cases hj : j = k
  · rw [hj, Finmap.lookup_erase, h]
  · rw [Finmap.lookup_erase_ne hj]

theorem mapStore_eq_self [DecidableEq K] {f : K → V → V}
    (h : ∀ k v, store.lookup k = some v → f k v = v) : mapStore f store = store := by
  apply Finmap.ext_lookup
  intro k
  rw [lookup_mapStore]
  cases hlookup : store.lookup k with
  | none => rfl
  | some v =>
    show some (f k v) = some v
    rw [h k v hlookup]

theorem deleteProvider_fresh (hconsistent : Consistent server)
    (hfresh : pk ∉ server.providers) (happlications : s.applications = server.applications)
    (houtposts : s.outposts = server.outposts) :
    (s.deleteProvider pk).applications = server.applications ∧
      (s.deleteProvider pk).outposts = server.outposts := by
  constructor
  · unfold Server.deleteProvider
    dsimp only
    rw [happlications]
    apply mapStore_eq_self
    intro slug record hlookup
    rw [if_neg]
    exact fun hpoints => hfresh (hconsistent.pointers slug record pk hlookup hpoints)
  · unfold Server.deleteProvider
    dsimp only
    rw [houtposts]
    apply mapStore_eq_self
    intro outpostPk outpost hlookup
    have hfilter : outpost.providers.filter (· ≠ pk) = outpost.providers := by
      apply List.filter_eq_self.mpr
      intro provider hprovider
      apply decide_eq_true
      rintro rfl
      exact hfresh (hconsistent.known outpostPk outpost hlookup provider hprovider)
    rw [hfilter]

theorem compensate_of_succeeds {step : RollbackStep} {u : Undoing F} (h : outcome.succeeds = true) :
    compensate step outcome request u = ({ u.1 with server := request u.1.server }, u.2) := by
  unfold Outcome.succeeds at h
  rw [Bool.and_eq_true, Bool.not_eq_true'] at h
  unfold compensate Progress.send
  rw [if_pos h.1, h.2]
  rfl

/-- What is known after the discovery: an object that was created is known to be there. -/
structure Discovered (env : Environment F) (a : Arguments F) (server : Server F) (staged : Staged F)
    (p : Progress F) : Prop extends Reached env a server staged p where
  createdProvider : staged.provider = none →
    p.server.providers = server.providers ∧ p.providerCommitted = false ∨
    p.server.providers =
        server.providers.insert (env.newPk server.providers) (newProvider env staged) ∧
      p.providerCommitted = true ∧ p.providerPk = some (env.newPk server.providers)
  createdApplication : staged.application = none →
    p.server.applications = server.applications ∨ p.applicationCommitted = true ∧
      ∃ provider, p.server.applications =
        server.applications.insert a.applicationSlug (newApplication env a provider)

theorem findApplication_isSome (hslug : "slug".toList ∉ a.applicationMetadata.map Prod.fst)
    {provider : Plain F} (h : s.applications =
      server.applications.insert a.applicationSlug (newApplication env a provider)) :
    (findApplication env a s).isSome = true := by
  have hfield : fieldIs "slug" a.applicationSlug (newApplication env a provider) = true := by
    apply fieldIs_of_lookup
    unfold newApplication
    rw [lookup_patch, find_slug hslug]
    rfl
  cases hfound : findApplication env a s with
  | some entry => rfl
  | none =>
    have hlookup : s.applications.lookup a.applicationSlug =
        some (newApplication env a provider) := by
      rw [h, Finmap.lookup_insert]
    have hnot := not_of_find_none hfound hlookup
    rw [hfield] at hnot
    cases hnot

theorem findProvider_new (hsnapshot : Snapshot env a server staged) (hnone : staged.provider = none)
    (h : s.providers =
      server.providers.insert (env.newPk server.providers) (newProvider env staged)) :
    findProvider env a s = some (env.newPk server.providers, newProvider env staged) := by
  unfold findProvider
  rw [h]
  apply find_insert (hsnapshot.noProvider hnone)
  apply fieldIs_of_lookup
  unfold newProvider
  rw [lookup_patch, hsnapshot.name]
  rfl

theorem findProvider_none (hsnapshot : Snapshot env a server staged) (hnone : staged.provider = none)
    (h : s.providers = server.providers) : findProvider env a s = none := by
  unfold findProvider
  rw [h, List.find?_eq_none]
  intro entry hentry
  have hlookup := (env.providerOrder.mem_entries _ entry.1 entry.2).mp hentry
  rw [hsnapshot.noProvider hnone _ _ hlookup]
  exact Bool.false_ne_true

theorem discoverApplication_spec (hslug : "slug".toList ∉ a.applicationMetadata.map Prod.fst)
    (hundoable : Undoable env) (h : Reached env a server staged p) :
    ∃ p', discoverApplication env a staged (p, []) = (p', []) ∧ Reached env a server staged p' ∧
      (staged.application = none → p'.server.applications = server.applications ∨
        p'.applicationCommitted = true ∧ ∃ provider, p'.server.applications =
          server.applications.insert a.applicationSlug (newApplication env a provider)) := by
  unfold discoverApplication
  split
  · rename_i hcondition
    rw [Bool.and_eq_true, Bool.and_eq_true] at hcondition
    obtain ⟨⟨hisNone, hattempted⟩, -⟩ := hcondition
    have hnone : staged.application = none := Option.isNone_iff_eq_none.mp hisNone
    rw [if_pos hundoable.applicationDiscovery]
    refine ⟨_, rfl, h.of_same ⟨rfl, rfl, rfl, rfl⟩ ?_ ?_ h.outpost, ?_⟩
    · intro restore heq
      rw [hnone] at heq
      cases heq
    · intro _
      rcases h.noApplication hnone with hkept | ⟨-, hinserted⟩
      · exact .inl hkept
      · exact .inr ⟨.inr hattempted, hinserted⟩
    · intro _
      rcases h.noApplication hnone with hkept | ⟨-, provider, hinserted⟩
      · exact .inl hkept
      · exact .inr ⟨findApplication_isSome hslug hinserted, provider, hinserted⟩
  · rename_i hcondition
    refine ⟨p, rfl, h, fun hnone => ?_⟩
    rcases h.noApplication hnone with hkept | ⟨hflags, hinserted⟩
    · exact .inl hkept
    · refine .inr ⟨?_, hinserted⟩
      by_contra hnot
      have hattempted := hflags.resolve_left hnot
      apply hcondition
      rw [hnone, Bool.and_eq_true, Bool.and_eq_true, Bool.not_eq_true']
      exact ⟨⟨rfl, hattempted⟩, Bool.eq_false_iff.mpr hnot⟩

theorem discoverProvider_spec (hsnapshot : Snapshot env a server staged) (hundoable : Undoable env)
    (h : Reached env a server staged p)
    (happlication : staged.application = none → p.server.applications = server.applications ∨
      p.applicationCommitted = true ∧ ∃ provider, p.server.applications =
        server.applications.insert a.applicationSlug (newApplication env a provider)) :
    ∃ p', discoverProvider env a staged (p, []) = (p', []) ∧ Discovered env a server staged p' := by
  unfold discoverProvider
  split
  · rename_i hcondition
    rw [Bool.and_eq_true, Bool.and_eq_true, Bool.not_eq_true'] at hcondition
    obtain ⟨⟨hisNone, -⟩, hcommitted⟩ := hcondition
    have hnone : staged.provider = none := Option.isNone_iff_eq_none.mp hisNone
    rw [if_pos hundoable.providerDiscovery]
    rcases h.noProvider hnone with ⟨hkept, -⟩ | ⟨hinserted, -⟩
    · rw [findProvider_none hsnapshot hnone hkept]
      exact ⟨p, rfl, h, fun _ => .inl ⟨hkept, hcommitted⟩, happlication⟩
    · rw [findProvider_new hsnapshot hnone hinserted]
      refine ⟨_, rfl, ⟨?_, ?_, h.application, h.noApplication, h.outpost⟩, ?_, happlication⟩
      · intro pk restore heq
        rw [hnone] at heq
        cases heq
      · exact fun _ => .inr ⟨hinserted, .inl ⟨rfl, rfl⟩⟩
      · exact fun _ => .inr ⟨hinserted, rfl, rfl⟩
  · rename_i hcondition
    refine ⟨p, rfl, h, fun hnone => ?_, happlication⟩
    rcases h.noProvider hnone with hkept | ⟨hinserted, hknown | ⟨hcommitted, hattempted⟩⟩
    · exact .inl hkept
    · exact .inr ⟨hinserted, hknown⟩
    · refine (hcondition ?_).elim
      rw [hnone, Bool.and_eq_true, Bool.and_eq_true, Bool.not_eq_true']
      exact ⟨⟨rfl, hattempted⟩, hcommitted⟩

theorem patchOutpost_restore (hsnapshot : Snapshot env a server staged) (providers : List ℕ)
    {config : Option (Record F)} (hconfig : config.isSome = true → a.outpostConfigPatch.isSome = true) :
    ((server.patchOutpost staged.outpostPk providers config).patchOutpost staged.outpostPk
      staged.outpost.providers (a.outpostConfigPatch.map fun _ ↦ staged.outpost.config)).outposts =
        server.outposts := by
  have hlookup := hsnapshot.outpost
  unfold Server.patchOutpost
  rw [hlookup]
  dsimp only
  rw [Finmap.lookup_insert]
  dsimp only
  rw [Finmap.insert_insert]
  have hrestored : (a.outpostConfigPatch.map fun _ ↦ staged.outpost.config).getD
      (config.getD staged.outpost.config) = staged.outpost.config := by
    cases hpatch : a.outpostConfigPatch with
    | some patch => rfl
    | none =>
      -- Without a patch the requests leave the configuration out.
      cases config with
      | none => rfl
      | some config =>
        rw [hpatch] at hconfig
        cases hconfig rfl
  rw [hrestored]
  exact insert_of_lookup hlookup

theorem patchOutpost_snapshot (hsnapshot : Snapshot env a server staged) :
    (server.patchOutpost staged.outpostPk staged.outpost.providers
      (a.outpostConfigPatch.map fun _ ↦ staged.outpost.config)).outposts = server.outposts := by
  have hlookup := hsnapshot.outpost
  unfold Server.patchOutpost
  rw [hlookup]
  dsimp only
  have hrestored : (a.outpostConfigPatch.map fun _ ↦ staged.outpost.config).getD
      staged.outpost.config = staged.outpost.config := by
    cases a.outpostConfigPatch <;> rfl
  rw [hrestored]
  exact insert_of_lookup hlookup

theorem restoreOutpost_spec (hsnapshot : Snapshot env a server staged) (hundoable : Undoable env)
    (h : Discovered env a server staged p) :
    ∃ p', restoreOutpost env a staged (p, []) = (p', []) ∧ Discovered env a server staged p' ∧
      p'.server.outposts = server.outposts := by
  unfold restoreOutpost
  split
  · rw [compensate_of_succeeds hundoable.outpost]
    have hrestored : (p.server.patchOutpost staged.outpostPk staged.outpost.providers
        (a.outpostConfigPatch.map fun _ ↦ staged.outpost.config)).outposts = server.outposts := by
      rcases h.outpost with hkept | ⟨-, providers, config, hconfig, hwritten⟩
      · rw [patchOutpost_congr hkept]
        exact patchOutpost_snapshot hsnapshot
      · rw [patchOutpost_congr hwritten]
        exact patchOutpost_restore hsnapshot providers hconfig
    refine ⟨_, rfl, ⟨h.toReached.of_same ⟨?_, rfl, rfl, rfl⟩ ?_ ?_ (.inl hrestored), ?_, ?_⟩, hrestored⟩
    · exact p.server.patchOutpost_providers ..
    · simpa using h.application
    · simpa using h.noApplication
    · simpa using h.createdProvider
    · simpa using h.createdApplication
  · rename_i hneeded
    refine ⟨p, rfl, h, ?_⟩
    rcases h.outpost with hkept | ⟨hset, -⟩
    · exact hkept
    · exact (hneeded hset).elim

theorem patchApplication_restore (hsnapshot : Snapshot env a server staged)
    (hstaged : staged.application = some restore) :
    (server.patchApplication a.applicationSlug restore).applications = server.applications ∧
      ∀ provider, ((server.patchApplication a.applicationSlug
        (applicationPayload a provider)).patchApplication a.applicationSlug restore).applications =
          server.applications := by
  obtain ⟨record, hlookup, hundone, hsame⟩ := hsnapshot.application restore hstaged
  constructor
  · unfold Server.patchApplication
    rw [hlookup]
    dsimp only
    rw [hsame]
    exact insert_of_lookup hlookup
  · intro provider
    unfold Server.patchApplication
    rw [hlookup]
    dsimp only
    rw [Finmap.lookup_insert]
    dsimp only
    rw [Finmap.insert_insert, hundone]
    exact insert_of_lookup hlookup

/-- What is known once the outpost and the application are restored. -/
structure ProviderLeft (env : Environment F) (server : Server F) (staged : Staged F)
    (p : Progress F) : Prop where
  provider : ∀ pk restore, staged.provider = some (pk, restore) → p.providerPk = some pk ∧
    (p.server.providers = server.providers ∨ p.providerCommitted = true ∧
      p.server.providers = (server.patchProvider pk staged.payload).providers)
  createdProvider : staged.provider = none →
    p.server.providers = server.providers ∧ p.providerCommitted = false ∨
    p.server.providers =
        server.providers.insert (env.newPk server.providers) (newProvider env staged) ∧
      p.providerCommitted = true ∧ p.providerPk = some (env.newPk server.providers)
  applications : p.server.applications = server.applications
  outposts : p.server.outposts = server.outposts

theorem Discovered.left (h : Discovered env a server staged p)
    (hsame : SameProvider p p') (happlications : p'.server.applications = server.applications)
    (houtposts : p'.server.outposts = server.outposts) : ProviderLeft env server staged p' where
  provider := by
    rw [hsame.providers, hsame.pk, hsame.committed]
    exact h.provider
  createdProvider := by
    rw [hsame.providers, hsame.pk, hsame.committed]
    exact h.createdProvider
  applications := happlications
  outposts := houtposts

theorem restoreApplication_spec (hsnapshot : Snapshot env a server staged) (hundoable : Undoable env)
    (h : Discovered env a server staged p)
    (houtposts : p.server.outposts = server.outposts) :
    ∃ p', restoreApplication env a staged (p, []) = (p', []) ∧ ProviderLeft env server staged p' := by
  unfold restoreApplication
  split
  · rename_i restore hstaged
    obtain ⟨hflags, hwritten⟩ := h.application restore hstaged
    obtain ⟨hsame, hundone⟩ := patchApplication_restore hsnapshot hstaged
    split
    · rw [compensate_of_succeeds hundoable.application]
      refine ⟨_, rfl, h.left ⟨?_, rfl, rfl, rfl⟩ ?_ ?_⟩
      · exact p.server.patchApplication_providers ..
      · show (p.server.patchApplication a.applicationSlug restore).applications = _
        rcases hwritten with hkept | ⟨-, provider, hpatched⟩
        · rw [patchApplication_congr hkept, hsame]
        · rw [patchApplication_congr hpatched, hundone]
      · exact (p.server.patchApplication_outposts ..).trans houtposts
    · rename_i hneeded
      -- An application that was there is never deleted.
      rw [if_neg fun hcommitted => hneeded (hflags hcommitted)]
      refine ⟨p, rfl, h.left ⟨rfl, rfl, rfl, rfl⟩ ?_ houtposts⟩
      rcases hwritten with hkept | ⟨hset, -⟩
      · exact hkept
      · exact (hneeded hset).elim
  · rename_i hnone
    have hfresh := hsnapshot.noApplication hnone
    split
    · rw [compensate_of_succeeds hundoable.application]
      refine ⟨_, rfl, h.left ⟨rfl, rfl, rfl, rfl⟩ ?_ houtposts⟩
      show p.server.applications.erase a.applicationSlug = _
      rcases h.createdApplication hnone with hkept | ⟨-, provider, hinserted⟩
      · rw [hkept]
        exact erase_of_lookup hfresh
      · rw [hinserted]
        exact erase_insert hfresh
    · rename_i hcommitted
      refine ⟨p, rfl, h.left ⟨rfl, rfl, rfl, rfl⟩ ?_ houtposts⟩
      rcases h.createdApplication hnone with hkept | ⟨hset, -⟩
      · exact hkept
      · exact (hcommitted hset).elim

theorem patchProvider_congr (h : s.providers = t.providers) (pk : ℕ) (body : Object F) :
    (s.patchProvider pk body).providers = (t.patchProvider pk body).providers := by
  unfold Server.patchProvider
  rw [h]
  split <;> simp [h]

theorem patchProvider_restore (hsnapshot : Snapshot env a server staged)
    (hstaged : staged.provider = some (pk, restore)) :
    (server.patchProvider pk restore).providers = server.providers ∧
      ((server.patchProvider pk staged.payload).patchProvider pk restore).providers =
        server.providers := by
  obtain ⟨record, hlookup, -, hundone, hsame⟩ := hsnapshot.provider pk restore hstaged
  constructor
  · unfold Server.patchProvider
    rw [hlookup]
    dsimp only
    rw [hsame]
    exact insert_of_lookup hlookup
  · unfold Server.patchProvider
    rw [hlookup]
    dsimp only
    rw [Finmap.lookup_insert]
    dsimp only
    rw [Finmap.insert_insert, hundone]
    exact insert_of_lookup hlookup

theorem restoreProvider_spec (hconsistent : Consistent server) (hsnapshot : Snapshot env a server staged)
    (hundoable : Undoable env) (h : ProviderLeft env server staged p) :
    ∃ p', restoreProvider env staged (p, []) = (p', []) ∧ p'.server = server := by
  unfold restoreProvider
  cases hstaged : staged.provider with
  | some found =>
    obtain ⟨pk, restore⟩ := found
    obtain ⟨hpk, hwritten⟩ := h.provider pk restore hstaged
    obtain ⟨hsame, hundone⟩ := patchProvider_restore hsnapshot hstaged
    dsimp only
    rw [hpk]
    dsimp only
    split
    · rw [compensate_of_succeeds hundoable.provider]
      refine ⟨_, rfl, Server.ext ?_ ?_ ?_⟩
      · show (p.server.patchProvider pk restore).providers = _
        rcases hwritten with hkept | ⟨-, hpatched⟩
        · rw [patchProvider_congr hkept, hsame]
        · rw [patchProvider_congr hpatched, hundone]
      · exact (p.server.patchProvider_applications ..).trans h.applications
      · exact (p.server.patchProvider_outposts ..).trans h.outposts
    · rename_i hcommitted
      refine ⟨p, rfl, Server.ext ?_ h.applications h.outposts⟩
      rcases hwritten with hkept | ⟨hset, -⟩
      · exact hkept
      · exact (hcommitted hset).elim
  | none =>
    have hfresh := env.newPk_fresh server.providers
    rcases h.createdProvider hstaged with ⟨hkept, hcommitted⟩ | ⟨hinserted, hcommitted, hpk⟩
    · have hserver : p.server = server := Server.ext hkept h.applications h.outposts
      cases p.providerPk with
      | none => exact ⟨p, rfl, hserver⟩
      | some pk =>
        dsimp only
        rw [hcommitted]
        exact ⟨p, rfl, hserver⟩
    · dsimp only
      rw [hpk]
      dsimp only
      rw [if_pos hcommitted, compensate_of_succeeds hundoable.provider]
      obtain ⟨happlications, houtposts⟩ :=
        deleteProvider_fresh hconsistent hfresh h.applications h.outposts
      refine ⟨_, rfl, Server.ext ?_ happlications houtposts⟩
      show p.server.providers.erase (env.newPk server.providers) = _
      rw [hinserted]
      exact erase_insert (Finmap.lookup_eq_none.mpr hfresh)

theorem rollback_spec (hconsistent : Consistent server) (hsnapshot : Snapshot env a server staged)
    (hslug : "slug".toList ∉ a.applicationMetadata.map Prod.fst) (hundoable : Undoable env)
    (h : Reached env a server staged p) :
    ∃ p', rollback env a staged p = (p', []) ∧ p'.server = server := by
  obtain ⟨p₁, hstep₁, h₁, happlication⟩ := discoverApplication_spec hslug hundoable h
  obtain ⟨p₂, hstep₂, h₂⟩ := discoverProvider_spec hsnapshot hundoable h₁ happlication
  obtain ⟨p₃, hstep₃, h₃, houtposts⟩ := restoreOutpost_spec hsnapshot hundoable h₂
  obtain ⟨p₄, hstep₄, h₄⟩ := restoreApplication_spec hsnapshot hundoable h₃ houtposts
  obtain ⟨p₅, hstep₅, hserver⟩ := restoreProvider_spec hconsistent hsnapshot hundoable h₄
  refine ⟨p₅, ?_, hserver⟩
  unfold rollback
  dsimp only
  rw [hstep₁, hstep₂, hstep₃, hstep₄, hstep₅]

end NixNas.Identity
