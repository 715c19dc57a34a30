import Mathlib.Order.Lattice.Nat
import NixNas.Identity.Undo

/-!
# A proxy application is written as a whole or not at all
-/

open Fallible Journal

namespace NixNas.Identity

open Spec

variable {F : Type} {env : Environment F} {a : Arguments F} {server : Server F} {staged : Staged F}
variable {p : Progress F} {pk : ℕ}

/-- No request fails, and the reply to a creation has a primary key. -/
structure Faultless (env : Environment F) (staged : Staged F) : Prop where
  provider : env.provider.succeeds = true
  named : staged.provider = none → env.provider = .replied
  application : env.application.succeeds = true
  outpost : env.outpost.succeeds = true

theorem request_of_succeeds {outcome : Outcome} {request : Server F → Server F}
    (h : outcome.succeeds = true) :
    p.request outcome request = .ok { p with server := request p.server } := by
  unfold Outcome.succeeds at h
  rw [Bool.and_eq_true, Bool.not_eq_true'] at h
  unfold Progress.request Progress.send
  rw [if_pos h.1, h.2]
  rfl

theorem writeProvider_completed (hsnapshot : Snapshot env a server staged)
    (hfaultless : Faultless env staged) :
    ∃ p pk, writeProvider env staged (startOf server staged) = .ok p ∧ p.providerPk = some pk ∧
      p.server.applications = server.applications ∧ p.server.outposts = server.outposts ∧
      ∃ record, p.server.providers.lookup pk = some record ∧
        record.lookup "name".toList = some (string a.providerName) := by
  have hwritten : ∀ record : Record F,
      (record.patch staged.payload).lookup "name".toList = some (string a.providerName) := by
    intro record
    rw [lookup_patch, hsnapshot.name]
    rfl
  unfold writeProvider startOf
  cases hstaged : staged.provider with
  | some found =>
    obtain ⟨pk, restore⟩ := found
    obtain ⟨record, hlookup, -⟩ := hsnapshot.provider pk restore hstaged
    dsimp only
    rw [request_of_succeeds hfaultless.provider]
    refine ⟨_, pk, rfl, rfl, server.patchProvider_applications .., server.patchProvider_outposts ..,
      record.patch staged.payload, ?_, hwritten record⟩
    unfold Server.patchProvider
    rw [hlookup]
    exact Finmap.lookup_insert _
  | none =>
    dsimp only
    rw [hfaultless.named hstaged]
    exact ⟨_, env.newPk server.providers, rfl, rfl, rfl, rfl, newProvider env staged,
      Finmap.lookup_insert _, hwritten env.providerDefaults⟩

theorem pointsTo_patch (record : Record F) (pk : ℕ) :
    (record.patch (applicationPayload a (number pk))).pointsTo pk = true := by
  have hprovider : (record.patch (applicationPayload a (number pk))).lookup "provider".toList =
      some (number pk) := by
    unfold applicationPayload
    rw [lookup_patch, find_setItem, if_pos rfl]
    rfl
  unfold Record.pointsTo
  rw [hprovider]
  exact decide_eq_true rfl

theorem writeApplication_completed (hsnapshot : Snapshot env a server staged)
    (hfaultless : Faultless env staged) (hpk : p.providerPk = some pk)
    (happlications : p.server.applications = server.applications) :
    ∃ p', writeApplication env a staged p = .ok p' ∧ p'.providerPk = some pk ∧
      p'.server.providers = p.server.providers ∧ p'.server.outposts = p.server.outposts ∧
      ∃ record, p'.server.applications.lookup a.applicationSlug = some record ∧
        record.pointsTo pk = true := by
  unfold writeApplication
  rw [hpk]
  cases hstaged : staged.application with
  | some restore =>
    obtain ⟨record, hlookup, -⟩ := hsnapshot.application restore hstaged
    dsimp only
    rw [request_of_succeeds hfaultless.application]
    refine ⟨_, rfl, rfl, p.server.patchApplication_providers ..,
      p.server.patchApplication_outposts .., record.patch (applicationPayload a (number pk)), ?_,
      pointsTo_patch record pk⟩
    show (p.server.patchApplication a.applicationSlug
      (applicationPayload a (number pk))).applications.lookup a.applicationSlug = _
    rw [patchApplication_congr happlications]
    unfold Server.patchApplication
    rw [hlookup]
    exact Finmap.lookup_insert _
  | none =>
    dsimp only
    rw [request_of_succeeds hfaultless.application]
    exact ⟨_, rfl, rfl, rfl, rfl, newApplication env a (number pk), Finmap.lookup_insert _,
      pointsTo_patch env.applicationDefaults pk⟩

theorem writeOutpost_completed (float : FloatEq F) (hsnapshot : Snapshot env a server staged)
    (hfaultless : Faultless env staged) (hpk : p.providerPk = some pk)
    (houtposts : p.server.outposts = server.outposts) :
    ∃ p', writeOutpost env a staged float p = .ok p' ∧
      p'.server.providers = p.server.providers ∧ p'.server.applications = p.server.applications ∧
      ∃ after, p'.server.outposts.lookup staged.outpostPk = some after ∧
        after.providers =
          staged.outpost.providers ++ [pk].filter (· ∉ staged.outpost.providers) := by
  unfold writeOutpost
  rw [hpk]
  dsimp only [Option.toList]
  split
  · rw [request_of_succeeds hfaultless.outpost]
    refine ⟨_, rfl, p.server.patchOutpost_providers .., p.server.patchOutpost_applications ..,
      { staged.outpost with
        providers := staged.outpost.providers ++ [pk].filter (· ∉ staged.outpost.providers),
        config := (desiredConfig a staged).getD staged.outpost.config }, ?_, rfl⟩
    dsimp only
    rw [patchOutpost_congr houtposts]
    unfold Server.patchOutpost
    rw [hsnapshot.outpost]
    exact Finmap.lookup_insert _
  · rename_i hkept
    rw [not_or, not_not] at hkept
    refine ⟨p, rfl, rfl, rfl, staged.outpost, ?_, ?_⟩
    · rw [houtposts, hsnapshot.outpost]
    · rw [hkept.1, List.append_nil]

theorem once_of_nodup {before : List ℕ} (hnodup : before.Nodup) (pk : ℕ) :
    (before ++ [pk].filter (· ∉ before)).count pk = 1 ∧
      (before ++ [pk].filter (· ∉ before)).filter (· ≠ pk) = before.filter (· ≠ pk) := by
  by_cases h : pk ∈ before
  · have hadded : [pk].filter (· ∉ before) = [] := by simp [h]
    rw [hadded, List.append_nil]
    exact ⟨List.count_eq_one_of_mem hnodup h, rfl⟩
  · have hadded : [pk].filter (· ∉ before) = [pk] := by simp [h]
    rw [hadded, List.count_append, List.filter_append, List.count_eq_zero.mpr h]
    simp

/-- The provider, the application and the outpost belong together. -/
structure Completed (a : Arguments F) (server server' : Server F) (pk : ℕ) (outpostPk : Text)
    (before after : Outpost F) : Prop where
  provider : ∃ record, server'.providers.lookup pk = some record ∧
    record.lookup "name".toList = some (string a.providerName)
  application : ∃ record, server'.applications.lookup a.applicationSlug = some record ∧
    record.pointsTo pk = true
  managed : before.managed = some embedded
  found : server.outposts.lookup outpostPk = some before
  kept : server'.outposts.lookup outpostPk = some after
  once : after.providers.count pk = 1
  others : after.providers.filter (· ≠ pk) = before.providers.filter (· ≠ pk)

theorem forward_completed (float : FloatEq F) (hconsistent : Consistent server)
    (hsnapshot : Snapshot env a server staged) (hfaultless : Faultless env staged) :
    ∃ p pk after, forward env a staged float server = .ok p ∧
      Completed a server p.server pk staged.outpostPk staged.outpost after := by
  obtain ⟨p₁, pk, hstep₁, hpk₁, happlications₁, houtposts₁, hprovider⟩ :=
    writeProvider_completed hsnapshot hfaultless
  obtain ⟨p₂, hstep₂, hpk₂, hproviders₂, houtposts₂, happlication⟩ :=
    writeApplication_completed hsnapshot hfaultless hpk₁ happlications₁
  obtain ⟨p₃, hstep₃, hproviders₃, happlications₃, after, hafter, hlist⟩ :=
    writeOutpost_completed float hsnapshot hfaultless hpk₂ (houtposts₂.trans houtposts₁)
  obtain ⟨honce, hothers⟩ :=
    once_of_nodup (hconsistent.nodup staged.outpostPk staged.outpost hsnapshot.outpost) pk
  refine ⟨p₃, pk, after, ?_, ?_, ?_, hsnapshot.managed, hsnapshot.outpost, hafter, ?_, ?_⟩
  · unfold forward
    exact (congrArg (fun step ↦ step >>= fun p ↦ writeApplication env a staged p >>= fun p ↦
      writeOutpost env a staged float p) hstep₁).trans
        ((congrArg (· >>= fun p ↦ writeOutpost env a staged float p) hstep₂).trans hstep₃)
  · rw [hproviders₃, hproviders₂]
    exact hprovider
  · rw [happlications₃]
    exact happlication
  · rw [hlist]
    exact honce
  · rw [hlist]
    exact hothers

/-- After a failure that can be taken back the server is as it was; without a failure everything
belongs together. -/
theorem ensureProxyApplication_transactional (env : Environment F) (a : Arguments F)
    (float : FloatEq F) (server : Server F) (hconsistent : Consistent server)
    (hshows : ShowsApplication a server)
    (hslug : "slug".toList ∉ a.applicationMetadata.map Prod.fst) :
    (Undoable env → ∀ error, (ensureProxyApplication env a float server).2 = .error error →
      (ensureProxyApplication env a float server).1 = server ∧ ∀ steps, error ≠ .incomplete steps) ∧
    ∀ staged, stage env a server = .ok staged → Faultless env staged →
      (ensureProxyApplication env a float server).2 = .ok () ∧
        ∃ pk after, Completed a server (ensureProxyApplication env a float server).1 pk
          staged.outpostPk staged.outpost after := by
  constructor
  · intro hundoable error herror
    unfold ensureProxyApplication at herror ⊢
    cases hstage : stage env a server with
    | error stagingError =>
      rw [hstage] at herror
      cases herror
      exact ⟨rfl, nofun⟩
    | ok staged =>
      have hsnapshot := snapshot_of_stage hconsistent hshows hstage
      have hreached : Carries (Reached env a server staged) (forward env a staged float server) :=
        forward_reached
      rw [hstage] at herror
      dsimp only at herror ⊢
      cases hforward : forward env a staged float server with
      | ok p =>
        rw [hforward] at herror
        cases herror
      | error p =>
        rw [hforward] at herror hreached
        obtain ⟨p', hrollback, hserver⟩ := rollback_spec hconsistent hsnapshot hslug hundoable hreached
        dsimp only at herror ⊢
        rw [hrollback] at herror ⊢
        cases herror
        exact ⟨hserver, nofun⟩
  · intro staged hstage hfaultless
    have hsnapshot := snapshot_of_stage hconsistent hshows hstage
    obtain ⟨p, pk, after, hforward, hcompleted⟩ :=
      forward_completed float hconsistent hsnapshot hfaultless
    unfold ensureProxyApplication
    rw [hstage]
    dsimp only
    rw [hforward]
    exact ⟨rfl, pk, after, hcompleted⟩

noncomputable def anyOrder (K V : Type) [DecidableEq K] : Listing K V where
  entries store := store.entries.toList.map fun e ↦ (e.1, e.2)
  mem_entries store k v := by
    rw [Finmap.lookup_eq_some_iff, List.mem_map]
    constructor
    · rintro ⟨⟨j, w⟩, hmem, heq⟩
      cases heq
      exact Multiset.mem_toList.mp hmem
    · exact fun h => ⟨⟨k, v⟩, Multiset.mem_toList.mpr h, rfl⟩

def nextPk (providers : Store ℕ (Record Empty)) : ℕ := providers.keys.sup id + 1

theorem nextPk_fresh (providers : Store ℕ (Record Empty)) : nextPk providers ∉ providers := by
  intro h
  have hle : id (nextPk providers) ≤ providers.keys.sup id :=
    Finset.le_sup (f := id) (Finmap.mem_keys.mpr h)
  unfold nextPk at hle
  simp only [id] at hle
  omega

noncomputable def lostReply : Environment Empty where
  providerOrder := anyOrder ℕ (Record Empty)
  applicationOrder := anyOrder Text (Record Empty)
  outpostOrder := anyOrder Text (Outpost Empty)
  newPk := nextPk
  newPk_fresh := nextPk_fresh
  providerDefaults := ∅
  applicationDefaults := ∅
  provider := .replied
  application := .replied
  outpost := .raised true
  applicationDiscovery := true
  providerDiscovery := true
  outpostRollback := .replied
  applicationRollback := .replied
  providerRollback := .replied

def notAFloat : FloatEq Empty := .empty

def portal : Arguments Empty where
  providerName := "nas-portal".toList
  applicationSlug := "nas-portal".toList
  externalHost := "https://nas.home".toList
  internalHost := "http://127.0.0.1:8099".toList
  applicationMetadata := []
  outpostConfigPatch := none
  flows := Arguments.flowFields.map fun field ↦ (field.2, text "1")
  propertyMappings := .array []

def freshOutpost : Outpost Empty := ⟨some embedded, [], ∅⟩

def fresh : Server Empty := ⟨∅, ∅, Finmap.singleton "0".toList freshOutpost⟩

theorem stage_fresh : ∃ staged, stage lostReply portal fresh = .ok staged ∧ staged.provider = none ∧
    staged.application = none ∧ staged.outpost = freshOutpost := by
  have houtpost : findOutpost lostReply fresh = some ("0".toList, freshOutpost) := by
    unfold findOutpost
    show ((Multiset.toList ({⟨"0".toList, freshOutpost⟩} : Multiset (Σ _ : Text, Outpost Empty))).map
      _).find? _ = _
    rw [Multiset.toList_singleton]
    rfl
  have hprovider : findProvider lostReply portal fresh = none := by
    unfold findProvider
    show ((Multiset.toList (0 : Multiset (Σ _ : ℕ, Record Empty))).map _).find? _ = _
    rw [Multiset.toList_zero]
    rfl
  have happlication : findApplication lostReply portal fresh = none := by
    unfold findApplication
    show ((Multiset.toList (0 : Multiset (Σ _ : Text, Record Empty))).map _).find? _ = _
    rw [Multiset.toList_zero]
    rfl
  unfold stage
  rw [houtpost, hprovider, happlication]
  exact ⟨_, rfl, rfl, rfl, rfl⟩

theorem forward_lostReply : ∃ error,
    (ensureProxyApplication lostReply portal notAFloat fresh).2 = .error error := by
  obtain ⟨staged, hstage, hprovider, happlication, houtpost⟩ := stage_fresh
  have hforward : ∃ p, forward lostReply portal staged notAFloat fresh = .error p := by
    unfold forward writeProvider writeApplication writeOutpost
    rw [hprovider, happlication, houtpost]
    exact ⟨_, rfl⟩
  obtain ⟨p, hp⟩ := hforward
  unfold ensureProxyApplication
  rw [hstage]
  dsimp only
  rw [hp]
  exact ⟨_, rfl⟩

theorem ensureProxyApplication_transactional_lostReply :
    (ensureProxyApplication lostReply portal notAFloat fresh).1 = fresh := by
  have hconsistent : Consistent fresh := by
    have hlist : ∀ pk outpost, fresh.outposts.lookup pk = some outpost → outpost.providers = [] := by
      intro pk outpost hlookup
      have hmem : pk ∈ fresh.outposts := Finmap.mem_of_lookup_eq_some hlookup
      unfold fresh at hmem hlookup
      rw [Finmap.mem_singleton] at hmem
      rw [hmem, Finmap.lookup_singleton_eq, Option.some_inj] at hlookup
      rw [← hlookup]
      rfl
    refine ⟨nofun, nofun, ?_, ?_⟩
    · intro pk outpost hlookup
      rw [hlist pk outpost hlookup]
      exact nofun
    · intro pk outpost hlookup
      rw [hlist pk outpost hlookup]
      exact List.nodup_nil
  have hundoable : Undoable lostReply := ⟨rfl, rfl, rfl, rfl, rfl⟩
  obtain ⟨error, herror⟩ := forward_lostReply
  exact ((ensureProxyApplication_transactional lostReply portal notAFloat fresh hconsistent nofun
    (by decide)).1 hundoable error herror).1

end NixNas.Identity
