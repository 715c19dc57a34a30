import Mathlib.Data.List.Basic
import NixNas.Lib.Fallible
import NixNas.State.Restore

/-!
# What a rollback leaves

The rollback puts the content of every authority back that was there, and removes the optional ones
that were not.  A required one that was missing is not in the rollback bundle either way.
-/

namespace NixNas.State

variable {C : Type} {registry : Registry} {manifest : Manifest C} {restoreAbsence : Bool}
  {replies : Text → Reply C} {live : Live C} {a : Authority} {e : BundleEntry C}
variable {authorities : List Authority}

/-! ## Entries -/

theorem Registry.eq_of_name (registry : Registry) {b : Authority} (ha : a ∈ registry.authorities)
    (hb : b ∈ registry.authorities) (h : a.name = b.name) : a = b :=
  List.inj_on_of_nodup_map registry.nodup ha hb h

theorem byName_of_forall₂ {R : Authority → BundleEntry C → Prop}
    (h : List.Forall₂ R registry.authorities manifest) (hname : ∀ a e, R a e → e.name = a.name)
    (ha : a ∈ registry.authorities) : ∃ e, byName manifest a.name = some e ∧ R a e := by
  have hsome : (byName manifest a.name).isSome := by
    obtain ⟨e, he, hR⟩ := Fallible.exists_right h ha
    unfold byName
    rw [List.find?_isSome]
    exact ⟨e, List.mem_reverse.mpr he, decide_eq_true (hname a e hR)⟩
  obtain ⟨e, he⟩ := Option.isSome_iff_exists.mp hsome
  have hfound := he
  unfold byName at hfound
  have hmem : e ∈ manifest := List.mem_reverse.mp (List.mem_of_find?_eq_some hfound)
  have heq : e.name = a.name := by simpa using List.find?_some hfound
  obtain ⟨b, hb, hR⟩ := Fallible.exists_left h hmem
  have hab : b = a := registry.eq_of_name hb ha ((hname b e hR).symm.trans heq)
  rw [hab] at hR
  exact ⟨e, he, hR⟩

theorem forall₂_of_load (h : loadExtractedManifest registry manifest = true) :
    List.Forall₂ (fun a e ↦ entryOk a e = true) registry.authorities manifest := by
  unfold loadExtractedManifest at h
  rw [Bool.and_eq_true, decide_eq_true_eq, List.all_eq_true] at h
  rw [List.forall₂_iff_zip]
  exact ⟨h.1.symm, fun hpair => h.2 _ hpair⟩

theorem name_of_entryOk (h : entryOk a e = true) : e.name = a.name := by
  unfold entryOk at h
  simp only [Bool.and_eq_true, decide_eq_true_eq] at h
  exact h.1.1.1

theorem byName_of_load (h : loadExtractedManifest registry manifest = true)
    (ha : a ∈ registry.authorities) : ∃ e, byName manifest a.name = some e ∧ entryOk a e = true :=
  byName_of_forall₂ (forall₂_of_load h) (fun _ _ => name_of_entryOk) ha

theorem name_exportEntry (live : Live C) (includeSensitive : Bool) (a : Authority) :
    (exportEntry live includeSensitive a).name = a.name := by
  unfold exportEntry
  split
  · rfl
  · split
    · rfl
    · split <;> rfl

theorem byName_exportBundle (live : Live C) (includeSensitive : Bool) (ha : a ∈ registry.authorities) :
    byName (exportBundle registry live includeSensitive) a.name =
      some (exportEntry live includeSensitive a) := by
  have hall : List.Forall₂ (fun a e ↦ e = exportEntry live includeSensitive a) registry.authorities
      (exportBundle registry live includeSensitive) := by
    unfold exportBundle
    rw [List.forall₂_map_right_iff, List.forall₂_same]
    exact fun _ _ => rfl
  obtain ⟨e, he, rfl⟩ := byName_of_forall₂ hall
    (fun a e h => (congrArg BundleEntry.name h).trans (name_exportEntry live includeSensitive a)) ha
  exact he

/-! ## The loop -/

/-- The turn of an authority: what it leaves, and whether it goes through. -/
def turn (restoreAbsence : Bool) (replies : Text → Reply C) (manifest : Manifest C) (live : Live C)
    (a : Authority) : Option C × Bool :=
  match byName manifest a.name with
  | none => (live a.name, false)
  | some e => applyEntry restoreAbsence (replies a.name) a e (live a.name)

theorem turn_congr {live' : Live C} (h : live' a.name = live a.name) :
    turn restoreAbsence replies manifest live' a = turn restoreAbsence replies manifest live a := by
  unfold turn
  rw [h]

theorem applyEntries_cons (rest : List Authority) :
    applyEntries restoreAbsence replies manifest (a :: rest) live =
      if (turn restoreAbsence replies manifest live a).2 then
        applyEntries restoreAbsence replies manifest rest
          (Function.update live a.name (turn restoreAbsence replies manifest live a).1)
      else
        (Function.update live a.name (turn restoreAbsence replies manifest live a).1, false) := by
  rw [applyEntries]
  unfold turn
  cases byName manifest a.name with
  | none =>
    dsimp only
    rw [if_neg Bool.false_ne_true, Function.update_eq_self]
  | some e => rfl

theorem applyEntries_other {n : Text} (hn : n ∉ authorities.map Authority.name) :
    (applyEntries restoreAbsence replies manifest authorities live).1 n = live n := by
  induction authorities generalizing live with
  | nil => rfl
  | cons a rest ih =>
    rw [List.map_cons, List.mem_cons, not_or] at hn
    rw [applyEntries_cons]
    split
    · rw [ih hn.2, Function.update_of_ne hn.1]
    · exact Function.update_of_ne hn.1 _ _

theorem applyEntries_at {before after : List Authority}
    (hnodup : ((before ++ a :: after).map Authority.name).Nodup) :
    (applyEntries restoreAbsence replies manifest (before ++ a :: after) live).1 a.name =
      if ∀ b ∈ before, (turn restoreAbsence replies manifest live b).2 = true then
        (turn restoreAbsence replies manifest live a).1
      else live a.name := by
  induction before generalizing live with
  | nil =>
    rw [List.nil_append, List.map_cons, List.nodup_cons] at hnodup
    rw [List.nil_append, applyEntries_cons, if_pos (List.forall_mem_nil _)]
    split
    · rw [applyEntries_other hnodup.1, Function.update_self]
    · exact Function.update_self _ _ _
  | cons b before ih =>
    rw [List.cons_append, List.map_cons, List.nodup_cons] at hnodup
    have hne : ∀ c ∈ before ++ a :: after, c.name ≠ b.name := by
      intro c hc heq
      exact hnodup.1 (List.mem_map.mpr ⟨c, hc, heq⟩)
    have hkeep : ∀ c ∈ before ++ a :: after, ∀ left,
        turn restoreAbsence replies manifest (Function.update live b.name left) c =
          turn restoreAbsence replies manifest live c :=
      fun c hc left => turn_congr (Function.update_of_ne (hne c hc) _ _)
    have ha : a ∈ before ++ a :: after := List.mem_append_right _ List.mem_cons_self
    rw [List.cons_append, applyEntries_cons]
    by_cases hb : (turn restoreAbsence replies manifest live b).2 = true
    · rw [if_pos hb, ih hnodup.2, hkeep a ha, Function.update_of_ne (hne a ha)]
      have hiff : (∀ c ∈ before, (turn restoreAbsence replies manifest
          (Function.update live b.name (turn restoreAbsence replies manifest live b).1) c).2 = true) ↔
          ∀ c ∈ b :: before, (turn restoreAbsence replies manifest live c).2 = true := by
        rw [List.forall_mem_cons, and_iff_right hb]
        exact forall₂_congr fun c hc => by rw [hkeep c (List.mem_append_left _ hc)]
      exact if_congr hiff rfl rfl
    · rw [if_neg hb, if_neg fun hall => hb (hall b List.mem_cons_self)]
      exact Function.update_of_ne (hne a ha) _ _

theorem applyEntries_ok (hnodup : (authorities.map Authority.name).Nodup)
    (h : (applyEntries restoreAbsence replies manifest authorities live).2 = true) :
    ∀ a ∈ authorities, (turn restoreAbsence replies manifest live a).2 = true := by
  induction authorities generalizing live with
  | nil => exact List.forall_mem_nil _
  | cons b rest ih =>
    rw [List.map_cons, List.nodup_cons] at hnodup
    rw [applyEntries_cons] at h
    split at h
    · rename_i hb
      rw [List.forall_mem_cons]
      refine ⟨hb, fun c hc => ?_⟩
      have hne : c.name ≠ b.name := fun heq => hnodup.1 (List.mem_map.mpr ⟨c, hc, heq⟩)
      rw [← ih hnodup.2 h c hc]
      exact congrArg Prod.snd (turn_congr (Function.update_of_ne hne _ _)).symm
    · cases h

/-! ## One turn -/

theorem turn_missing (hload : loadExtractedManifest registry manifest = true)
    (ha : a ∈ registry.authorities) (hkind : a.kind = .path) (hrequired : a.optional = false)
    (hmissing : live a.name = none) :
    (turn restoreAbsence replies manifest live a).1 = none ↔
      ¬ ((∃ e, byName manifest a.name = some e ∧ e.status = .captured) ∧
        (turn restoreAbsence replies manifest live a).2 = true) := by
  obtain ⟨e, he, hok⟩ := byName_of_load hload ha
  unfold turn
  rw [he]
  simp only [Option.some.injEq, exists_eq_left', hmissing]
  unfold applyEntry
  unfold entryOk at hok
  rw [hkind, hrequired] at hok
  cases hstatus : e.status with
  | captured =>
    rw [hstatus] at hok
    cases hpayload : e.payload with
    | none =>
      rw [hpayload] at hok
      simp at hok
    | some payload =>
      cases payload with
      | dump =>
        rw [hpayload] at hok
        simp at hok
      | tree content =>
        rw [hkind]
        unfold restorePath
        cases (replies a.name).place <;> simp
  | omittedSensitive => simp
  | absent =>
    rw [hstatus] at hok
    simp at hok
  | missingRequired => simp

theorem turn_rollback {live₁ : Live C} (ha : a ∈ registry.authorities) (hkind : a.kind = .path)
    (h : (turn true replies (exportBundle registry live true) live₁ a).2 = true) :
    (turn true replies (exportBundle registry live true) live₁ a).1 =
      if live a.name = none ∧ a.optional = false then live₁ a.name else live a.name := by
  unfold turn at h ⊢
  rw [byName_exportBundle live true ha] at h ⊢
  dsimp only at h ⊢
  unfold exportEntry at h ⊢
  rw [Bool.not_true, Bool.and_false, if_neg Bool.false_ne_true, hkind] at h ⊢
  cases hlive : live a.name with
  | some content =>
    rw [hlive] at h
    unfold applyEntry restorePath at h ⊢
    rw [hkind] at h ⊢
    dsimp only at h ⊢
    cases hreply : (replies a.name).place <;> rw [hreply] at h <;> simp_all
  | none =>
    rw [hlive] at h
    unfold applyEntry removePath at h ⊢
    rw [hkind] at h ⊢
    cases hoptional : a.optional with
    | false => simp
    | true =>
      rw [hoptional] at h
      cases hnow : live₁ a.name with
      | none => simp
      | some content =>
        cases hreply : (replies a.name).remove with
        | none => simp
        | some left =>
          rw [hnow, hreply] at h
          simp at h

/-! ## The rollback -/

section

variable {replies : Replies C} {live' : Live C}

theorem rollBack_ok {live₁ : Live C} (ha : a ∈ registry.authorities) (hkind : a.kind = .path)
    (h : rollBack registry replies (exportBundle registry live true) live₁ =
      (live', .failedRolledBack)) :
    live' a.name = if live a.name = none ∧ a.optional = false then live₁ a.name else live a.name := by
  unfold rollBack at h
  split at h
  · cases h
  · split at h
    · cases h
    · dsimp only at h
      obtain ⟨rfl, hstatus⟩ := Prod.mk.inj h
      have happlied : applyExtracted registry (exportBundle registry live true) true
          replies.applyRollback live₁ = applyEntries true replies.applyRollback
            (exportBundle registry live true) registry.authorities live₁ := if_pos rfl
      rw [happlied] at hstatus ⊢
      split at hstatus
      · rename_i hfinished
        simp only [Bool.and_eq_true] at hfinished
        have hturns := applyEntries_ok registry.nodup hfinished.1.1
        obtain ⟨before, after, hsplit⟩ := List.append_of_mem ha
        have hnodup := registry.nodup
        rw [hsplit] at hnodup
        have hbefore : ∀ b ∈ before, (turn true replies.applyRollback
            (exportBundle registry live true) live₁ b).2 = true := by
          intro b hb
          apply hturns
          rw [hsplit]
          exact List.mem_append_left _ hb
        rw [hsplit, applyEntries_at hnodup, if_pos hbefore]
        exact turn_rollback ha hkind (hturns a ha)
      · cases hstatus

/-! ## The failing restore -/

variable [DecidableEq C]

structure PutInPlace (registry : Registry) (manifest : Manifest C) (restoreAbsence : Bool)
    (replies : Replies C) (live : Live C) (a : Authority) : Prop where
  database : capturesDatabase manifest = true → replies.databaseStarted = true
  captured : ∃ e, byName manifest a.name = some e ∧ e.status = .captured
  /-- The authorities up to this one go through. -/
  reached : ∃ before after, registry.authorities = before ++ a :: after ∧
    ∀ b ∈ before ++ [a], (turn restoreAbsence replies.apply manifest live b).2 = true

theorem restoreForward_missing (hload : loadExtractedManifest registry manifest = true)
    (hpreflight : preflightRestoreAbsence registry manifest restoreAbsence live = true)
    (ha : a ∈ registry.authorities) (hkind : a.kind = .path) (hrequired : a.optional = false)
    (hmissing : live a.name = none) :
    (restoreForward registry manifest restoreAbsence replies live).1 a.name = none ↔
      ¬ PutInPlace registry manifest restoreAbsence replies live a := by
  unfold restoreForward
  by_cases hdatabase : (capturesDatabase manifest && !replies.databaseStarted) = true
  · rw [if_pos hdatabase]
    rw [Bool.and_eq_true, Bool.not_eq_true'] at hdatabase
    refine iff_of_true hmissing fun h => ?_
    rw [h.database hdatabase.1] at hdatabase
    cases hdatabase.2
  · rw [if_neg hdatabase]
    have hstarted : capturesDatabase manifest = true → replies.databaseStarted = true := by
      simpa using hdatabase
    unfold applyExtracted
    rw [if_pos hpreflight]
    dsimp only
    obtain ⟨before, after, hsplit⟩ := List.append_of_mem ha
    have hnodup := registry.nodup
    rw [hsplit] at hnodup
    rw [hsplit, applyEntries_at hnodup]
    have hunique : ∀ before' after', registry.authorities = before' ++ a :: after' → before' = before := by
      intro before' after' hsplit'
      have hlist := List.Nodup.of_map _ hnodup
      rw [List.nodup_middle, List.nodup_cons, List.mem_append, not_or] at hlist
      exact ((List.append_cons_inj_of_notMem hlist.1.1 hlist.1.2).mp (hsplit.symm.trans hsplit')).1.symm
    by_cases hbefore : ∀ b ∈ before, (turn restoreAbsence replies.apply manifest live b).2 = true
    · rw [if_pos hbefore, turn_missing hload ha hkind hrequired hmissing]
      apply not_congr
      constructor
      · rintro ⟨hcaptured, hturn⟩
        refine ⟨hstarted, hcaptured, before, after, hsplit, ?_⟩
        rw [List.forall_mem_append, List.forall_mem_singleton]
        exact ⟨hbefore, hturn⟩
      · rintro ⟨-, hcaptured, before', after', -, hall⟩
        exact ⟨hcaptured, hall a (List.mem_append_right _ (List.mem_singleton_self a))⟩
    · rw [if_neg hbefore]
      refine iff_of_true hmissing ?_
      rintro ⟨-, -, before', after', hsplit', hall⟩
      rw [hunique before' after' hsplit'] at hall
      exact hbefore fun b hb => hall b (List.mem_append_left _ hb)

/-- A rollback that is finished leaves the contents of the paths as they were exactly where no required
authority that was missing had been put in place. -/
theorem restoreBundle_rolledBack_iff
    (h : restoreBundle registry manifest restoreAbsence replies live = (live', .failedRolledBack)) :
    (∀ a ∈ registry.authorities, a.kind = .path → live' a.name = live a.name) ↔
      ∀ a ∈ registry.authorities, a.kind = .path → a.optional = false → live a.name = none →
        ¬ PutInPlace registry manifest restoreAbsence replies live a := by
  unfold restoreBundle at h
  split at h
  · cases h
  · rename_i hprepared
    have hload : loadExtractedManifest registry manifest = true := by
      simp only [Bool.not_eq_true', Bool.not_eq_false, Bool.and_eq_true] at hprepared
      exact hprepared.2
    split at h
    · cases h
    · split at h
      · split at h
        · cases h
        · cases h
      · rename_i hready
        have hpreflight : preflightRestoreAbsence registry manifest restoreAbsence live = true := by
          simp only [Bool.not_eq_true', Bool.not_eq_false, Bool.and_eq_true] at hready
          exact hready.1.2
        dsimp only at h
        split at h
        · cases h
        · split at h
          · cases h
          · -- the rollback has gone through for every authority
            have hrestored : ∀ a ∈ registry.authorities, a.kind = .path →
                live' a.name = if live a.name = none ∧ a.optional = false then
                  (restoreForward registry manifest restoreAbsence replies live).1 a.name
                else live a.name := fun a ha hkind => rollBack_ok ha hkind h
            constructor
            · intro hall a ha hkind hrequired hmissing
              rw [← restoreForward_missing hload hpreflight ha hkind hrequired hmissing]
              have hsame := hall a ha hkind
              rw [hrestored a ha hkind, if_pos ⟨hmissing, hrequired⟩, hmissing] at hsame
              exact hsame
            · intro hall a ha hkind
              rw [hrestored a ha hkind]
              split
              · rename_i hcase
                rw [hcase.1]
                exact (restoreForward_missing hload hpreflight ha hkind hcase.2 hcase.1).mpr
                  (hall a ha hkind hcase.2 hcase.1)
              · rfl

end

def demoRegistry : Registry := ⟨[⟨"documents".toList, .path, false, true⟩], by decide⟩

def demoReplies : Replies Nat :=
  let works : Text → Reply Nat := fun _ ↦ ⟨.works, none, true⟩
  ⟨true, true, true, true, true, true, works, true, false, true, true, true, true, true, true, works,
    true, true⟩

def demoRestore : Live Nat × JournalStatus :=
  restoreBundle demoRegistry [⟨"documents".toList, .captured, some (.tree 2)⟩] false demoReplies
    fun _ ↦ some 1

theorem restoreBundle_rolledBack_iff_demo : demoRestore.1 "documents".toList = some 1 := by
  have hdone : demoRestore.2 = .failedRolledBack := by decide
  have hkept := (restoreBundle_rolledBack_iff (Prod.ext rfl hdone)).mpr
    fun _ _ _ _ hmissing => absurd hmissing nofun
  exact hkept _ List.mem_cons_self rfl

end NixNas.State
