import NixNas.Accounts.Tasks

/-!
# The tasks of a plan behind the guard

There is an administrator behind each of them: an account that the plan makes one comes first, or one
that the guard counts is named by no task.
-/

open NixNas.Caddy NixNas.Identity

namespace NixNas.Accounts

variable {d : Directory} {plan : Plan} {a a' : PlannedAccount} {t : Task} {todo : List Task}
  {complete : StepName → Bool} {username : Text}

def Task.Fits (plan : Plan) : Task → Prop
  | .account a _ => a ∈ plan.accounts
  | .deactivate current => current.username ∉ plan.accounts.map PlannedAccount.username
  | _ => True

theorem Plan.eq_of_username (ha : a ∈ plan.accounts) (ha' : a' ∈ plan.accounts)
    (h : a.username = a'.username) : a = a' := List.inj_on_of_nodup_map plan.nodup ha ha' h

theorem Task.Fits.spares (h : t.Fits plan) (ha : a ∈ plan.accounts) (hgrants : a.grants = true) :
    t.Spares a.username := by
  cases t with
  | reservedGroups | lost | password => trivial
  | account a' =>
    intro hname
    rw [Plan.eq_of_username h ha hname]
    exact hgrants
  | deactivate current =>
    intro hname
    exact h (List.mem_map.mpr ⟨a, ha, hname.symm⟩)

theorem mem_orderedAccounts : a ∈ orderedAccounts plan d ↔ a ∈ plan.accounts := by
  unfold orderedAccounts
  simp only [List.mem_append, List.mem_filter, decide_eq_true_eq, ← and_or_left]
  apply and_iff_left_of_imp
  intro _
  unfold writePriority
  split
  · exact .inl (.inl rfl)
  · split
    · exact .inr rfl
    · exact .inl (.inr rfl)

theorem nodup_orderedAccounts : (orderedAccounts plan d).Nodup := by
  have hnodup := plan.nodup.of_map
  have hdisjoint : ∀ m n : ℕ, m ≠ n →
      (plan.accounts.filter (writePriority d · = m)).Disjoint (plan.accounts.filter (writePriority d · = n)) := by
    intro m n hne a hm hn
    rw [List.mem_filter, decide_eq_true_eq] at hm hn
    exact hne (hm.2.symm.trans hn.2)
  unfold orderedAccounts
  apply List.Nodup.append
  · exact (hnodup.filter _).append (hnodup.filter _) (hdisjoint 0 1 (by decide))
  · exact hnodup.filter _
  · rw [List.disjoint_append_left]
    exact ⟨hdisjoint 0 2 (by decide), hdisjoint 1 2 (by decide)⟩

theorem mem_accountTasks : t ∈ accountTasks complete d a ↔
    (complete (.account a.username) = true ∧ d.find a.username = none ∧ t = .lost a.username) ∨
      (complete (.account a.username) = false ∧ t = .account a (d.find a.username)) ∨
        a.password = true ∧ t = .password a.username := by
  unfold accountTasks
  cases complete (.account a.username) <;> cases d.find a.username <;> cases a.password <;> simp

theorem changes_accountTasks (h : t ∈ accountTasks complete d a) (hchanges : t.changes username = true) :
    a.username = username := by
  rcases mem_accountTasks.mp h with ⟨-, -, rfl⟩ | ⟨-, rfl⟩ | ⟨-, rfl⟩
  · cases hchanges
  · exact of_decide_eq_true hchanges
  · cases hchanges

theorem fits_accountTasks (h : t ∈ accountTasks complete d a) (ha : a ∈ plan.accounts) : t.Fits plan := by
  rcases mem_accountTasks.mp h with ⟨-, -, rfl⟩ | ⟨-, rfl⟩ | ⟨-, rfl⟩
  · trivial
  · exact ha
  · trivial

theorem current_find : (Task.account a (d.find a.username)).Current d := by
  cases hfind : d.find a.username with
  | none =>
    intro hmem
    obtain ⟨b, hb, hname⟩ := List.mem_map.mp hmem
    rw [find_eq_some.mpr ⟨hb, hname⟩] at hfind
    cases hfind
  | some current =>
    obtain ⟨hmem, hname⟩ := find_eq_some.mp hfind
    exact ⟨current, hmem, hname, rfl⟩

theorem current_accountTasks (h : t ∈ accountTasks complete d a) : t.Current d := by
  rcases mem_accountTasks.mp h with ⟨-, -, rfl⟩ | ⟨-, rfl⟩ | ⟨-, rfl⟩
  · trivial
  · exact current_find
  · trivial

theorem apart_accountTasks : (accountTasks complete d a).Pairwise Task.Apart := by
  unfold accountTasks
  rw [List.pairwise_append]
  refine ⟨?_, ?_, ?_⟩
  · split
    · split
      · exact .nil
      · exact List.pairwise_singleton ..
    · exact List.pairwise_singleton ..
  · split
    · exact List.pairwise_singleton ..
    · exact .nil
  · intro t _ t' ht' username _
    split at ht'
    · obtain rfl := List.mem_singleton.mp ht'
      rfl
    · cases ht'

theorem mem_missing {b : Account} : b ∈ plan.missing d ↔ b ∈ d.accounts ∧ plan.deactivateMissing = true ∧
    b.username ∉ plan.accounts.map PlannedAccount.username ∧ b.username ≠ bootstrapName ∧
      b.managed = true := by
  unfold Plan.missing
  split
  · rename_i h
    rw [List.mem_filter]
    simp only [Bool.and_eq_true, decide_eq_true_eq, h, true_and, and_assoc]
  · rename_i h
    constructor
    · nofun
    · intro hb
      exact absurd hb.2.1 h

theorem mem_planTasks : t ∈ planTasks complete plan d ↔
    (∃ a ∈ plan.accounts, t ∈ accountTasks complete d a) ∨
      ∃ b ∈ plan.missing d, complete (.deactivate b.username) = false ∧ t = .deactivate b := by
  unfold planTasks
  rw [List.mem_append, List.mem_flatMap, List.mem_map]
  simp only [mem_orderedAccounts, List.mem_filter, Bool.not_eq_true', and_assoc, @eq_comm _ _ t]

theorem fits_planTasks (h : t ∈ planTasks complete plan d) : t.Fits plan := by
  rcases mem_planTasks.mp h with ⟨a, ha, ht⟩ | ⟨b, hb, -, rfl⟩
  · exact fits_accountTasks ht ha
  · exact (mem_missing.mp hb).2.2.1

theorem current_planTasks (h : t ∈ planTasks complete plan d) : t.Current d := by
  rcases mem_planTasks.mp h with ⟨a, -, ht⟩ | ⟨b, hb, -, rfl⟩
  · exact current_accountTasks ht
  · exact ⟨b, (mem_missing.mp hb).1, rfl, rfl⟩

theorem apart_planTasks (complete : StepName → Bool) (plan : Plan) (d : Directory) :
    (planTasks complete plan d).Pairwise Task.Apart := by
  unfold planTasks
  rw [List.pairwise_append, List.pairwise_flatMap]
  refine ⟨⟨fun a _ => apart_accountTasks, ?_⟩, ?_, ?_⟩
  · apply nodup_orderedAccounts.imp_of_mem
    intro a a' ha ha' hne t ht t' ht' username hchanges
    rw [← Bool.not_eq_true]
    intro hchanges'
    have hsame := (changes_accountTasks ht hchanges).trans (changes_accountTasks ht' hchanges').symm
    exact hne (Plan.eq_of_username (mem_orderedAccounts.mp ha) (mem_orderedAccounts.mp ha') hsame)
  · rw [List.pairwise_map]
    have hnodup : (plan.missing d).Pairwise fun b b' ↦ b.username ≠ b'.username := by
      unfold Plan.missing
      split
      · exact (List.pairwise_map.mp d.nodup).filter _
      · exact .nil
    apply (hnodup.filter _).imp
    intro b b' hne username hchanges
    rw [Task.changes, decide_eq_true_eq] at hchanges
    exact decide_eq_false (hchanges ▸ hne.symm)
  · intro t ht t' ht' username hchanges
    obtain ⟨a, ha, ht⟩ := List.mem_flatMap.mp ht
    obtain ⟨b, hb, rfl⟩ := List.mem_map.mp ht'
    have hnot := (mem_missing.mp (List.mem_filter.mp hb).1).2.2.1
    apply decide_eq_false
    rintro rfl
    exact hnot (List.mem_map.mpr ⟨a, mem_orderedAccounts.mp ha, changes_accountTasks ht hchanges⟩)

/-- What the tasks still to be done keep to, where `administered` says that an administrator is given. -/
structure Planned (administered : Prop) (plan : Plan) (d : Directory) (todo : List Task) : Prop where
  safe : administered → Safe d todo
  fits : ∀ t ∈ todo, t.Fits plan
  current : ∀ t ∈ todo, t.Current d
  apart : todo.Pairwise Task.Apart

theorem Planned.next {administered : Prop} (h : Planned administered plan d (t :: todo)) :
    Planned administered plan (t.apply d) todo where
  safe := fun hgiven => (h.safe hgiven).2
  fits := fun t' ht' => h.fits t' (List.mem_cons_of_mem _ ht')
  current := fun t' ht' =>
    (h.current t' (List.mem_cons_of_mem _ ht')).apply ((List.pairwise_cons.mp h.apart).1 t' ht')
  apart := (List.pairwise_cons.mp h.apart).2

theorem resulting_of_not_grants {accounts : List PlannedAccount} {names : List Text}
    (hnone : ∀ a ∈ accounts, a.grants = false)
    (h : username ∈ accounts.foldl (fun names a ↦
      if a.grants then a.username :: names else names.filter (· ≠ a.username)) names) :
    username ∈ names ∧ ∀ a ∈ accounts, a.username ≠ username := by
  induction accounts generalizing names with
  | nil => exact ⟨h, nofun⟩
  | cons a accounts ih =>
    rw [List.foldl_cons, hnone a List.mem_cons_self] at h
    obtain ⟨hmem, hrest⟩ := ih (fun a' ha' => hnone a' (List.mem_cons_of_mem _ ha')) h
    rw [if_neg Bool.false_ne_true, List.mem_filter, decide_eq_true_eq] at hmem
    exact ⟨hmem.1, List.forall_mem_cons.mpr ⟨hmem.2.symm, hrest⟩⟩

theorem exists_spared (complete : StepName → Bool) (hnone : ∀ a ∈ plan.accounts, a.grants = false)
    (hguard : resultingAdministrators plan d ≠ []) :
    ∃ username, Administers d username ∧ ∀ t ∈ planTasks complete plan d, t.Spares username := by
  obtain ⟨username, hmem⟩ := List.exists_mem_of_ne_nil _ hguard
  unfold resultingAdministrators at hmem
  rw [List.mem_filter, decide_eq_true_eq] at hmem
  obtain ⟨hcounted, hother⟩ := resulting_of_not_grants hnone hmem.1
  refine ⟨username, mem_currentAdministrators.mp hcounted, ?_⟩
  intro t ht
  rcases mem_planTasks.mp ht with ⟨a, ha, ht⟩ | ⟨b, hb, -, rfl⟩
  · rcases mem_accountTasks.mp ht with ⟨-, -, rfl⟩ | ⟨-, rfl⟩ | ⟨-, rfl⟩
    · trivial
    · exact fun hname => absurd hname (hother a ha)
    · trivial
  · rintro rfl
    exact hmem.2 (List.mem_map_of_mem hb)

theorem planTasks_of_grants (d : Directory) (ha : a ∈ plan.accounts) (hgrants : a.grants = true)
    (hall : ∀ a ∈ plan.accounts, a.grants = true → complete (.account a.username) = false) :
    ∃ first ∈ plan.accounts, first.grants = true ∧
      ∃ todo, planTasks complete plan d = .account first (d.find first.username) :: todo := by
  have hpriority : ∀ a : PlannedAccount, writePriority d a = 0 → a.grants = true := by
    intro a h
    unfold writePriority at h
    split at h
    · assumption
    · split at h <;> cases h
  have hmem : a ∈ plan.accounts.filter (writePriority d · = 0) :=
    List.mem_filter.mpr ⟨ha, decide_eq_true (if_pos hgrants)⟩
  cases hfirst : plan.accounts.filter (writePriority d · = 0) with
  | nil =>
    rw [hfirst] at hmem
    cases hmem
  | cons first rest =>
    have hin : first ∈ plan.accounts.filter (writePriority d · = 0) := by
      rw [hfirst]
      exact List.mem_cons_self
    rw [List.mem_filter, decide_eq_true_eq] at hin
    have hfirstGrants := hpriority first hin.2
    refine ⟨first, hin.1, hfirstGrants, ?_⟩
    unfold planTasks orderedAccounts
    rw [hfirst]
    have htasks : accountTasks complete d first =
        .account first (d.find first.username) :: if first.password then [.password first.username] else [] := by
      unfold accountTasks
      rw [hall first hin.1 hfirstGrants]
      rfl
    simp only [List.cons_append, List.flatMap_cons, htasks]
    exact ⟨_, rfl⟩

theorem safe_planTasks (h : HasAdministrator d) (hguard : resultingAdministrators plan d ≠ [])
    (hdone : ∀ a ∈ plan.accounts, complete (.account a.username) = true → Matches d a) :
    Safe d (planTasks complete plan d) := by
  have hfits : ∀ t ∈ planTasks complete plan d, t.Fits plan := fun _ => fits_planTasks
  have hcurrent : ∀ t ∈ planTasks complete plan d, t.Current d := fun _ => current_planTasks
  have hapart := apart_planTasks complete plan d
  by_cases hgrants : ∃ a ∈ plan.accounts, a.grants = true
  · by_cases hcomplete : ∃ a ∈ plan.accounts, a.grants = true ∧ complete (.account a.username) = true
    · -- An earlier run has made one.
      obtain ⟨a, ha, hgrants, hcomplete⟩ := hcomplete
      exact safe_of_spares (administers_of_matches (hdone a ha hcomplete) hgrants) hcurrent hapart
        fun t ht => (hfits t ht).spares ha hgrants
    · -- The first task makes one.
      obtain ⟨a, ha, hgrants⟩ := hgrants
      obtain ⟨first, hfirst, hfirstGrants, todo, htodo⟩ := planTasks_of_grants d ha hgrants
        fun a ha hgrants => Bool.eq_false_iff.mpr fun hc => hcomplete ⟨a, ha, hgrants, hc⟩
      rw [htodo] at hfits hcurrent hapart ⊢
      rw [List.pairwise_cons] at hapart
      have hmatches := matches_account (hcurrent _ List.mem_cons_self)
      refine ⟨h, safe_of_spares (administers_of_matches hmatches hfirstGrants) ?_ hapart.2 ?_⟩
      · intro t ht
        exact (hcurrent t (List.mem_cons_of_mem _ ht)).apply (hapart.1 t ht)
      · intro t ht
        exact (hfits t (List.mem_cons_of_mem _ ht)).spares hfirst hfirstGrants
  · have hnone : ∀ a ∈ plan.accounts, a.grants = false :=
      fun a ha => Bool.eq_false_iff.mpr fun hg => hgrants ⟨a, ha, hg⟩
    obtain ⟨username, hadministers, hspares⟩ := exists_spared complete hnone hguard
    exact safe_of_spares hadministers hcurrent hapart hspares

end NixNas.Accounts
