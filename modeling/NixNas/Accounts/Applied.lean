import NixNas.Accounts.Application
import NixNas.Accounts.Planned

/-!
# What a journal says of the accounts

A complete step says that its account is as the plan wants it, and no other task of the plan changes
that.
-/

open NixNas.Caddy NixNas.Identity

namespace NixNas.Accounts

variable {d start : Directory} {plan : Plan} {a : PlannedAccount} {b : Account} {t : Task}
  {todo : List Task} {j j' : Journal} {name other : StepName} {username : Text}
variable {name' : StepName}

/-! ## Steps that are complete -/

theorem stepComplete_completeStep : (j.completeStep name).stepComplete other = true ↔
    other = name ∨ j.stepComplete other = true := by
  rw [stepComplete_iff, stepStatus_of_steps rfl, stepComplete_iff]
  split
  · rename_i heq
    exact iff_of_true rfl (.inl heq)
  · rename_i hne
    exact (or_iff_right hne).symm

theorem stepComplete_of_record {status : StepStatus} (hsteps : j'.steps = j.record name status)
    (hstatus : status ≠ .complete) (h : j'.stepComplete other = true) : j.stepComplete other = true := by
  rw [stepComplete_iff, stepStatus_of_steps hsteps] at h
  rw [stepComplete_iff]
  split at h
  · exact absurd (Option.some.inj h) hstatus
  · exact h

/-- What the complete steps of a journal say of the accounts. -/
structure Applied (plan : Plan) (d : Directory) (j : Journal) : Prop where
  account : ∀ a ∈ plan.accounts, j.stepComplete (.account a.username) = true → Matches d a
  deactivate : ∀ username, j.stepComplete (.deactivate username) = true →
    username ∉ plan.accounts.map PlannedAccount.username ∧ Deactivated d username

theorem Applied.mono (h : Applied plan d j)
    (hle : ∀ name, j'.stepComplete name = true → j.stepComplete name = true) : Applied plan d j' where
  account := fun a ha hcomplete => h.account a ha (hle _ hcomplete)
  deactivate := fun username hcomplete => h.deactivate username (hle _ hcomplete)

theorem Applied.apply (h : Applied plan d j) (hfits : t.Fits plan) (hcurrent : t.Current d) :
    Applied plan (t.apply d) j := by
  constructor
  · intro a ha hcomplete
    cases hchanges : t.changes a.username with
    | false => exact (h.account a ha hcomplete).apply hchanges
    | true =>
      cases t with
      | reservedGroups | lost | password => cases hchanges
      | account a' current =>
        rw [← Plan.eq_of_username hfits ha (of_decide_eq_true hchanges)]
        exact matches_account hcurrent
      | deactivate current =>
        exact absurd (List.mem_map.mpr ⟨a, ha, (of_decide_eq_true hchanges).symm⟩) hfits
  · intro username hcomplete
    obtain ⟨hnot, hdeactivated⟩ := h.deactivate username hcomplete
    refine ⟨hnot, ?_⟩
    cases hchanges : t.changes username with
    | false => exact hdeactivated.apply hchanges
    | true =>
      cases t with
      | reservedGroups | lost | password => cases hchanges
      | account a' current =>
        exact absurd (List.mem_map.mpr ⟨a', hfits, of_decide_eq_true hchanges⟩) hnot
      | deactivate current =>
        rw [← of_decide_eq_true hchanges]
        exact deactivated_deactivate

/-- What the step of a task that is answered says of the accounts. -/
def Task.Done (d : Directory) : Task → Prop
  | .account a _ => Matches d a
  | .deactivate current => Deactivated d current.username
  | .lost _ => False
  | _ => True

theorem done_apply (hcurrent : t.Current d) (hfound : ∀ username, t ≠ .lost username) :
    t.Done (t.apply d) := by
  cases t with
  | reservedGroups | password => trivial
  | lost username => exact absurd rfl (hfound username)
  | account a current => exact matches_account hcurrent
  | deactivate current => exact deactivated_deactivate

theorem Applied.completeStep (h : Applied plan d j) (hfits : t.Fits plan) (hdone : t.Done d) :
    Applied plan d (j.completeStep t.step) := by
  constructor
  · intro a ha hcomplete
    rcases stepComplete_completeStep.mp hcomplete with hstep | hcomplete
    · cases t with
      | reservedGroups | password | deactivate => cases hstep
      | lost => exact hdone.elim
      | account a' current =>
        rw [Plan.eq_of_username ha hfits (StepName.account.inj hstep)]
        exact hdone
    · exact h.account a ha hcomplete
  · intro username hcomplete
    rcases stepComplete_completeStep.mp hcomplete with hstep | hcomplete
    · cases t with
      | reservedGroups | password | account => cases hstep
      | lost => exact hdone.elim
      | deactivate current =>
        obtain rfl := StepName.deactivate.inj hstep
        exact ⟨hfits, hdone⟩
    · exact h.deactivate username hcomplete

/-! ## Steps that are still to be done -/

/-- What the plan wants is complete in the journal, or among the tasks. -/
structure Pending (plan : Plan) (d : Directory) (j : Journal) (todo : List Task) : Prop where
  account : ∀ a ∈ plan.accounts,
    j.stepComplete (.account a.username) = true ∨ ∃ t ∈ todo, t.step = .account a.username
  deactivate : ∀ b ∈ plan.missing d,
    j.stepComplete (.deactivate b.username) = true ∨ ∃ t ∈ todo, t.step = .deactivate b.username

structure Met (plan : Plan) (d : Directory) : Prop where
  account : ∀ a ∈ plan.accounts, Matches d a
  missing : ∀ b ∈ plan.missing d, b.active = false ∧ b.roles = [disabledGroup]

theorem met_of_pending (h : Pending plan d j []) (happlied : Applied plan d j) : Met plan d where
  account := fun a ha => happlied.account a ha ((h.account a ha).resolve_right nofun)
  missing := fun b hb =>
    (happlied.deactivate _ ((h.deactivate b hb).resolve_right nofun)).2 b (mem_missing.mp hb).1 rfl

theorem pending_planTasks : Pending plan d j (planTasks j.stepComplete plan d) := by
  constructor
  · intro a ha
    cases hcomplete : j.stepComplete (.account a.username) with
    | true => exact .inl rfl
    | false =>
      have ht : .account a (d.find a.username) ∈ accountTasks j.stepComplete d a :=
        mem_accountTasks.mpr (.inr (.inl ⟨hcomplete, rfl⟩))
      exact .inr ⟨_, mem_planTasks.mpr (.inl ⟨a, ha, ht⟩), rfl⟩
  · intro b hb
    cases hcomplete : j.stepComplete (.deactivate b.username) with
    | true => exact .inl rfl
    | false => exact .inr ⟨_, mem_planTasks.mpr (.inr ⟨b, hb, hcomplete, rfl⟩), rfl⟩

theorem pending_step (h : j.stepComplete name' = true ∨ ∃ t' ∈ t :: todo, t'.step = name') :
    (j.completeStep t.step).stepComplete name' = true ∨ ∃ t' ∈ todo, t'.step = name' := by
  rcases h with hcomplete | ⟨t', ht', rfl⟩
  · exact .inl (stepComplete_completeStep.mpr (.inr hcomplete))
  · rcases List.mem_cons.mp ht' with rfl | ht'
    · exact .inl (stepComplete_completeStep.mpr (.inl rfl))
    · exact .inr ⟨t', ht', rfl⟩

theorem Pending.completeStep (h : Pending plan d j (t :: todo)) :
    Pending plan d (j.completeStep t.step) todo where
  account := fun a ha => pending_step (h.account a ha)
  deactivate := fun b hb => pending_step (h.deactivate b hb)

theorem started_step (h : j.stepComplete name' = true ∨ ∃ t' ∈ t :: todo, t'.step = name') :
    (j.startStep t.step).stepComplete name' = true ∨ ∃ t' ∈ t :: todo, t'.step = name' := by
  by_cases heq : name' = t.step
  · exact .inr ⟨t, List.mem_cons_self, heq.symm⟩
  · rcases h with hcomplete | hpending
    · apply Or.inl
      rw [stepComplete_iff, stepStatus_of_steps rfl, if_neg heq]
      exact stepComplete_iff.mp hcomplete
    · exact .inr hpending

theorem Pending.startStep (h : Pending plan d j (t :: todo)) :
    Pending plan d (j.startStep t.step) (t :: todo) where
  account := fun a ha => started_step (h.account a ha)
  deactivate := fun b hb => started_step (h.deactivate b hb)

theorem missing_apply (hfits : t.Fits plan) (hb : b ∈ plan.missing (t.apply d)) :
    ∃ b' ∈ plan.missing d, b'.username = b.username := by
  obtain ⟨hmem, hflag, hnot, hbootstrap, hmanaged⟩ := mem_missing.mp hb
  cases hchanges : t.changes b.username with
  | false =>
    have hmem' := (mem_apply_of_not_changes hchanges).mp hmem
    exact ⟨b, mem_missing.mpr ⟨hmem', hflag, hnot, hbootstrap, hmanaged⟩, rfl⟩
  | true =>
    cases t with
    | reservedGroups | lost | password => cases hchanges
    | account a current =>
      exact absurd (List.mem_map.mpr ⟨a, hfits, of_decide_eq_true hchanges⟩) hnot
    | deactivate current =>
      obtain ⟨b', hb', heq⟩ := (mem_patch current.disable fun _ => rfl).mp hmem
      have hsame : b'.username = b.username ∧ b'.managed = b.managed := by
        rw [← heq]
        split <;> exact ⟨rfl, rfl⟩
      refine ⟨b', mem_missing.mpr ⟨hb', hflag, ?_, ?_, ?_⟩, hsame.1⟩
      · exact hsame.1 ▸ hnot
      · exact hsame.1 ▸ hbootstrap
      · exact hsame.2.trans hmanaged

theorem Pending.apply (h : Pending plan d j todo) (hfits : t.Fits plan) :
    Pending plan (t.apply d) j todo where
  account := h.account
  deactivate := by
    intro b hb
    obtain ⟨b', hb', hname⟩ := missing_apply hfits hb
    rw [← hname]
    exact h.deactivate b' hb'

/-! ## Capability groups -/

/-- No account is gone but `akadmin`, and none has got or lost a capability group. -/
structure Kept (start d : Directory) : Prop where
  names : ∀ name ∈ start.names, name ≠ bootstrapName → name ∈ d.names
  capabilities : ∀ b ∈ d.accounts, b.capabilities = (start.find b.username).elim [] Account.capabilities

theorem kept_refl (d : Directory) : Kept d d where
  names := fun _ hname _ => hname
  capabilities := by
    intro b hb
    rw [find_eq_some.mpr ⟨hb, rfl⟩]
    rfl

theorem mem_names_patch (name : Text) (change : Account → Account)
    (hname : ∀ a, (change a).username = a.username) (h : username ∈ d.names) :
    username ∈ (d.patch name change hname).names := by
  obtain ⟨b, hb, rfl⟩ := List.mem_map.mp h
  by_cases heq : b.username = name
  · exact List.mem_map.mpr ⟨change b, mem_patch_self change hname hb heq, hname b⟩
  · exact List.mem_map.mpr ⟨b, (mem_patch_of_ne change hname (Ne.symm heq)).mpr hb, rfl⟩

theorem mem_names_apply (h : username ∈ d.names) : username ∈ (t.apply d).names := by
  cases t with
  | reservedGroups | lost | password => exact h
  | deactivate current => exact mem_names_patch _ current.disable (fun _ => rfl) h
  | account a current =>
    cases current with
    | none =>
      obtain ⟨b, hb, rfl⟩ := List.mem_map.mp h
      exact List.mem_map.mpr ⟨b, mem_post.mpr (.inl hb), rfl⟩
    | some current => exact mem_names_patch _ (a.update current) (fun _ => rfl) h

theorem Kept.patch {current : Account} (h : Kept start d) (change : Account → Account)
    (hname : ∀ a, (change a).username = a.username)
    (hcurrent : ∃ b ∈ d.accounts, b.username = username ∧ b.capabilities = current.capabilities)
    (hchange : ∀ b, (change b).capabilities = current.capabilities)
    (hb : b ∈ (d.patch username change hname).accounts) :
    b.capabilities = (start.find b.username).elim [] Account.capabilities := by
  obtain ⟨b', hb', heq⟩ := (mem_patch change hname).mp hb
  split at heq
  · rename_i hsame
    obtain ⟨c, hc, hcname, hcapabilities⟩ := hcurrent
    obtain rfl := eq_of_username hb' hc (hsame.trans hcname.symm)
    rw [← heq, hchange, hname, ← hcapabilities]
    exact h.capabilities _ hb'
  · rw [← heq]
    exact h.capabilities _ hb'

theorem Kept.apply (h : Kept start d) (hcurrent : t.Current d) : Kept start (t.apply d) where
  names := fun name hname hbootstrap => mem_names_apply (h.names name hname hbootstrap)
  capabilities := by
    intro b hb
    cases t with
    | reservedGroups | lost | password => exact h.capabilities b hb
    | deactivate current =>
      exact h.patch current.disable (fun _ => rfl) hcurrent (fun _ => capabilities_disable) hb
    | account a current =>
      cases current with
      | some current =>
        exact h.patch (a.update current) (fun _ => rfl) hcurrent (fun _ => capabilities_update) hb
      | none =>
        rcases mem_post.mp hb with hb | ⟨rfl, -⟩
        · exact h.capabilities b hb
        · have hnone : start.find a.username = none := by
            rw [Option.eq_none_iff_forall_ne_some]
            intro c hfind
            obtain ⟨hc, hname⟩ := find_eq_some.mp hfind
            exact hcurrent (h.names _ (List.mem_map.mpr ⟨c, hc, hname⟩) a.notBootstrap)
          show (a.target none).capabilities = (start.find a.username).elim [] Account.capabilities
          rw [hnone]
          show a.groups.filter (· ∉ reservedGroups) = []
          rw [List.filter_eq_nil_iff]
          intro g hg
          simpa using a.roles g hg

/-! ## The reserved groups -/

theorem capabilities_join : b.join.capabilities = b.capabilities := by
  show (b.groups ++ [adminGroup]).filter (· ∉ reservedGroups) = b.groups.filter (· ∉ reservedGroups)
  rw [List.filter_append, show [adminGroup].filter (· ∉ reservedGroups) = [] by decide, List.append_nil]

theorem HasAdministrator.group (h : HasAdministrator d) (request : GroupRequest) :
    HasAdministrator (request.apply d) := by
  cases request with
  | create | correct => exact h
  | addUser =>
    obtain ⟨username, b, hb, hname, hadministrator⟩ := h
    refine ⟨username, if b.username = bootstrapName then b.join else b, ?_, ?_, ?_⟩
    · exact (mem_patch Account.join fun _ => rfl).mpr ⟨b, hb, rfl⟩
    · split <;> exact hname
    · split
      · unfold Account.administrator Account.join at *
        simp only [Bool.and_eq_true, List.contains_iff_mem, List.mem_append] at hadministrator ⊢
        exact ⟨hadministrator.1, .inl hadministrator.2⟩
      · exact hadministrator

/-- `akadmin` is in no plan, and is only added while it is active. -/
theorem Applied.group {request : GroupRequest} (h : Applied plan d j) (hdue : request.due d = true) :
    Applied plan (request.apply d) j := by
  cases request with
  | create | correct => exact h
  | addUser =>
    constructor
    · intro a ha hcomplete
      obtain ⟨b, hb, hname, hrest⟩ := h.account a ha hcomplete
      have hother : bootstrapName ≠ b.username := hname ▸ a.notBootstrap.symm
      exact ⟨b, (mem_patch_of_ne Account.join (fun _ => rfl) hother).mpr hb, hname, hrest⟩
    · intro username hcomplete
      obtain ⟨hnot, hdeactivated⟩ := h.deactivate username hcomplete
      have hother : username ≠ bootstrapName := by
        rintro rfl
        rw [GroupRequest.due, Bool.and_eq_true] at hdue
        obtain ⟨b, hfind, hactive⟩ := (Option.any_eq_true ..).mp hdue.1
        obtain ⟨hb, hname⟩ := find_eq_some.mp hfind
        rw [(hdeactivated b hb hname).1] at hactive
        cases hactive
      refine ⟨hnot, fun b hb hname => hdeactivated b ?_ hname⟩
      exact (mem_patch_of_ne Account.join (fun _ => rfl) (hname ▸ hother.symm)).mp hb

theorem Kept.group (h : Kept start d) (request : GroupRequest) : Kept start (request.apply d) := by
  cases request with
  | create | correct => exact h
  | addUser =>
    constructor
    · exact fun name hname hother => mem_names_patch _ Account.join (fun _ => rfl) (h.names name hname hother)
    · intro b hb
      obtain ⟨b', hb', heq⟩ := (mem_patch Account.join fun _ => rfl).mp hb
      rw [← heq]
      split
      · rw [capabilities_join]
        exact h.capabilities b' hb'
      · exact h.capabilities b' hb'

/-! ## The retirement of `akadmin` -/

theorem retirable_administers (h : retirable d username = true) :
    Administers d username ∧ username ≠ bootstrapName := by
  unfold retirable at h
  simp only [Bool.and_eq_true, decide_eq_true_eq] at h
  obtain ⟨⟨⟨hsafe, hbootstrap⟩, hmember⟩, -⟩ := h
  obtain ⟨b, hfind, hadministrator⟩ := (Option.any_eq_true ..).mp hmember
  obtain ⟨hb, hname⟩ := find_eq_some.mp hfind
  rw [Bool.and_eq_true] at hadministrator
  refine ⟨⟨b, hb, hname, ?_⟩, hbootstrap⟩
  unfold Account.administrator
  rw [hadministrator.1, hadministrator.2, hname, hsafe]
  rfl

theorem Matches.delete (h : Matches d a) : Matches (d.delete bootstrapName) a := by
  obtain ⟨b, hb, hname, hrest⟩ := h
  exact ⟨b, mem_delete.mpr ⟨hb, hname ▸ a.notBootstrap⟩, hname, hrest⟩

theorem Applied.delete (h : Applied plan d j) : Applied plan (d.delete bootstrapName) j where
  account := fun a ha hcomplete => (h.account a ha hcomplete).delete
  deactivate := fun username hcomplete =>
    ⟨(h.deactivate username hcomplete).1,
      fun b hb => (h.deactivate username hcomplete).2 b (mem_delete.mp hb).1⟩

theorem Met.delete (h : Met plan d) : Met plan (d.delete bootstrapName) where
  account := fun a ha => (h.account a ha).delete
  missing := by
    intro b hb
    obtain ⟨hmem, hrest⟩ := mem_missing.mp hb
    exact h.missing b (mem_missing.mpr ⟨(mem_delete.mp hmem).1, hrest⟩)

theorem Kept.delete (h : Kept start d) : Kept start (d.delete bootstrapName) where
  names := by
    intro name hname hbootstrap
    obtain ⟨b, hb, rfl⟩ := List.mem_map.mp (h.names name hname hbootstrap)
    exact List.mem_map.mpr ⟨b, mem_delete.mpr ⟨hb, hbootstrap⟩, rfl⟩
  capabilities := fun b hb => h.capabilities b (mem_delete.mp hb).1

end NixNas.Accounts
