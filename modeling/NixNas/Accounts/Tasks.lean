import NixNas.Accounts.Plan

/-!
# What a task does to the accounts

A task changes one account at most.  Where it finds the account as the listing has shown it, the
account is then as the plan wants it, and its capability groups are the ones it had.
-/

open NixNas.Caddy NixNas.Identity

namespace NixNas.Accounts

def Directory.names (d : Directory) : List Text := d.accounts.map Account.username

def Task.changes (username : Text) : Task → Bool
  | .account a _ => a.username = username
  | .deactivate current => current.username = username
  | _ => false

def Task.Apart (t t' : Task) : Prop := ∀ username, t.changes username = true → t'.changes username = false

def Task.Current (d : Directory) : Task → Prop
  | .account a none => a.username ∉ d.names
  | .account a (some current) =>
    ∃ b ∈ d.accounts, b.username = a.username ∧ b.capabilities = current.capabilities
  | .deactivate current =>
    ∃ b ∈ d.accounts, b.username = current.username ∧ b.capabilities = current.capabilities
  | _ => True

def Matches (d : Directory) (a : PlannedAccount) : Prop :=
  ∃ b ∈ d.accounts, b.username = a.username ∧ b.active = a.active ∧ b.roles = a.groups ∧ b.managed = true

def Deactivated (d : Directory) (username : Text) : Prop :=
  ∀ b ∈ d.accounts, b.username = username → b.active = false ∧ b.roles = [disabledGroup]

variable {d : Directory} {t t' : Task} {a : PlannedAccount} {b current : Account}
  {cur : Option Account} {username : Text}
variable {capabilities roles : List Text} {todo : List Task}

theorem mem_patch_of_ne (change : Account → Account) (hname : ∀ a, (change a).username = a.username)
    (h : username ≠ b.username) : b ∈ (d.patch username change hname).accounts ↔ b ∈ d.accounts := by
  rw [mem_patch]
  constructor
  · rintro ⟨c, hc, heq⟩
    split at heq
    · rename_i hsame
      exact absurd (by rw [← heq, hname, hsame]) h
    · exact heq ▸ hc
  · intro hb
    exact ⟨b, hb, if_neg h.symm⟩

theorem mem_apply_of_not_changes (h : t.changes b.username = false) :
    b ∈ (t.apply d).accounts ↔ b ∈ d.accounts := by
  cases t with
  | reservedGroups | lost | password => exact Iff.rfl
  | deactivate current => exact mem_patch_of_ne current.disable (fun _ => rfl) (of_decide_eq_false h)
  | account a cur =>
    cases cur with
    | some current => exact mem_patch_of_ne (a.update current) (fun _ => rfl) (of_decide_eq_false h)
    | none =>
      rw [Task.apply, mem_post, or_iff_left]
      rintro ⟨rfl, -⟩
      exact of_decide_eq_false h rfl

theorem mem_names_apply_of_not_changes (h : t.changes username = false) :
    username ∈ (t.apply d).names ↔ username ∈ d.names := by
  unfold Directory.names
  rw [List.mem_map, List.mem_map]
  constructor
  · rintro ⟨b, hb, rfl⟩
    exact ⟨b, (mem_apply_of_not_changes h).mp hb, rfl⟩
  · rintro ⟨b, hb, rfl⟩
    exact ⟨b, (mem_apply_of_not_changes h).mpr hb, rfl⟩

theorem Matches.apply (h : Matches d a) (hother : t.changes a.username = false) :
    Matches (t.apply d) a := by
  obtain ⟨b, hb, hname, hrest⟩ := h
  exact ⟨b, (mem_apply_of_not_changes (hname ▸ hother)).mpr hb, hname, hrest⟩

theorem Deactivated.apply (h : Deactivated d username) (hother : t.changes username = false) :
    Deactivated (t.apply d) username := by
  intro b hb hname
  exact h b ((mem_apply_of_not_changes (hname ▸ hother)).mp hb) hname

theorem Task.Current.apply (h : t'.Current d) (hapart : t.Apart t') : t'.Current (t.apply d) := by
  have hother : ∀ username, t'.changes username = true → t.changes username = false := by
    intro username hchanges
    rw [← Bool.not_eq_true]
    intro hboth
    exact absurd hchanges (by rw [hapart username hboth]; exact Bool.false_ne_true)
  cases t' with
  | reservedGroups | lost | password => trivial
  | deactivate current =>
    obtain ⟨b, hb, hname, hrest⟩ := h
    have hb' := (mem_apply_of_not_changes (d := d) (hname ▸ hother _ (decide_eq_true rfl))).mpr hb
    exact ⟨b, hb', hname, hrest⟩
  | account a cur =>
    cases cur with
    | none =>
      show a.username ∉ (t.apply d).names
      rw [mem_names_apply_of_not_changes (hother _ (decide_eq_true rfl))]
      exact h
    | some current =>
      obtain ⟨b, hb, hname, hrest⟩ := h
      have hb' := (mem_apply_of_not_changes (d := d) (hname ▸ hother _ (decide_eq_true rfl))).mpr hb
      exact ⟨b, hb', hname, hrest⟩

theorem roles_append (hroles : ∀ g ∈ roles, g ∈ reservedGroups) :
    (capabilities.filter (· ∉ reservedGroups) ++ roles).filter (· ∈ reservedGroups) = roles := by
  rw [List.filter_append, List.filter_filter]
  have hnone : capabilities.filter (fun g ↦ decide (g ∈ reservedGroups) && decide (g ∉ reservedGroups)) = [] := by
    rw [List.filter_eq_nil_iff]
    intro g _
    simp
  rw [hnone, List.nil_append]
  exact List.filter_eq_self.mpr fun g hg => decide_eq_true (hroles g hg)

theorem capabilities_append (hroles : ∀ g ∈ roles, g ∈ reservedGroups) :
    (capabilities.filter (· ∉ reservedGroups) ++ roles).filter (· ∉ reservedGroups) =
      capabilities.filter (· ∉ reservedGroups) := by
  rw [List.filter_append, List.filter_filter]
  simp only [Bool.and_self]
  have hnone : roles.filter (· ∉ reservedGroups) = [] := by
    rw [List.filter_eq_nil_iff]
    intro g hg
    simpa using hroles g hg
  rw [hnone, List.append_nil]

theorem capabilities_update : (a.update current b).capabilities = current.capabilities :=
  capabilities_append a.roles

theorem capabilities_disable : (current.disable b).capabilities = current.capabilities :=
  capabilities_append (by decide : ∀ g ∈ [disabledGroup], g ∈ reservedGroups)

theorem roles_target : (a.target cur).roles = a.groups := by
  cases cur with
  | none => exact List.filter_eq_self.mpr fun g hg => decide_eq_true (a.roles g hg)
  | some current => exact roles_append a.roles

theorem mem_patch_self (change : Account → Account) (hname : ∀ a, (change a).username = a.username)
    (hb : b ∈ d.accounts) (h : b.username = username) :
    change b ∈ (d.patch username change hname).accounts := (mem_patch change hname).mpr ⟨b, hb, if_pos h⟩

theorem matches_account (h : (Task.account a cur).Current d) : Matches ((Task.account a cur).apply d) a := by
  cases cur with
  | none =>
    refine ⟨a.target none, ?_, rfl, rfl, roles_target, rfl⟩
    rw [Task.apply, mem_post]
    exact .inr ⟨rfl, h⟩
  | some current =>
    obtain ⟨b, hb, hname, -⟩ := h
    exact ⟨_, mem_patch_self (a.update current) (fun _ => rfl) hb hname, hname, rfl, roles_append a.roles, rfl⟩

theorem deactivated_deactivate : Deactivated ((Task.deactivate current).apply d) current.username := by
  intro b hb hname
  obtain ⟨c, -, heq⟩ := (mem_patch current.disable fun _ => rfl).mp hb
  split at heq
  · rw [← heq]
    exact ⟨rfl, roles_append (by decide)⟩
  · rename_i hne
    exact absurd (heq ▸ hname) hne

theorem administers_of_matches (h : Matches d a) (hgrants : a.grants = true) :
    Administers d a.username := by
  obtain ⟨b, hb, hname, hactive, hroles, -⟩ := h
  rw [PlannedAccount.grants, Bool.and_eq_true, List.contains_iff_mem, ← hroles] at hgrants
  refine ⟨b, hb, hname, ?_⟩
  unfold Account.administrator
  rw [hactive, hgrants.1, hname, a.safe, List.contains_iff_mem.mpr (List.mem_filter.mp hgrants.2).1]
  rfl

def Task.Spares (username : Text) : Task → Prop
  | .account a _ => a.username = username → a.grants = true
  | .deactivate current => current.username ≠ username
  | _ => True

theorem administers_apply (h : Administers d username) (hcurrent : t.Current d)
    (hspares : t.Spares username) : Administers (t.apply d) username := by
  cases hchanges : t.changes username with
  | false =>
    obtain ⟨b, hb, hname, hadministrator⟩ := h
    exact ⟨b, (mem_apply_of_not_changes (hname ▸ hchanges)).mpr hb, hname, hadministrator⟩
  | true =>
    cases t with
    | reservedGroups | lost | password => cases hchanges
    | deactivate current => exact absurd (of_decide_eq_true hchanges) hspares
    | account a cur =>
      obtain rfl : a.username = username := of_decide_eq_true hchanges
      exact administers_of_matches (matches_account hcurrent) (hspares rfl)

def HasAdministrator (d : Directory) : Prop := ∃ username, Administers d username

/-- There is an administrator before and after every task. -/
def Safe : Directory → List Task → Prop
  | d, [] => HasAdministrator d
  | d, t :: todo => HasAdministrator d ∧ Safe (t.apply d) todo

theorem Safe.administrator (h : Safe d todo) : HasAdministrator d := by
  cases todo with
  | nil => exact h
  | cons => exact h.1

theorem safe_of_spares (h : Administers d username)
    (hcurrent : ∀ t ∈ todo, t.Current d) (hapart : todo.Pairwise Task.Apart)
    (hspares : ∀ t ∈ todo, t.Spares username) : Safe d todo := by
  induction todo generalizing d with
  | nil => exact ⟨username, h⟩
  | cons t todo ih =>
    rw [List.pairwise_cons] at hapart
    have hhead := administers_apply h (hcurrent t List.mem_cons_self) (hspares t List.mem_cons_self)
    refine ⟨⟨username, h⟩, ih hhead ?_ hapart.2 fun t' ht' => hspares t' (List.mem_cons_of_mem _ ht')⟩
    intro t' ht'
    exact (hcurrent t' (List.mem_cons_of_mem _ ht')).apply (hapart.1 t' ht')

end NixNas.Accounts
