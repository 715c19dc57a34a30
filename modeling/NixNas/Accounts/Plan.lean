import NixNas.Accounts.Directory

/-!
# Account plans (`normalized_account_plan` and the requests of `apply_account_plan`)

A plan names accounts with their roles.  It comes to a list of tasks: first the accounts that are to
be administrators, then the others, the present administrators last, and then the accounts of
earlier plans that the plan does not name.
-/

open NixNas.Caddy NixNas.Identity

namespace NixNas.Accounts

/-- An account as the file has it; its groups are stripped and not blank. -/
structure RawAccount where
  username : Text
  active : Bool
  groups : List Text
  /-- A password is set. -/
  password : Bool
  deriving DecidableEq, Repr

/-- A plan as the file has it.  Where two are the same, so are their fingerprints. -/
structure RawPlan where
  accounts : List RawAccount
  deactivateMissing : Bool
  deriving DecidableEq, Repr

inductive PlanError where
  | username
  | bootstrap
  | nonRoles (groups : List Text)
  | disabledAdministrator
  | duplicates (usernames : List Text)
  deriving DecidableEq, Repr

/-- `sorted(names)` of a set. -/
def sortedNames (names : List Text) : List Text := names.dedup.insertionSort fun a b ↦ a ≤ b

structure PlannedAccount where
  username : Text
  active : Bool
  groups : List Text
  password : Bool
  notBootstrap : username ≠ bootstrapName
  safe : isUsername username = true
  roles : ∀ g ∈ groups, g ∈ reservedGroups
  deriving DecidableEq

theorem mem_sortedNames {names : List Text} {name : Text} : name ∈ sortedNames names ↔ name ∈ names := by
  unfold sortedNames
  rw [List.mem_insertionSort, List.mem_dedup]

def activeRoles (groups : List Text) : List Text :=
  let groups := groups.filter (· ≠ disabledGroup)
  sortedNames (if adminGroup ∈ groups ∨ guestGroup ∈ groups then groups else userGroup :: groups)

theorem activeRoles_reserved {groups : List Text} (h : groups.filter (· ∉ reservedGroups) = []) :
    ∀ g ∈ activeRoles groups, g ∈ reservedGroups := by
  have hroles : ∀ g ∈ groups.filter (· ≠ disabledGroup), g ∈ reservedGroups := by
    intro g hg
    simpa using List.filter_eq_nil_iff.mp h g (List.mem_filter.mp hg).1
  intro g hg
  unfold activeRoles at hg
  rw [mem_sortedNames] at hg
  split at hg
  · exact hroles g hg
  · rcases List.mem_cons.mp hg with rfl | hg
    · decide
    · exact hroles g hg

def normalizedAccountPlan (raw : RawAccount) : Except PlanError PlannedAccount :=
  if hsafe : isUsername raw.username = true then
    if hbootstrap : raw.username = bootstrapName then .error .bootstrap
    else
      if hunknown : raw.groups.filter (· ∉ reservedGroups) = [] then
        if raw.active then
          .ok ⟨raw.username, true, activeRoles raw.groups, raw.password, hbootstrap, hsafe,
            activeRoles_reserved hunknown⟩
        else if adminGroup ∈ raw.groups then .error .disabledAdministrator
        else .ok ⟨raw.username, false, [disabledGroup], raw.password, hbootstrap, hsafe, by decide⟩
      else .error (.nonRoles (sortedNames (raw.groups.filter (· ∉ reservedGroups))))
  else .error .username

structure Plan where
  accounts : List PlannedAccount
  deactivateMissing : Bool
  nodup : (accounts.map PlannedAccount.username).Nodup
  deriving DecidableEq

/-- What `apply_account_plan` reads of the plan before it opens the journal. -/
def RawPlan.plan (raw : RawPlan) : Except PlanError Plan := do
  let accounts ← raw.accounts.mapM normalizedAccountPlan
  let usernames := accounts.map PlannedAccount.username
  if h : usernames.Nodup then .ok ⟨accounts, raw.deactivateMissing, h⟩
  else .error (.duplicates (sortedNames (usernames.filter (1 < usernames.count ·))))

def PlannedAccount.grants (a : PlannedAccount) : Bool := a.active && a.groups.contains adminGroup

def Plan.missing (plan : Plan) (d : Directory) : List Account :=
  if plan.deactivateMissing then
    d.accounts.filter fun a ↦ decide (a.username ∉ plan.accounts.map PlannedAccount.username) &&
      decide (a.username ≠ bootstrapName) && a.managed
  else []

def resultingAdministrators (plan : Plan) (d : Directory) : List Text :=
  let planned := plan.accounts.foldl (fun names a ↦
    if a.grants then a.username :: names else names.filter (· ≠ a.username)) (currentAdministrators d)
  planned.filter fun name ↦ name ∉ (plan.missing d).map Account.username

inductive StepName where
  | reservedGroups
  | account (username : Text)
  | password (username : Text)
  | deactivate (username : Text)
  deriving DecidableEq, Repr

inductive Task where
  /-- The reserved groups are made sure of, by requests of their own. -/
  | reservedGroups
  | account (a : PlannedAccount) (current : Option Account)
  /-- The journal has the account complete, and it is not there. -/
  | lost (username : Text)
  | password (username : Text)
  | deactivate (current : Account)
  deriving DecidableEq

def Task.step : Task → StepName
  | .reservedGroups => .reservedGroups
  | .account a _ => .account a.username
  | .lost username => .account username
  | .password username => .password username
  | .deactivate current => .deactivate current.username

def Account.capabilities (a : Account) : List Text := a.groups.filter (· ∉ reservedGroups)

def Account.roles (a : Account) : List Text := a.groups.filter (· ∈ reservedGroups)

def PlannedAccount.target (a : PlannedAccount) (current : Option Account) : Account :=
  ⟨a.username, a.active, (current.elim [] Account.capabilities) ++ a.groups, true⟩

def PlannedAccount.update (a : PlannedAccount) (current b : Account) : Account :=
  { b with active := a.active, groups := (a.target (some current)).groups, managed := true }

def Account.disable (current b : Account) : Account :=
  { b with active := false, groups := current.capabilities ++ [disabledGroup] }

def Task.apply (d : Directory) : Task → Directory
  | .account a none => d.post (a.target none)
  | .account a (some current) => d.patch a.username (a.update current) fun _ => rfl
  | .deactivate current => d.patch current.username current.disable fun _ => rfl
  | _ => d

/-- The mutations of `ensure_groups`. -/
inductive GroupRequest where
  | create (name : Text)
  /-- The superuser flag of a group. -/
  | correct (name : Text)
  /-- `akadmin` is added to the administrators. -/
  | addUser
  deriving DecidableEq, Repr

/-- The listings can ask for the mutation; the groups themselves are no part of the accounts. -/
def GroupRequest.due (d : Directory) : GroupRequest → Bool
  | .create name | .correct name => name ∈ reservedGroups
  | .addUser =>
    (d.find bootstrapName).any Account.active && d.accounts.all fun a ↦ !a.groups.contains adminGroup

def Account.join (a : Account) : Account := { a with groups := a.groups ++ [adminGroup] }

def GroupRequest.apply (d : Directory) : GroupRequest → Directory
  | .addUser => d.patch bootstrapName Account.join fun _ => rfl
  | _ => d

def accountTasks (complete : StepName → Bool) (d : Directory) (a : PlannedAccount) : List Task :=
  let current := d.find a.username
  (if complete (.account a.username) then
      if current.isSome then [] else [.lost a.username]
    else [.account a current]) ++
    if a.password then [.password a.username] else []

def writePriority (d : Directory) (a : PlannedAccount) : ℕ :=
  if a.grants then 0 else if a.username ∈ currentAdministrators d then 2 else 1

/-- `ordered_accounts`: by priority, and else in the order of the plan. -/
def orderedAccounts (plan : Plan) (d : Directory) : List PlannedAccount :=
  plan.accounts.filter (writePriority d · = 0) ++ plan.accounts.filter (writePriority d · = 1) ++
    plan.accounts.filter (writePriority d · = 2)

def planTasks (complete : StepName → Bool) (plan : Plan) (d : Directory) : List Task :=
  (orderedAccounts plan d).flatMap (accountTasks complete d) ++
    ((plan.missing d).filter fun a ↦ !complete (.deactivate a.username)).map .deactivate

end NixNas.Accounts
