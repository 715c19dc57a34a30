import NixNas.Identity.Administrators

/-!
# The accounts that plans change

Accounts and their groups, by their names, as Authentik has them, and the listing that shows them.
The primary key of a group is its name here, and that of an account the name of the account.
-/

open NixNas.Spec NixNas.Authentik NixNas.Caddy NixNas.Identity

namespace NixNas.Accounts

structure Account where
  username : Text
  active : Bool
  groups : List Text
  /-- `attributes["nasManagedBySetup"] is True`. -/
  managed : Bool
  deriving DecidableEq, Repr

structure Directory where
  accounts : List Account
  nodup : (accounts.map Account.username).Nodup
  deriving DecidableEq

def bootstrapName : Text := "akadmin".toList

def userGroup : Text := "nas_users".toList

def guestGroup : Text := "nas_guests".toList

def reservedGroups : List Text := [adminGroup, userGroup, guestGroup, disabledGroup]

/-- `existing_by_name.get(username)`. -/
def Directory.find (d : Directory) (username : Text) : Option Account :=
  d.accounts.find? fun a ↦ a.username = username

def Directory.patch (d : Directory) (username : Text) (change : Account → Account)
    (hname : ∀ a, (change a).username = a.username) : Directory where
  accounts := d.accounts.map fun a ↦ if a.username = username then change a else a
  nodup := by
    have hsame : (d.accounts.map fun a ↦ if a.username = username then change a else a).map
        Account.username = d.accounts.map Account.username := by
      rw [List.map_map]
      apply List.map_congr_left
      intro a _
      rw [Function.comp_apply]
      split
      · exact hname a
      · rfl
    rw [hsame]
    exact d.nodup

def Directory.post (d : Directory) (a : Account) : Directory :=
  if h : a.username ∈ d.accounts.map Account.username then d
  else ⟨a :: d.accounts, List.nodup_cons.mpr ⟨h, d.nodup⟩⟩

def Directory.delete (d : Directory) (username : Text) : Directory where
  accounts := d.accounts.filter fun a ↦ a.username ≠ username
  nodup := d.nodup.sublist (List.filter_sublist.map Account.username)

variable {d : Directory} {a b : Account} {username : Text}

theorem mem_patch (change : Account → Account) (hname : ∀ a, (change a).username = a.username) :
    b ∈ (d.patch username change hname).accounts ↔
      ∃ a ∈ d.accounts, (if a.username = username then change a else a) = b := List.mem_map

theorem mem_post : b ∈ (d.post a).accounts ↔
    b ∈ d.accounts ∨ (b = a ∧ a.username ∉ d.accounts.map Account.username) := by
  unfold Directory.post
  split
  · rename_i h
    constructor
    · exact .inl
    · rintro (hb | ⟨-, hfree⟩)
      · exact hb
      · exact absurd h hfree
  · rename_i h
    rw [List.mem_cons, or_comm, and_iff_left h]

theorem mem_delete : b ∈ (d.delete username).accounts ↔ b ∈ d.accounts ∧ b.username ≠ username := by
  unfold Directory.delete
  rw [List.mem_filter, decide_eq_true_eq]

theorem eq_of_username (ha : a ∈ d.accounts) (hb : b ∈ d.accounts) (h : a.username = b.username) :
    a = b := List.inj_on_of_nodup_map d.nodup ha hb h

theorem find_eq_some : d.find username = some a ↔ a ∈ d.accounts ∧ a.username = username := by
  unfold Directory.find
  constructor
  · intro h
    exact ⟨List.mem_of_find?_eq_some h, by simpa using List.find?_some h⟩
  · rintro ⟨ha, rfl⟩
    have hsome : (d.accounts.find? fun b ↦ b.username = a.username).isSome := by
      rw [List.find?_isSome]
      exact ⟨a, ha, decide_eq_true rfl⟩
    obtain ⟨b, hb⟩ := Option.isSome_iff_exists.mp hsome
    have hsame : b.username = a.username := by simpa using List.find?_some hb
    rw [hb, eq_of_username (List.mem_of_find?_eq_some hb) ha hsame]

def Account.administrator (a : Account) : Bool :=
  a.active && isUsername a.username && a.groups.contains adminGroup

def Administers (d : Directory) (name : Text) : Prop :=
  ∃ a ∈ d.accounts, a.username = name ∧ a.administrator = true

def named (value : Text) : Plain Empty := .scalar (.string value)

def Account.record (a : Account) : Object Empty :=
  [("pk".toList, named a.username), ("username".toList, named a.username),
    ("is_active".toList, boolean a.active), ("groups".toList, .array (a.groups.map named))]

def Account.member (a : Account) : Plain Empty :=
  .object [("pk".toList, named a.username), ("username".toList, named a.username)]

def groupRecord (d : Directory) (name : Text) : Object Empty :=
  [("pk".toList, named name), ("name".toList, named name),
    ("users_obj".toList,
      .array ((d.accounts.filter fun a ↦ a.groups.contains name).map Account.member))]

def Directory.userRecords (d : Directory) : List (Object Empty) := d.accounts.map Account.record

def Directory.groupRecords (d : Directory) : List (Object Empty) := reservedGroups.map (groupRecord d)

/-- `enabled_administrator_names` of what the listings show. -/
def currentAdministrators (d : Directory) : List Text :=
  enabledAdministratorNames integers d.userRecords d.groupRecords

variable {name : Text}

theorem activeRecord_iff {raw : Object Empty} : ActiveRecord d.userRecords name raw ↔
    ∃ a ∈ d.accounts, a.record = raw ∧ a.username = name ∧ a.active = true ∧
      isUsername name = true := by
  constructor
  · rintro ⟨hmem, husername, hactive, hsafe⟩
    obtain ⟨a, ha, rfl⟩ := List.mem_map.mp hmem
    have hname : a.username = name := Option.some.inj husername
    exact ⟨a, ha, rfl, hname, hactive, hsafe⟩
  · rintro ⟨a, ha, rfl, rfl, hactive, hsafe⟩
    exact ⟨List.mem_map_of_mem ha, rfl, hactive, hsafe⟩

theorem administratorGroup_records :
    administratorGroup d.groupRecords = some (groupRecord d adminGroup) := by
  unfold administratorGroup Directory.groupRecords reservedGroups
  rw [List.map_cons]
  apply List.find?_cons_of_pos
  exact decide_eq_true rfl

theorem rawGroupPks_record (a : Account) : rawGroupPks integers a.record = a.groups := by
  show (a.groups.map named).filterMap _ = a.groups
  rw [List.filterMap_map]
  exact List.filterMap_some

theorem hasKey_record (a : Account) :
    HasKey integers d.groupRecords a.record ↔ adminGroup ∈ a.groups := by
  unfold HasKey
  rw [administratorGroup_records, rawGroupPks_record]
  constructor
  · rintro ⟨group, pk, hgroup, hpk, -, hkey⟩
    obtain rfl := Option.some.inj hgroup
    obtain rfl := Option.some.inj hpk
    exact hkey
  · exact fun hkey => ⟨_, _, rfl, rfl, rfl, hkey⟩

theorem listed_records : Listed integers d.userRecords d.groupRecords name ↔
    ∃ a ∈ d.accounts, a.username = name ∧ adminGroup ∈ a.groups := by
  unfold Listed
  rw [administratorGroup_records]
  have hmembers : memberNames integers (d.userRecords.filterMap (activeName integers))
      (groupRecord d adminGroup) =
        (d.accounts.filter fun a ↦ a.groups.contains adminGroup).map Account.username := by
    show ((d.accounts.filter _).map Account.member).filterMap _ = _
    rw [List.filterMap_map, ← List.filterMap_eq_map]
    rfl
  constructor
  · rintro ⟨group, hgroup, hname⟩
    obtain rfl := Option.some.inj hgroup
    rw [hmembers, List.mem_map] at hname
    obtain ⟨a, ha, rfl⟩ := hname
    rw [List.mem_filter, List.contains_iff_mem] at ha
    exact ⟨a, ha.1, rfl, ha.2⟩
  · rintro ⟨a, ha, rfl, hadmin⟩
    refine ⟨_, rfl, ?_⟩
    rw [hmembers, List.mem_map]
    exact ⟨a, List.mem_filter.mpr ⟨ha, List.contains_iff_mem.mpr hadmin⟩, rfl⟩

theorem mem_currentAdministrators : name ∈ currentAdministrators d ↔ Administers d name := by
  unfold currentAdministrators Administers Account.administrator
  rw [mem_enabledAdministratorNames]
  unfold Counted
  constructor
  · rintro (⟨raw, hactive, hkey⟩ | ⟨hlisted, key, hkeeps⟩)
    · obtain ⟨a, ha, rfl, rfl, hflag, hsafe⟩ := activeRecord_iff.mp hactive
      refine ⟨a, ha, rfl, ?_⟩
      rw [hflag, hsafe, List.contains_iff_mem.mpr ((hasKey_record a).mp hkey)]
      rfl
    · obtain ⟨raw, hactive, -⟩ := hkeeps.record
      obtain ⟨a, ha, rfl, rfl, hflag, hsafe⟩ := activeRecord_iff.mp hactive
      obtain ⟨b, hb, hname, hadmin⟩ := listed_records.mp hlisted
      obtain rfl := eq_of_username hb ha hname
      refine ⟨b, hb, rfl, ?_⟩
      rw [hflag, hsafe, List.contains_iff_mem.mpr hadmin]
      rfl
  · rintro ⟨a, ha, rfl, hadministrator⟩
    rw [Bool.and_eq_true, Bool.and_eq_true, List.contains_iff_mem] at hadministrator
    obtain ⟨⟨hflag, hsafe⟩, hadmin⟩ := hadministrator
    exact .inl ⟨a.record, activeRecord_iff.mpr ⟨a, ha, rfl, rfl, hflag, hsafe⟩,
      (hasKey_record a).mpr hadmin⟩

end NixNas.Accounts
