import NixNas.Identity.Model

/-!
# Two readings of who is an administrator

The model asks the user's list, by name or key, and the lists of all groups; a member of the
disabled group is left out.  The guard asks the user's list by key and the list of the first group
of the name; it never asks for the disabled group.
-/

open Fallible NixNas.Spec NixNas.Authentik NixNas.Caddy

namespace NixNas.Identity

variable {F : Type} {v : Values F} {users groups : List (Object F)} {name : Text}
variable {raw : Object F} {key : Text} {entries : List (Text × Text)}

structure ActiveRecord (users : List (Object F)) (name : Text) (raw : Object F) : Prop where
  mem : raw ∈ users
  username : textAt "username" raw = some name
  active : isTrueAt "is_active" raw = true
  safe : isUsername name = true

def administratorGroup (groups : List (Object F)) : Option (Object F) :=
  groups.find? fun o ↦ textAt "name" o = some adminGroup

/-- The record's own list has the primary key of the administrators' group. -/
def HasKey (v : Values F) (groups : List (Object F)) (raw : Object F) : Prop :=
  ∃ group pk, administratorGroup groups = some group ∧ find "pk".toList group = some pk ∧
    isNull pk = false ∧ v.str pk ∈ rawGroupPks v raw

/-- The group's list leads to the name, by a user name or by the key of an active user. -/
def Listed (v : Values F) (users groups : List (Object F)) (name : Text) : Prop :=
  ∃ group, administratorGroup groups = some group ∧
    name ∈ memberNames v (users.filterMap (activeName v)) group

/-- The name of the last active record with the key. -/
def Keeps (v : Values F) (users : List (Object F)) (key name : Text) : Prop :=
  ∃ front raw rest, users = front ++ raw :: rest ∧ activeName v raw = some (key, name) ∧
    ∀ other ∈ rest, ∀ later, activeName v other ≠ some (key, later)

def Counted (v : Values F) (users groups : List (Object F)) (name : Text) : Prop :=
  (∃ raw, ActiveRecord users name raw ∧ HasKey v groups raw) ∨
    Listed v users groups name ∧ ∃ key, Keeps v users key name

def ReadsAdmin (v : Values F) (users groups : List (Object F)) (name : Text) (raw : Object F) : Prop :=
  adminGroup ∈ readGroups v users groups name raw

def ReadsDisabled (v : Values F) (users groups : List (Object F)) (name : Text) (raw : Object F) : Prop :=
  disabledGroup ∈ readGroups v users groups name raw

/-! ## The model -/

theorem modelUser_active (h : ActiveRecord users name raw) :
    modelUser v users groups raw =
      if disabledGroup ∈ readGroups v users groups name raw then none
      else some (userOf v name (readGroups v users groups name raw) raw) := by
  unfold modelUser
  rw [h.username]
  dsimp only
  rw [h.safe, h.active, Bool.not_true, if_neg Bool.false_ne_true, if_pos rfl, List.append_nil]
  unfold User.enabled userOf
  by_cases hdisabled : disabledGroup ∈ readGroups v users groups name raw
  · simp [hdisabled]
  · simp [hdisabled]

theorem not_enabled_of_modelUser {user : User F} (h : modelUser v users groups raw = some user)
    (hactive : ¬ (isTrueAt "is_active" raw = true ∧ isUsername user.uid = true)) :
    user.eligibleAdministrator = false := by
  unfold modelUser at h
  split at h
  · cases h
  · rename_i username husername
    split at h
    · rename_i hname
      rw [Bool.not_eq_true'] at hname
      cases h
      unfold User.eligibleAdministrator userOf
      dsimp only
      rw [hname, Bool.and_false]
    · rename_i hsafe
      rw [Bool.not_eq_true', Bool.not_eq_false] at hsafe
      dsimp only at h
      cases hflag : isTrueAt "is_active" raw with
      | true =>
        rw [hflag] at h hactive
        simp only [if_true] at h
        split at h
        · cases h
          exact (hactive ⟨rfl, hsafe⟩).elim
        · cases h
      | false =>
        rw [hflag] at h
        unfold User.enabled userOf at h
        simp at h

theorem mem_administratorUids :
    name ∈ administratorUids (users.filterMap (modelUser v users groups)) ↔
      ∃ raw, ActiveRecord users name raw ∧ ReadsAdmin v users groups name raw ∧
        ¬ ReadsDisabled v users groups name raw := by
  unfold administratorUids
  rw [List.mem_map]
  constructor
  · rintro ⟨user, huser, rfl⟩
    rw [List.mem_filter, List.mem_filterMap, Bool.and_eq_true, decide_eq_true_iff] at huser
    obtain ⟨⟨raw, hraw, hmodel⟩, hadmin, heligible⟩ := huser
    have hactive : isTrueAt "is_active" raw = true ∧ isUsername user.uid = true := by
      by_contra hcontra
      rw [not_enabled_of_modelUser hmodel hcontra] at heligible
      cases heligible
    have husername : textAt "username" raw = some user.uid := by
      unfold modelUser at hmodel
      split at hmodel
      · cases hmodel
      · rename_i username husername
        rw [husername]
        split at hmodel
        · cases hmodel
          rfl
        · rw [Option.ite_none_right_eq_some] at hmodel
          cases hmodel.2
          rfl
    have hrecord : ActiveRecord users user.uid raw := ⟨hraw, husername, hactive.1, hactive.2⟩
    rw [modelUser_active hrecord, Option.ite_none_left_eq_some] at hmodel
    obtain ⟨hdisabled, heq⟩ := hmodel
    rw [Option.some.injEq] at heq
    rw [← heq] at hadmin
    exact ⟨raw, hrecord, hadmin, hdisabled⟩
  · intro ⟨raw, hrecord, hadmin, hdisabled⟩
    refine ⟨userOf v name (readGroups v users groups name raw) raw, ?_, rfl⟩
    rw [List.mem_filter, List.mem_filterMap, Bool.and_eq_true, decide_eq_true_iff]
    refine ⟨⟨raw, hrecord.mem, ?_⟩, hadmin, ?_⟩
    · rw [modelUser_active hrecord]
      exact if_neg hdisabled
    · unfold User.eligibleAdministrator User.enabled
      rw [Bool.and_eq_true, decide_eq_true_iff]
      exact ⟨hdisabled, hrecord.safe⟩

/-! ## The guard -/

theorem lastLookup_eq_some :
    lastLookup key entries = some name ↔
      ∃ front rest, entries = front ++ (key, name) :: rest ∧ ∀ later ∈ rest, later.1 ≠ key := by
  unfold lastLookup
  rw [List.lookup_eq_some_iff]
  constructor
  · rintro ⟨rest, front, heq, hlater⟩
    refine ⟨front.reverse, rest.reverse, ?_, ?_⟩
    · rw [← List.reverse_reverse entries, heq]
      simp
    · intro later hmem
      have hne := hlater later (List.mem_reverse.mp hmem)
      exact fun h => absurd h.symm (bne_iff_ne.mp hne)
  · rintro ⟨front, rest, rfl, hlater⟩
    refine ⟨rest.reverse, front.reverse, by simp, ?_⟩
    intro later hmem
    exact bne_iff_ne.mpr (hlater later (List.mem_reverse.mp hmem)).symm

theorem mem_lastValues : name ∈ lastValues entries ↔ ∃ key, lastLookup key entries = some name := by
  unfold lastValues
  rw [List.mem_map]
  constructor
  · rintro ⟨entry, hentry, rfl⟩
    rw [List.mem_filter, decide_eq_true_iff] at hentry
    exact ⟨entry.1, hentry.2⟩
  · rintro ⟨key, hkey⟩
    obtain ⟨front, rest, rfl, -⟩ := lastLookup_eq_some.mp hkey
    refine ⟨(key, name), ?_, rfl⟩
    rw [List.mem_filter, decide_eq_true_iff]
    exact ⟨by simp, hkey⟩

/-- `usernames_by_pk` keeps the last active record of a key. -/
theorem lastLookup_activeNames :
    lastLookup key (users.filterMap (activeName v)) = some name ↔ Keeps v users key name := by
  rw [lastLookup_eq_some]
  constructor
  · rintro ⟨before, behind, heq, hlater⟩
    obtain ⟨front, tail, rfl, -, htail⟩ := List.filterMap_eq_append_iff.mp heq
    obtain ⟨skipped, raw, rest, rfl, -, hraw, rfl⟩ := List.filterMap_eq_cons_iff.mp htail
    refine ⟨front ++ skipped, raw, rest, by rw [List.append_assoc], hraw, ?_⟩
    intro other hother later hname
    exact hlater (key, later) (List.mem_filterMap.mpr ⟨other, hother, hname⟩) rfl
  · rintro ⟨front, raw, rest, rfl, hraw, hlater⟩
    refine ⟨front.filterMap (activeName v), rest.filterMap (activeName v), ?_, ?_⟩
    · rw [List.filterMap_append, List.filterMap_cons_some hraw]
    · rintro ⟨key', later⟩ hmem rfl
      obtain ⟨other, hother, hname⟩ := List.mem_filterMap.mp hmem
      exact hlater other hother later hname

theorem mem_activeNames :
    name ∈ lastValues (users.filterMap (activeName v)) ↔ ∃ key, Keeps v users key name := by
  rw [mem_lastValues]
  exact exists_congr fun key => lastLookup_activeNames

theorem Keeps.record (h : Keeps v users key name) :
    ∃ raw, ActiveRecord users name raw ∧ isNull (keyOf raw) = false := by
  obtain ⟨front, raw, rest, rfl, hraw, -⟩ := h
  unfold activeName at hraw
  split at hraw
  · rename_i username husername
    rw [Option.ite_none_left_eq_some] at hraw
    obtain ⟨hchecks, heq⟩ := hraw
    cases heq
    simp only [Bool.or_eq_true, not_or, Bool.not_eq_true', Bool.not_eq_false, Bool.not_eq_true]
      at hchecks
    exact ⟨raw, ⟨by simp, husername, hchecks.1.2, hchecks.2⟩, hchecks.1.1⟩
  · cases hraw

theorem mem_membersByKey : name ∈ membersByKey v users key ↔
    ∃ raw, ActiveRecord users name raw ∧ key ∈ rawGroupPks v raw := by
  unfold membersByKey
  rw [List.mem_filterMap]
  constructor
  · intro ⟨raw, hraw, hname⟩
    split at hname
    · rename_i username husername
      rw [Option.ite_none_right_eq_some] at hname
      obtain ⟨hchecks, heq⟩ := hname
      cases heq
      rw [Bool.and_eq_true, Bool.and_eq_true, decide_eq_true_iff] at hchecks
      exact ⟨raw, ⟨hraw, husername, hchecks.1.1, hchecks.2⟩, hchecks.1.2⟩
    · cases hname
  · intro ⟨raw, hrecord, hkey⟩
    refine ⟨raw, hrecord.mem, ?_⟩
    rw [hrecord.username]
    dsimp only
    rw [hrecord.active, hrecord.safe, decide_eq_true hkey]
    rfl

/-- The keys that the first half of the guard looks for: none without a key of the group. -/
def byKey (v : Values F) (users : List (Object F)) (pk : Option (Plain F)) : List Text :=
  match pk with
  | some pk => if isNull pk then [] else membersByKey v users (v.str pk)
  | none => []

theorem mem_byKey {pk : Option (Plain F)} : name ∈ byKey v users pk ↔
    ∃ raw, ActiveRecord users name raw ∧
      ∃ key, pk = some key ∧ isNull key = false ∧ v.str key ∈ rawGroupPks v raw := by
  unfold byKey
  cases pk with
  | none =>
    constructor
    · exact fun h => (List.not_mem_nil h).elim
    · rintro ⟨raw, -, key, heq, -⟩
      cases heq
  | some key =>
    dsimp only
    cases hnull : isNull key with
    | true =>
      rw [if_pos rfl]
      constructor
      · exact fun h => (List.not_mem_nil h).elim
      · rintro ⟨raw, -, key', heq, hkey', -⟩
        cases heq
        rw [hnull] at hkey'
        cases hkey'
    | false =>
      rw [if_neg Bool.false_ne_true, mem_membersByKey]
      constructor
      · exact fun ⟨raw, hrecord, hkey⟩ => ⟨raw, hrecord, key, rfl, hnull, hkey⟩
      · rintro ⟨raw, hrecord, key', heq, -, hkey⟩
        cases heq
        exact ⟨raw, hrecord, hkey⟩

theorem mem_enabledAdministratorNames :
    name ∈ enabledAdministratorNames v users groups ↔ Counted v users groups name := by
  have hguard : (groups.find? fun o ↦ textAt "name" o = some adminGroup) =
      administratorGroup groups := rfl
  unfold Counted HasKey Listed enabledAdministratorNames
  rw [hguard]
  cases administratorGroup groups with
  | none =>
    constructor
    · exact fun h => (List.not_mem_nil h).elim
    · rintro (⟨-, -, group, -, heq, -⟩ | ⟨⟨group, heq, -⟩, -⟩) <;> cases heq
  | some group =>
    dsimp only
    rw [List.mem_append, List.mem_filter, decide_eq_true_iff, mem_activeNames]
    show name ∈ byKey v users (find "pk".toList group) ∨ _ ↔ _
    rw [mem_byKey]
    constructor
    · rintro (⟨raw, hrecord, key, hkey⟩ | ⟨hlisted, hactive⟩)
      · exact .inl ⟨raw, hrecord, group, key, rfl, hkey⟩
      · exact .inr ⟨⟨group, rfl, hlisted⟩, hactive⟩
    · rintro (⟨raw, hrecord, group', key, heq, hkey⟩ | ⟨⟨group', heq, hlisted⟩, hactive⟩)
      · cases heq
        exact .inl ⟨raw, hrecord, key, hkey⟩
      · cases heq
        exact .inr ⟨hlisted, hactive⟩

/-! ## The condition -/

/-- Both read the same: what the guard counts the model reads, it is not disabled, and what the
model reads and is not disabled the guard counts. -/
structure SameReading (v : Values F) (users groups : List (Object F)) : Prop where
  read : ∀ name, Counted v users groups name →
    ∃ raw, ActiveRecord users name raw ∧ ReadsAdmin v users groups name raw
  enabled : ∀ name, Counted v users groups name →
    (∃ raw, ActiveRecord users name raw ∧ ReadsAdmin v users groups name raw) →
    ∃ raw, ActiveRecord users name raw ∧ ReadsAdmin v users groups name raw ∧
      ¬ ReadsDisabled v users groups name raw
  counted : ∀ name raw, ActiveRecord users name raw → ReadsAdmin v users groups name raw →
    ¬ ReadsDisabled v users groups name raw → Counted v users groups name

/-- The administrators of the model are those of the guard, and there is no model exactly where the
guard finds none. -/
structure Agree (v : Values F) (users groups : List (Object F)) : Prop where
  administrators : ∀ m, buildModel v (users.map .object) (groups.map .object) = .ok m →
    ∀ name, name ∈ m.administrators ↔ name ∈ enabledAdministratorNames v users groups
  none : buildModel v (users.map .object) (groups.map .object) = .error .noAdministrator ↔
    enabledAdministratorNames v users groups = []

theorem records_map (os : List (Object F)) : records (os.map .object) = os := by
  unfold records
  rw [List.filterMap_map]
  exact List.filterMap_some

theorem buildModel_error : buildModel v (users.map .object) (groups.map .object) =
    .error .noAdministrator ↔ administratorUids (users.filterMap (modelUser v users groups)) = [] := by
  unfold buildModel
  rw [records_map, records_map]
  dsimp only
  rw [← List.length_eq_zero_iff (l := administratorUids _),
    ← (List.perm_insertionSort (· ≤ ·) _).length_eq, List.length_eq_zero_iff]
  split
  · rename_i h
    exact iff_of_true rfl h
  · rename_i h
    exact iff_of_false nofun h

theorem buildModel_ok {m : IdentityModel F}
    (h : buildModel v (users.map .object) (groups.map .object) = .ok m) :
    name ∈ m.administrators ↔
      name ∈ administratorUids (users.filterMap (modelUser v users groups)) := by
  unfold buildModel at h
  rw [records_map, records_map] at h
  dsimp only at h
  split at h
  · cases h
  · cases h
    exact List.mem_insertionSort _

/-- `str` of the integers; the listing below has no other value that is no text. -/
def integers : Values Empty where
  repr
    | .scalar (.integer n) => (Int.repr n).toList
    | _ => []
  isZero := nofun

def disabledAdministrator : Object Empty :=
  [("pk".toList, number 1), ("username".toList, text "alice"), ("is_active".toList, boolean true),
    ("groups".toList, .array [number 10, number 11])]

def baseGroups : List (Object Empty) :=
  [[("pk".toList, number 10), ("name".toList, text "nas_admin")],
    [("pk".toList, number 11), ("name".toList, text "nas_disabled")]]

/-- Of two active records with one key the guard keeps the later name. -/
example :
    enabledAdministratorNames integers
      [[("pk".toList, number 1), ("username".toList, text "alice"), ("is_active".toList, boolean true)],
        [("pk".toList, number 1), ("username".toList, text "bob"), ("is_active".toList, boolean true)]]
      [[("name".toList, text "nas_admin"),
        ("users_obj".toList, .array [.object [("username".toList, text "alice")]])]] = [] := by
  decide

end NixNas.Identity
