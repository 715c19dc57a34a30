import NixNas.Lib.Joined
import NixNas.Names

/-!
# Names of session instances (`services/nas_v2_session.py`)

The container and the transient unit of a session are named by joining the service, the key of the
user and the instance with hyphens; `sha256` is the hexadecimal digest.
-/

open Joined

namespace NixNas.Session

/-! ## Identifiers -/

inductive SessionError where
  | serviceId | instanceId | userId
  deriving DecidableEq, Repr

/-- `_INSTANCE_ID`. -/
def isInstanceId (value : Text) : Bool :=
  match value with
  | [] => false
  | c :: rest => (c.isLower || c.isDigit) && rest.length ≤ 47 &&
      rest.all fun d ↦ d.isLower || d.isDigit || d = '-'

/-- `_USER_ID`. -/
def isUserId (value : Text) : Bool :=
  match value with
  | [] => false
  | c :: rest => c.isAlphanum && rest.length ≤ 127 &&
      rest.all fun d ↦ d.isAlphanum || ['_', '.', '@', '-'].contains d

def validateServiceId (value : Text) : Except SessionError Text :=
  if !isIdentifier value then .error .serviceId else .ok value

def validateInstanceId (value : Text) : Except SessionError Text :=
  if !isInstanceId value then .error .instanceId else .ok value

def validateUserId (value : Text) : Except SessionError Text :=
  if [".".toList, "..".toList].contains value || !isUserId value then .error .userId else .ok value

section

variable (sha256 : Text → Text)

def userKey : Option Text → Except SessionError (Option Text)
  | none => .ok none
  | some userId => do
    let userId ← validateUserId userId
    .ok (some ((sha256 userId).take 12))

def unitName (serviceId instanceId : Text) (userId : Option Text) : Except SessionError Text := do
  let serviceId ← validateServiceId serviceId
  let instanceId ← validateInstanceId instanceId
  let key ← userKey sha256 userId
  let start := match key with
    | none => "nas-v2-session-".toList ++ serviceId
    | some key => "nas-v2-session-".toList ++ serviceId ++ "-u".toList ++ key
  .ok (start ++ '@' :: instanceId ++ ".service".toList)

def containerName (serviceId instanceId : Text) (userId : Option Text) :
    Except SessionError Text := do
  let serviceId ← validateServiceId serviceId
  let instanceId ← validateInstanceId instanceId
  let key ← userKey sha256 userId
  let suffix := match key with
    | none => instanceId
    | some key => 'u' :: key ++ '-' :: instanceId
  .ok ("nas-v2-session-".toList ++ serviceId ++ '-' :: suffix)

end

/-- A session instance whose identifiers are valid. -/
structure Identity where
  service : Text
  inst : Text
  user : Option Text
  service_ok : isIdentifier service = true
  inst_ok : isInstanceId inst = true
  user_ok : ∀ userId ∈ user, isUserId userId = true

theorem Identity.ext {t t' : Identity} (hs : t.service = t'.service) (hi : t.inst = t'.inst)
    (hu : t.user = t'.user) : t = t' := by
  cases t
  cases t'
  cases hs
  cases hi
  cases hu
  rfl

section

variable (sha256 : Text → Text)

def Identity.container (t : Identity) : Except SessionError Text :=
  containerName sha256 t.service t.inst t.user

def Identity.unit (t : Identity) : Except SessionError Text :=
  unitName sha256 t.service t.inst t.user

def userPart (userId : Text) : Text := 'u' :: (sha256 userId).take 12

def isHex (c : Char) : Bool := c.isDigit || ['a', 'b', 'c', 'd', 'e', 'f'].contains c

def HexDigest : Prop := ∀ value, ∀ c ∈ sha256 value, isHex c = true

/-- The users of two identities have the same key only if they are the same. -/
def KeysDistinct (t t' : Identity) : Prop :=
  ∀ u ∈ t.user, ∀ v ∈ t'.user, (sha256 u).take 12 = (sha256 v).take 12 → u = v

end

/-! ## The names of valid identities -/

theorem hyphen_at_notMem {rest : Text} (h : rest.all (fun d ↦ d.isLower || d.isDigit || d = '-')) :
    '@' ∉ rest := by
  intro hmem
  have hc := List.all_eq_true.mp h '@' hmem
  revert hc
  decide

theorem at_notMem_service {value : Text} (h : isIdentifier value = true) : '@' ∉ value := by
  cases value with
  | nil => exact List.not_mem_nil
  | cons c rest =>
    simp only [isIdentifier, Bool.and_eq_true] at h
    rw [List.mem_cons, not_or]
    constructor
    · rintro rfl
      exact absurd h.1.1 (by decide)
    · exact hyphen_at_notMem h.2

theorem validateUserId_of_isUserId {userId : Text} (h : isUserId userId = true) :
    validateUserId userId = .ok userId := by
  unfold validateUserId
  rw [if_neg]
  rw [Bool.or_eq_true, h]
  rintro (hdots | hnot)
  · -- a valid identifier does not start with a dot
    rcases List.mem_cons.mp (List.contains_iff_mem.mp hdots) with rfl | hdots
    · exact absurd h (by decide)
    · rcases List.mem_singleton.mp hdots with rfl
      exact absurd h (by decide)
  · cases hnot

section

variable {sha256 : Text → Text} {t t' : Identity}

def Identity.suffix (sha256 : Text → Text) (t : Identity) : Text :=
  match t.user with
  | none => t.inst
  | some userId => userPart sha256 userId ++ '-' :: t.inst

def Identity.stem (sha256 : Text → Text) (t : Identity) : Text :=
  match t.user with
  | none => t.service
  | some userId => t.service ++ '-' :: userPart sha256 userId

theorem container_eq (t : Identity) : t.container sha256 =
    .ok ("nas-v2-session-".toList ++ (t.service ++ '-' :: t.suffix sha256)) := by
  rcases t with ⟨service, inst, user, hs, hi, hu⟩
  cases user with
  | none =>
    simp [Identity.container, containerName, validateServiceId, validateInstanceId, hs, hi,
      userKey, Identity.suffix, bind, Except.bind]
  | some userId =>
    simp [Identity.container, containerName, validateServiceId, validateInstanceId, hs, hi,
      userKey, validateUserId_of_isUserId (hu userId rfl), Identity.suffix, userPart, bind,
      Except.bind]

theorem unit_eq (t : Identity) : t.unit sha256 =
    .ok ("nas-v2-session-".toList ++ (t.stem sha256 ++ '@' :: (t.inst ++ ".service".toList))) := by
  rcases t with ⟨service, inst, user, hs, hi, hu⟩
  cases user with
  | none =>
    simp [Identity.unit, unitName, validateServiceId, validateInstanceId, hs, hi, userKey,
      Identity.stem, bind, Except.bind]
  | some userId =>
    simp [Identity.unit, unitName, validateServiceId, validateInstanceId, hs, hi, userKey,
      validateUserId_of_isUserId (hu userId rfl), Identity.stem, userPart, bind, Except.bind]

theorem notMem_key (hhex : HexDigest sha256) (userId : Text) {c : Char} (hc : isHex c = false) :
    c ∉ (sha256 userId).take 12 := by
  intro hmem
  rw [hhex userId c (List.mem_of_mem_take hmem)] at hc
  cases hc

theorem hyphen_notMem_userPart (hhex : HexDigest sha256) (userId : Text) :
    '-' ∉ userPart sha256 userId := by
  unfold userPart
  rw [List.mem_cons, not_or]
  exact ⟨by decide, notMem_key hhex userId (by decide)⟩

theorem at_notMem_stem (hhex : HexDigest sha256) (t : Identity) : '@' ∉ t.stem sha256 := by
  have hs := at_notMem_service t.service_ok
  unfold Identity.stem
  split
  · exact hs
  · rename_i userId _
    unfold userPart
    simp only [List.mem_append, List.mem_cons, not_or]
    exact ⟨hs, by decide, by decide, notMem_key hhex userId (by decide)⟩

/-! ## When two names are the same -/

/-- The service of `t'` continues that of `t` with what follows it in the names of `t`; or the
services are the same, and the instance of `t`, which has no user, starts with the user of `t'`. -/
def Swallows (sha256 : Text → Text) (t t' : Identity) : Prop :=
  match t.user, t'.user with
  | none, none => ∃ r, t'.service = t.service ++ '-' :: r ∧ t.inst = r ++ '-' :: t'.inst
  | none, some v =>
    (t'.service = t.service ∧ t.inst = userPart sha256 v ++ '-' :: t'.inst) ∨
      ∃ r, t'.service = t.service ++ '-' :: r ∧
        t.inst = r ++ '-' :: (userPart sha256 v ++ '-' :: t'.inst)
  | some u, none =>
    (t'.service = t.service ++ '-' :: userPart sha256 u ∧ t.inst = t'.inst) ∨
      ∃ r, t'.service = t.service ++ '-' :: (userPart sha256 u ++ '-' :: r) ∧
        t.inst = r ++ '-' :: t'.inst
  | some u, some v =>
    (t'.service = t.service ++ '-' :: userPart sha256 u ∧
        t.inst = userPart sha256 v ++ '-' :: t'.inst) ∨
      ∃ r, t'.service = t.service ++ '-' :: (userPart sha256 u ++ '-' :: r) ∧
        t.inst = r ++ '-' :: (userPart sha256 v ++ '-' :: t'.inst)

/-- The service of `t'` takes in a part of the suffix of `t`. -/
def Extends (sha256 : Text → Text) (t t' : Identity) : Prop :=
  ∃ r, t'.service = t.service ++ '-' :: r ∧
    t.suffix sha256 = r ++ '-' :: t'.suffix sha256

theorem userPart_suffix_iff (hhex : HexDigest sha256) {u inst rest r : Text} :
    userPart sha256 u ++ '-' :: inst = r ++ '-' :: rest ↔
      (r = userPart sha256 u ∧ inst = rest) ∨
        ∃ q, r = userPart sha256 u ++ '-' :: q ∧ inst = q ++ '-' :: rest := by
  rw [join_eq_iff]
  constructor
  · rintro (⟨rfl, rfl⟩ | ⟨q, rfl, rfl⟩ | ⟨q, heq, _⟩)
    · exact .inl ⟨rfl, rfl⟩
    · exact .inr ⟨q, rfl, rfl⟩
    · -- a key has no hyphen
      have hnot := hyphen_notMem_userPart hhex u
      rw [heq] at hnot
      exact (hnot (by simp)).elim
  · rintro (⟨rfl, rfl⟩ | ⟨q, rfl, rfl⟩)
    · exact .inl ⟨rfl, rfl⟩
    · exact .inr (.inl ⟨q, rfl, rfl⟩)

theorem swallows_iff (hhex : HexDigest sha256) : Swallows sha256 t t' ↔
    Extends sha256 t t' ∨ t.service = t'.service ∧ t.user = none ∧
      ∃ v, t'.user = some v ∧ t.inst = userPart sha256 v ++ '-' :: t'.inst := by
  unfold Swallows Extends Identity.suffix
  rcases ht : t.user with _ | u
  · rcases ht' : t'.user with _ | v
    · simp
    · simp only [true_and, Option.some.injEq, exists_eq_left', eq_comm]
      exact or_comm
  · have hsplit := fun rest r : Text => @userPart_suffix_iff sha256 hhex u t.inst rest r
    have hmove : ∀ rest : Text,
        ((t'.service = t.service ++ '-' :: userPart sha256 u ∧ t.inst = rest) ∨
          ∃ r, t'.service = t.service ++ '-' :: (userPart sha256 u ++ '-' :: r) ∧
            t.inst = r ++ '-' :: rest) ↔
        ∃ r, t'.service = t.service ++ '-' :: r ∧
          userPart sha256 u ++ '-' :: t.inst = r ++ '-' :: rest := by
      intro rest
      constructor
      · rintro (⟨hs, hi⟩ | ⟨r, hs, hi⟩)
        · exact ⟨_, hs, (hsplit rest _).mpr (.inl ⟨rfl, hi⟩)⟩
        · exact ⟨_, hs, (hsplit rest _).mpr (.inr ⟨r, rfl, hi⟩)⟩
      · rintro ⟨r, hs, heq⟩
        rcases (hsplit rest r).mp heq with ⟨rfl, hi⟩ | ⟨q, rfl, hi⟩
        · exact .inl ⟨hs, hi⟩
        · exact .inr ⟨q, hs, hi⟩
    rcases ht' : t'.user with _ | v
    · simp only [reduceCtorEq, false_and, and_false, or_false]
      exact hmove t'.inst
    · simp only [reduceCtorEq, false_and, and_false, or_false]
      exact hmove _

theorem container_eq_iff (hhex : HexDigest sha256) (hkeys : KeysDistinct sha256 t t') :
    t.container sha256 = t'.container sha256 ↔
      t = t' ∨ Swallows sha256 t t' ∨ Swallows sha256 t' t := by
  rw [container_eq, container_eq, Except.ok.injEq, List.append_cancel_left_eq, join_eq_iff,
    swallows_iff hhex, swallows_iff hhex]
  constructor
  · rintro (⟨hs, hsuffix⟩ | hext | ⟨r, hs, hsuffix⟩)
    · -- one service: the suffixes agree
      unfold Identity.suffix at hsuffix
      rcases ht : t.user with _ | u
      · rcases ht' : t'.user with _ | v
        · rw [ht, ht'] at hsuffix
          exact .inl (Identity.ext hs hsuffix (ht.trans ht'.symm))
        · rw [ht, ht'] at hsuffix
          exact .inr (.inl (.inr ⟨hs, rfl, v, rfl, hsuffix⟩))
      · rcases ht' : t'.user with _ | v
        · rw [ht, ht'] at hsuffix
          exact .inr (.inr (.inr ⟨hs.symm, rfl, u, rfl, hsuffix.symm⟩))
        · rw [ht, ht'] at hsuffix
          rcases (join_inj (hyphen_notMem_userPart hhex u)
            (hyphen_notMem_userPart hhex v)).mp hsuffix with ⟨hpart, hi⟩
          have huser := hkeys u ht v ht' (List.cons.inj hpart).2
          exact .inl (Identity.ext hs hi (by rw [ht, ht', huser]))
    · exact .inr (.inl (.inl hext))
    · exact .inr (.inr (.inl ⟨r, hs, hsuffix⟩))
  · rintro (rfl | (hext | ⟨hs, hnone, v, hv, hi⟩) | (⟨r, hs, hsuffix⟩ | ⟨hs, hnone, v, hv, hi⟩))
    · exact .inl ⟨rfl, rfl⟩
    · exact .inr (.inl hext)
    · refine .inl ⟨hs, ?_⟩
      unfold Identity.suffix
      rw [hnone, hv]
      exact hi
    · exact .inr (.inr ⟨r, hs, hsuffix⟩)
    · refine .inl ⟨hs.symm, ?_⟩
      unfold Identity.suffix
      rw [hnone, hv]
      exact hi.symm

theorem eq_or_swallows_of_unit_eq (hhex : HexDigest sha256) (hkeys : KeysDistinct sha256 t t')
    (h : t.unit sha256 = t'.unit sha256) :
    t = t' ∨ Swallows sha256 t t' ∨ Swallows sha256 t' t := by
  rw [unit_eq, unit_eq, Except.ok.injEq, List.append_cancel_left_eq,
    join_inj (at_notMem_stem hhex t) (at_notMem_stem hhex t')] at h
  rcases h with ⟨hstem, hinst⟩
  have hi : t.inst = t'.inst := List.append_cancel_right hinst
  unfold Identity.stem at hstem
  rcases ht : t.user with _ | u
  · rcases ht' : t'.user with _ | v
    · rw [ht, ht'] at hstem
      exact .inl (Identity.ext hstem hi (ht.trans ht'.symm))
    · rw [ht, ht'] at hstem
      apply Or.inr
      apply Or.inr
      unfold Swallows
      rw [ht, ht']
      exact .inl ⟨hstem, hi.symm⟩
  · rcases ht' : t'.user with _ | v
    · rw [ht, ht'] at hstem
      apply Or.inr
      apply Or.inl
      unfold Swallows
      rw [ht, ht']
      exact .inl ⟨hstem.symm, hi⟩
    · rw [ht, ht'] at hstem
      rcases (join_inj_right (hyphen_notMem_userPart hhex u)
        (hyphen_notMem_userPart hhex v)).mp hstem with ⟨hs, hpart⟩
      have huser := hkeys u ht v ht' (List.cons.inj hpart).2
      exact .inl (Identity.ext hs hi (by rw [ht, ht', huser]))

theorem not_swallows_self (hhex : HexDigest sha256) (t : Identity) : ¬ Swallows sha256 t t := by
  rw [swallows_iff hhex]
  rintro (⟨r, hs, _⟩ | ⟨_, hnone, v, hv, _⟩)
  · have hlength := congrArg List.length hs
    simp only [List.length_append, List.length_cons] at hlength
    omega
  · rw [hnone] at hv
    cases hv

/-- Two valid identities with a common name are the same unless one swallows a part of the other. -/
theorem names_injective_iff (hhex : HexDigest sha256) (t t' : Identity)
    (hkeys : KeysDistinct sha256 t t') :
    (t.container sha256 = t'.container sha256 ∨ t.unit sha256 = t'.unit sha256 → t = t') ↔
      ¬ Swallows sha256 t t' ∧ ¬ Swallows sha256 t' t := by
  constructor
  · intro h
    constructor
    · intro hs
      have heq := h (.inl ((container_eq_iff hhex hkeys).mpr (.inr (.inl hs))))
      rw [heq] at hs
      exact not_swallows_self hhex t' hs
    · intro hs
      have heq := h (.inl ((container_eq_iff hhex hkeys).mpr (.inr (.inr hs))))
      rw [heq] at hs
      exact not_swallows_self hhex t' hs
  · rintro ⟨hleft, hright⟩ hname
    have hcases : t = t' ∨ Swallows sha256 t t' ∨ Swallows sha256 t' t := by
      rcases hname with hc | hu
      · exact (container_eq_iff hhex hkeys).mp hc
      · exact eq_or_swallows_of_unit_eq hhex hkeys hu
    rcases hcases with heq | hs | hs
    · exact heq
    · exact (hleft hs).elim
    · exact (hright hs).elim

end

/-! ## Two sessions with one container -/

def zeroDigest (_ : Text) : Text := List.replicate 64 '0'

def musicSync : Identity :=
  ⟨"music".toList, "sync-1".toList, none, by decide, by decide, by simp⟩

def musicSyncOne : Identity :=
  ⟨"music-sync".toList, "1".toList, none, by decide, by decide, by simp⟩

/-- The session `sync-1` of the service `music` and the session `1` of `music-sync`. -/
theorem not_names_injective_music :
    musicSync.container zeroDigest = musicSyncOne.container zeroDigest ∧
      musicSync ≠ musicSyncOne := by
  refine ⟨by decide, ?_⟩
  intro h
  exact absurd (congrArg Identity.inst h) (by decide)

theorem names_injective_iff_music :
    (musicSync.container zeroDigest = musicSyncOne.container zeroDigest ∨
        musicSync.unit zeroDigest = musicSyncOne.unit zeroDigest → musicSync = musicSyncOne) ↔
      ¬ Swallows zeroDigest musicSync musicSyncOne ∧
        ¬ Swallows zeroDigest musicSyncOne musicSync := by
  apply names_injective_iff
  · intro value c hc
    rw [List.eq_of_mem_replicate hc]
    decide
  · intro u hu
    cases hu

end NixNas.Session
