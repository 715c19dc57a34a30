import NixNas.Reconcile.Sources
import NixNas.Systemd.Projection

/-!
# Names of units

The names that the projection makes from identifiers, by what stands between the prefix and the
extension.
-/

open Joined

namespace NixNas.Systemd

open Fallible (map_ok forall_mem_of_all)
open Reconcile (isUnit nameChar safeTarget isUnit_join safeTarget_join nameChar_of_isIdentifier)

inductive Extension where
  | service | timer | target | socket
  deriving DecidableEq, Repr

def Extension.text : Extension → Text
  | .service => "service".toList
  | .timer => "timer".toList
  | .target => "target".toList
  | .socket => "socket".toList

def unitName (key : Text) (ext : Extension) : Text := "nas-v2-".toList ++ (key ++ '.' :: ext.text)

theorem Extension.dot_notMem (ext : Extension) : '.' ∉ ext.text := by
  cases ext <;> decide

variable {ext ext' : Extension} {key : Text} {n : Nat}

theorem Extension.text_injective (h : ext.text = ext'.text) : ext = ext' := by
  revert h
  cases ext <;> cases ext' <;> decide

theorem unitName_inj {key' : Text} :
    unitName key ext = unitName key' ext' ↔ key = key' ∧ ext = ext' := by
  unfold unitName
  rw [List.append_cancel_left_eq, join_inj_right ext.dot_notMem ext'.dot_notMem]
  exact and_congr_right fun _ => ⟨Extension.text_injective, congrArg _⟩

theorem isUnit_unitName : isUnit (unitName key ext) = true ↔ ∀ c ∈ key, nameChar c = true := by
  have hmem : ext.text ∈ Reconcile.unitExts := by
    cases ext <;> decide
  have hstem : "nas-v2-".toList ++ key ≠ [] := List.append_ne_nil_of_left_ne_nil (by decide) _
  unfold unitName
  rw [← List.append_assoc, isUnit_join ext.dot_notMem, and_iff_right hmem, and_iff_right hstem,
    List.forall_mem_append]
  exact and_iff_right (forall_mem_of_all (by decide))

theorem safeTarget_unitName :
    (safeTarget (unitName key ext)).isSome = true ↔ isUnit (unitName key ext) = true := by
  have hconf : ext.text ≠ "conf".toList := by
    cases ext <;> decide
  unfold unitName
  rw [← List.append_assoc]
  exact safeTarget_join ext.dot_notMem hconf

theorem nameChars_iff {id : Text} (h : Caddy.isSchemaId id = true) :
    (∀ c ∈ id, nameChar c = true) ↔ isIdentifier id = true := by
  constructor
  · intro hchars
    unfold Caddy.isSchemaId at h
    rw [Bool.or_eq_true, Bool.and_eq_true, decide_eq_true_eq] at h
    rcases h with h | ⟨hlast, _⟩
    · exact h
    · have hbreak := hchars '\n' (List.mem_of_getLast? hlast)
      exact absurd hbreak (by decide)
  · exact nameChar_of_isIdentifier

theorem isDigit_of_mem_repr {c : Char} (h : c ∈ (Nat.repr n).toList) : c.isDigit = true := by
  rw [Nat.toList_repr] at h
  exact Nat.isDigit_of_mem_toDigits (by decide) (by decide) h

theorem repr_toList_injective {m : Nat} (h : (Nat.repr m).toList = (Nat.repr n).toList) : m = n := by
  rw [Nat.toList_repr, Nat.toList_repr] at h
  have hvalue := congrArg (fun digits ↦ Nat.ofDigitChars 10 digits 0) h
  rwa [Nat.ofDigitChars_ten_toDigits, Nat.ofDigitChars_ten_toDigits] at hvalue

theorem hyphen_notMem_repr : '-' ∉ (Nat.repr n).toList :=
  fun h => absurd (isDigit_of_mem_repr h) (by decide)

section

variable {sha256 : Text → Text} {id route name : Text} {index : Nat}
variable {service : Service} {unit : Text}

theorem derivedOwner_eq (hsystemd : service.runtime ≠ .systemd)
    (hcompose : service.runtime ≠ .compose) : derivedOwner id service = unitName id .service := by
  unfold derivedOwner
  cases hruntime : service.runtime with
  | systemd => exact (hsystemd hruntime).elim
  | compose => exact (hcompose hruntime).elim
  | _ => exact List.append_assoc _ _ _

theorem derivedOwner_systemd (h : service.runtime = .systemd) :
    derivedOwner id service = service.unit := by
  unfold derivedOwner
  rw [h]

theorem readyUnit_eq : readyUnit id = unitName ("ready-".toList ++ id) .service := by
  unfold readyUnit unitName
  rw [show "nas-v2-ready-".toList = "nas-v2-".toList ++ "ready-".toList by decide,
    List.append_assoc, List.append_assoc, List.append_assoc]
  rfl

theorem sessionTarget_eq : sessionTarget id = unitName ("session-".toList ++ id) .target := by
  unfold sessionTarget unitName
  rw [show "nas-v2-session-".toList = "nas-v2-".toList ++ "session-".toList by decide,
    List.append_assoc, List.append_assoc, List.append_assoc]
  rfl

theorem timerUnit_eq : timerUnit id index =
    unitName ("timer-".toList ++ (id ++ '-' :: (Nat.repr index).toList)) .timer := by
  unfold timerUnit unitName
  rw [show "nas-v2-timer-".toList = "nas-v2-".toList ++ "timer-".toList by decide,
    List.append_assoc, List.append_assoc, List.append_assoc, List.append_assoc]
  rw [List.append_assoc]
  rfl

def isHashed (serviceId routeId : Text) : Bool :=
  serviceId.contains '-' || routeId.contains '-' ||
    107 < (socketPath (serviceId ++ '-' :: routeId)).length

def routeLabel (sha256 : Text → Text) (serviceId routeId : Text) : Text :=
  if isHashed serviceId routeId then "h_".toList ++ sha256 (serviceId ++ Char.ofNat 0 :: routeId)
  else serviceId ++ '-' :: routeId

theorem routeName_eq_ok : routeName sha256 id route = .ok name ↔
    isIdentifier id = true ∧ isIdentifier route = true ∧ name = routeLabel sha256 id route := by
  unfold routeName safeId
  cases isIdentifier id with
  | false => exact iff_of_false nofun fun h => Bool.noConfusion h.1
  | true =>
    cases isIdentifier route with
    | false => exact iff_of_false nofun fun h => Bool.noConfusion h.2.1
    | true =>
      rw [and_iff_right rfl, and_iff_right rfl]
      show Except.ok (routeLabel sha256 id route) = .ok name ↔ _
      rw [Except.ok.injEq, eq_comm]

theorem unitBase_eq_ok : unitBase sha256 id route = .ok name ↔ isIdentifier id = true ∧
    isIdentifier route = true ∧ name = "nas-v2-activate-".toList ++ routeLabel sha256 id route := by
  unfold unitBase
  constructor
  · intro h
    rcases map_ok h with ⟨label, hlabel, rfl⟩
    rcases routeName_eq_ok.mp hlabel with ⟨hid, hroute, rfl⟩
    exact ⟨hid, hroute, rfl⟩
  · rintro ⟨hid, hroute, rfl⟩
    rw [routeName_eq_ok.mpr ⟨hid, hroute, rfl⟩]
    rfl

theorem activate_append (label : Text) (ext : Extension) :
    "nas-v2-activate-".toList ++ label ++ '.' :: ext.text =
      unitName ("activate-".toList ++ label) ext := by
  unfold unitName
  rw [show "nas-v2-activate-".toList = "nas-v2-".toList ++ "activate-".toList by decide,
    List.append_assoc, List.append_assoc, List.append_assoc]

theorem unit_eq_ok (ext : Extension) :
    (unitBase sha256 id route).map (fun base ↦ base ++ '.' :: ext.text) = .ok name ↔
      isIdentifier id = true ∧ isIdentifier route = true ∧
        name = unitName ("activate-".toList ++ routeLabel sha256 id route) ext := by
  rw [← activate_append]
  constructor
  · intro h
    rcases map_ok h with ⟨base, hbase, rfl⟩
    rcases unitBase_eq_ok.mp hbase with ⟨hid, hroute, rfl⟩
    exact ⟨hid, hroute, List.append_assoc _ _ _⟩
  · rintro ⟨hid, hroute, rfl⟩
    rw [unitBase_eq_ok.mpr ⟨hid, hroute, rfl⟩]
    exact congrArg _ (List.append_assoc _ _ _)

theorem socketUnit_eq_ok : socketUnit sha256 id route = .ok name ↔ isIdentifier id = true ∧
    isIdentifier route = true ∧
      name = unitName ("activate-".toList ++ routeLabel sha256 id route) .socket :=
  unit_eq_ok .socket

theorem proxyUnit_eq_ok : proxyUnit sha256 id route = .ok name ↔ isIdentifier id = true ∧
    isIdentifier route = true ∧
      name = unitName ("activate-".toList ++ routeLabel sha256 id route) .service :=
  unit_eq_ok .service

theorem dropinTarget_eq (unit : Text) :
    dropinTarget unit = unit ++ ".d/50-nas-v2".toList ++ '.' :: "conf".toList := by
  unfold dropinTarget
  rw [show ".d/50-nas-v2.conf".toList = ".d/50-nas-v2".toList ++ '.' :: "conf".toList from by
    decide, List.append_assoc]

theorem dropinTarget_ne {key : Text} {ext : Extension} : dropinTarget unit ≠ unitName key ext := by
  unfold unitName
  rw [dropinTarget_eq, ← List.append_assoc, Ne, join_inj_right (by decide) ext.dot_notMem]
  rintro ⟨_, hext⟩
  revert hext
  cases ext <;> decide

theorem dropinTarget_inj {unit' : Text} :
    dropinTarget unit = dropinTarget unit' ↔ unit = unit' := by
  unfold dropinTarget
  rw [List.append_cancel_right_eq]

end

end NixNas.Systemd
