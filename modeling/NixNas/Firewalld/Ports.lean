import NixNas.Firewalld.Reconcile
import NixNas.Lib.Segments

/-!
# Which texts of ports both sides take

The compiler prints integers, single or as a range; the reconciler reads decimal digits.
-/

open Fallible NixNas.Spec

namespace NixNas.Firewalld

variable {F : Type}
variable {port protocol : Text} {numbers : Numbers F}

structure PortOk (port protocol : Text) : Prop where
  shape : isPortText port = true
  protocol : protocol ∈ protocols
  bounds : boundsOk (portBounds port) = true

theorem checkPort_ok_iff :
    (∃ shown, checkPort (.scalar (.string port) : Plain F) (.scalar (.string protocol)) = .ok shown) ↔
      PortOk port protocol := by
  unfold checkPort
  dsimp only
  constructor
  · intro ⟨shown, h⟩
    obtain ⟨hshape, h⟩ := guard_ok h
    obtain ⟨hbounds, -⟩ := guard_ok h
    simp only [Bool.or_eq_true, Bool.not_eq_true', not_or, Bool.not_eq_false] at hshape hbounds
    exact ⟨hshape.1, List.contains_iff_mem.mp hshape.2, hbounds⟩
  · intro ⟨hshape, hprotocol, hbounds⟩
    rw [hshape, List.contains_iff_mem.mpr hprotocol, hbounds]
    exact ⟨_, rfl⟩

theorem intText_natCast (n : Nat) : intText n = Nat.toDigits 10 n := Nat.toList_repr

theorem isPortPart_intText {n : Nat} (h : n ≤ 65535) : isPortPart (intText n) = true := by
  rw [intText_natCast]
  unfold isPortPart
  have hlength : (Nat.toDigits 10 n).length ≤ 5 := by
    rw [Nat.length_toDigits_le_iff (by decide) (by decide)]
    omega
  have hdigits : (Nat.toDigits 10 n).all Char.isDigit = true :=
    List.all_eq_true.mpr fun c hc => Nat.isDigit_of_mem_toDigits (by decide) (by decide) hc
  rw [hdigits, decide_eq_true hlength]
  cases heq : Nat.toDigits 10 n with
  | nil => exact absurd heq Nat.toDigits_ne_nil
  | cons c rest => rfl

theorem digitsValue_intText (n : Nat) : digitsValue (intText n) = n := by
  rw [intText_natCast]
  exact Nat.ofDigitChars_ten_toDigits

theorem hyphen_notMem_intText (n : Nat) : '-' ∉ intText n := by
  intro h
  rw [intText_natCast] at h
  exact absurd (Nat.isDigit_of_mem_toDigits (by decide) (by decide) h) (by decide)

theorem portOk_intText {n : Int} (hlow : 1 ≤ n) (hhigh : n ≤ 65535)
    (hprotocol : protocol ∈ protocols) : PortOk (intText n) protocol := by
  obtain ⟨m, rfl⟩ := Int.eq_ofNat_of_zero_le (by omega : 0 ≤ n)
  have hsplit : (intText (m : Int)).splitOn '-' = [intText m] :=
    List.splitOn_eq_singleton (hyphen_notMem_intText m)
  refine ⟨?_, hprotocol, ?_⟩
  · unfold isPortText
    rw [hsplit, List.all_cons, isPortPart_intText (by omega)]
    rfl
  · unfold portBounds
    rw [hsplit, List.map_singleton, digitsValue_intText]
    unfold boundsOk
    rw [decide_eq_true_iff]
    omega

theorem portOk_range {start stop : Int} (hlow : 1 ≤ start) (horder : start ≤ stop) (hhigh : stop ≤ 65535)
    (hprotocol : protocol ∈ protocols) :
    PortOk (intText start ++ '-' :: intText stop) protocol := by
  obtain ⟨m, rfl⟩ := Int.eq_ofNat_of_zero_le (by omega : 0 ≤ start)
  obtain ⟨k, rfl⟩ := Int.eq_ofNat_of_zero_le (by omega : 0 ≤ stop)
  have hsplit : (intText (m : Int) ++ '-' :: intText (k : Int)).splitOn '-' = [intText m, intText k] := by
    rw [List.splitOn_append_cons_self_of_not_mem (hyphen_notMem_intText m),
      List.splitOn_eq_singleton (hyphen_notMem_intText k)]
  refine ⟨?_, hprotocol, ?_⟩
  · unfold isPortText
    rw [hsplit, List.all_cons, List.all_cons, isPortPart_intText (by omega),
      isPortPart_intText (by omega)]
    rfl
  · unfold portBounds
    rw [hsplit, List.map_cons, List.map_singleton, digitsValue_intText, digitsValue_intText]
    unfold boundsOk
    rw [decide_eq_true_iff]
    omega

theorem mem_portText (h : isPortText port = true) {c : Char} (hc : c ∈ port) :
    c.isDigit = true ∨ c = '-' := by
  unfold isPortText at h
  rw [Bool.and_eq_true, List.all_eq_true] at h
  have hjoin : c ∈ Segments.join '-' (port.splitOn '-') := by
    rw [Segments.join_splitOn]
    exact List.mem_cons_of_mem _ hc
  unfold Segments.join at hjoin
  obtain ⟨part, hpart, hmem⟩ := List.mem_flatMap.mp hjoin
  obtain rfl | hmem := List.mem_cons.mp hmem
  · exact .inr rfl
  · have hdigits := h.2 part hpart
    unfold isPortPart at hdigits
    simp only [Bool.and_eq_true, List.all_eq_true] at hdigits
    exact .inl (hdigits.2 c hmem)

theorem not_portOk_repr (numbers : Numbers F) (x : F) (protocol : Text) :
    ¬ PortOk (numbers.repr x) protocol := by
  intro h
  obtain ⟨c, hc, hdigit, hhyphen⟩ := numbers.repr_mark x
  obtain hd | hd := mem_portText h.shape hc
  · rw [hd] at hdigit
    cases hdigit
  · exact hhyphen hd

/-- What the schema takes for a port: an integer in its range, or an integral float. -/
inductive WholePort (float : FloatEq F) : Plain F → Prop where
  | integer {n : Int} (low : 1 ≤ n) (high : n ≤ 65535) : WholePort float (.scalar (.integer n))
  | float {x : F} (whole : float.isInteger x = true) : WholePort float (.scalar (.float x))

def IsInteger (port : Plain F) : Prop := ∃ n, port = .scalar (.integer n)

theorem portOk_text_iff {port : Plain F} (h : WholePort numbers.float port)
    (hprotocol : protocol ∈ protocols) :
    PortOk (numbers.text port) protocol ↔ IsInteger port := by
  cases h with
  | integer hlow hhigh => exact iff_of_true (portOk_intText hlow hhigh hprotocol) ⟨_, rfl⟩
  | @float x hwhole =>
    refine iff_of_false (not_portOk_repr numbers x protocol) ?_
    rintro ⟨n, hn⟩
    cases hn

theorem integerText_ok {value : Option (Plain F)} {shown : Text}
    (h : integerText numbers value = some shown)
    (hwhole : ∀ port, value = some port → WholePort numbers.float port) :
    ∃ n : Int, value = some (.scalar (.integer n)) ∧ shown = intText n ∧ 1 ≤ n ∧ n ≤ 65535 := by
  unfold integerText at h
  obtain ⟨port, rfl, h⟩ := Option.bind_eq_some_iff.mp h
  obtain ⟨m, hm, rfl⟩ := Option.map_eq_some_iff.mp h
  cases hwhole port rfl with
  | integer hlow hhigh => exact ⟨_, rfl, rfl, hlow, hhigh⟩
  | float => cases hm

end NixNas.Firewalld
