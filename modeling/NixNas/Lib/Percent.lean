import Mathlib.Algebra.GroupWithZero.Nat
import Mathlib.Data.List.Basic

/-!
# Percent-decoding and case folding

`unquote` decodes percent escapes and reads every run of ASCII characters and escapes as UTF-8; a
character outside ASCII ends the run.  `CaseFold` lists what is used of full case folding.
-/

namespace Percent

/-- A byte of an ASCII run, or a character outside ASCII. -/
inductive Token where
  | byte (b : Nat)
  | char (c : Char)
  deriving DecidableEq, Repr

def hexValue (c : Char) : Option Nat :=
  if '0' ≤ c ∧ c ≤ '9' then some (c.toNat - 48)
  else if 'a' ≤ c ∧ c ≤ 'f' then some (c.toNat - 87)
  else if 'A' ≤ c ∧ c ≤ 'F' then some (c.toNat - 55)
  else none

def escape : List Char → Option Nat
  | a :: b :: _ =>
    match hexValue a, hexValue b with
    | some x, some y => some (16 * x + y)
    | _, _ => none
  | _ => none

/-- A percent sign that two hexadecimal digits do not follow. -/
def badEscape : List Char → Bool
  | [] => false
  | c :: rest => c == '%' && (escape rest).isNone || badEscape rest

def plainToken (c : Char) : Token := if c.toNat < 128 then .byte c.toNat else .char c

/-- The tokens of a text after its first `k` characters, the rest of an escape. -/
def tokensFrom : Nat → List Char → List Token
  | _, [] => []
  | k + 1, _ :: rest => tokensFrom k rest
  | 0, c :: rest =>
    if c = '%' then
      match escape rest with
      | some b => .byte b :: tokensFrom 2 rest
      | none => .byte 37 :: tokensFrom 0 rest
    else plainToken c :: tokensFrom 0 rest

def isTail (b : Nat) : Bool := 0x80 ≤ b && b ≤ 0xBF

def wide (least value : Nat) : Option Char :=
  if least ≤ value ∧ (value < 0xD800 ∨ 0xDFFF < value) ∧ value ≤ 0x10FFFF then
    some (Char.ofNat value)
  else none

/-- Strict UTF-8, with the bytes that the current sequence still needs, its value so far and the
least value it may have. -/
def decodeFrom : Nat → Nat → Nat → List Token → Option (List Char)
  | 0, _, _, [] => some []
  | _ + 1, _, _, [] => none
  | 0, _, _, .char c :: ts => (decodeFrom 0 0 0 ts).map (c :: ·)
  | _ + 1, _, _, .char _ :: _ => none
  | 0, _, _, .byte b :: ts =>
    if b < 0x80 then (decodeFrom 0 0 0 ts).map (Char.ofNat b :: ·)
    else if 0xC0 ≤ b ∧ b < 0xE0 then decodeFrom 1 (b - 0xC0) 0x80 ts
    else if 0xE0 ≤ b ∧ b < 0xF0 then decodeFrom 2 (b - 0xE0) 0x800 ts
    else if 0xF0 ≤ b ∧ b < 0xF8 then decodeFrom 3 (b - 0xF0) 0x10000 ts
    else none
  | n + 1, value, least, .byte b :: ts =>
    if isTail b then
      if n = 0 then
        match wide least (value * 64 + (b - 0x80)) with
        | some c => (decodeFrom 0 0 0 ts).map (c :: ·)
        | none => none
      else decodeFrom n (value * 64 + (b - 0x80)) least ts
    else none

/-- `urllib.parse.unquote(value, errors="strict")`, `none` where it raises. -/
def unquote (t : List Char) : Option (List Char) := decodeFrom 0 0 0 (tokensFrom 0 t)

/-! ## Texts without escapes -/

variable {t : List Char} {b : Nat} {c : Char}

theorem tokensFrom_of_not_mem (h : '%' ∉ t) : tokensFrom 0 t = t.map plainToken := by
  induction t with
  | nil => rfl
  | cons c t ih =>
    rw [List.mem_cons, not_or] at h
    rw [tokensFrom, if_neg (Ne.symm h.1), ih h.2, List.map_cons]

theorem decodeFrom_plain (t : List Char) : decodeFrom 0 0 0 (t.map plainToken) = some t := by
  induction t with
  | nil => rfl
  | cons c t ih =>
    unfold plainToken at *
    rw [List.map_cons]
    by_cases hc : c.toNat < 128
    · rw [if_pos hc, decodeFrom, if_pos hc, ih, Char.ofNat_toNat]
      rfl
    · rw [if_neg hc, decodeFrom, ih]
      rfl

theorem unquote_of_not_mem (h : '%' ∉ t) : unquote t = some t := by
  unfold unquote
  rw [tokensFrom_of_not_mem h, decodeFrom_plain]

/-! ## An ASCII character at the end -/

theorem decodeFrom_append_ascii (hb : b < 0x80) (ts : List Token) (n value least : Nat) :
    decodeFrom n value least (ts ++ [.byte b]) =
      (decodeFrom n value least ts).map (· ++ [Char.ofNat b]) := by
  induction ts generalizing n value least with
  | nil =>
    cases n with
    | zero => simp [decodeFrom, hb]
    | succ n =>
      have htail : isTail b = false := by
        have hlow : ¬ 0x80 ≤ b := Nat.not_le_of_lt hb
        simp [isTail, hlow]
      simp [decodeFrom, htail]
  | cons t ts ih =>
    rw [List.cons_append]
    cases t with
    | char c =>
      cases n with
      | zero => simp [decodeFrom, ih, Function.comp_def]
      | succ n => rfl
    | byte b' =>
      cases n with
      | zero =>
        simp only [decodeFrom]
        split
        · simp [ih, Function.comp_def]
        · split_ifs <;> first | exact ih _ _ _ | rfl
      | succ n =>
        simp only [decodeFrom]
        split
        · split
          · cases wide least (value * 64 + (b' - 0x80)) with
            | none => rfl
            | some c => simp [ih, Function.comp_def]
          · exact ih _ _ _
        · rfl

theorem escape_append (hc : hexValue c = none) (t : List Char) : escape (t ++ [c]) = escape t := by
  match t with
  | [] => rfl
  | [a] => simp [escape, hc]
  | a :: b :: t => rfl

theorem two_le_length_of_escape (h : escape t = some b) : 2 ≤ t.length := by
  match t with
  | [] => cases h
  | [_] => cases h
  | a :: b :: t => simp

theorem tokensFrom_append (hpercent : c ≠ '%') (hc : hexValue c = none)
    (t : List Char) {k : Nat} (hk : k ≤ t.length) :
    tokensFrom k (t ++ [c]) = tokensFrom k t ++ [plainToken c] := by
  induction t generalizing k with
  | nil =>
    obtain rfl : k = 0 := Nat.le_zero.mp hk
    simp [tokensFrom, hpercent]
  | cons d t ih =>
    rw [List.cons_append]
    cases k with
    | succ k => exact ih (Nat.le_of_succ_le_succ hk)
    | zero =>
      rw [tokensFrom, tokensFrom, escape_append hc]
      split
      · cases hescape : escape t with
        | none => simp [ih (Nat.zero_le _)]
        | some b => simp [ih (two_le_length_of_escape hescape)]
      · rw [ih (Nat.zero_le _)]
        rfl

theorem unquote_append (hascii : c.toNat < 128) (hpercent : c ≠ '%')
    (hc : hexValue c = none) (t : List Char) :
    unquote (t ++ [c]) = (unquote t).map (· ++ [c]) := by
  unfold unquote
  rw [tokensFrom_append hpercent hc t (Nat.zero_le _), plainToken, if_pos hascii,
    decodeFrom_append_ascii hascii, Char.ofNat_toNat]

theorem unquote_cons (hascii : c.toNat < 128) (hpercent : c ≠ '%') (t : List Char) :
    unquote (c :: t) = (unquote t).map (c :: ·) := by
  unfold unquote
  rw [tokensFrom, if_neg hpercent, plainToken, if_pos hascii, decodeFrom, if_pos hascii,
    Char.ofNat_toNat]

theorem badEscape_append (hpercent : c ≠ '%') (hc : hexValue c = none)
    (t : List Char) : badEscape (t ++ [c]) = badEscape t := by
  induction t with
  | nil => simp [badEscape, hpercent]
  | cons d t ih => rw [List.cons_append, badEscape, badEscape, escape_append hc, ih]

/-! ## Case folding -/

/-- What is used of full case folding, which works character by character. -/
structure CaseFold where
  fold : Char → List Char
  ascii : ∀ c, c.toNat < 128 → fold c = [c.toLower]
  ne_nil : ∀ c, fold c ≠ []
  length_le : ∀ c, (fold c).length ≤ 3
  slash_not_mem : ∀ c, 128 ≤ c.toNat → '/' ∉ fold c

/-- `str.casefold`. -/
def CaseFold.text (cf : CaseFold) (t : List Char) : List Char := t.flatMap cf.fold

def CaseFold.asciiOnly : CaseFold where
  fold c := if c.toNat < 128 then [c.toLower] else [c]
  ascii c hc := if_pos hc
  ne_nil c := by split <;> simp
  length_le c := by split <;> simp
  slash_not_mem c hc := by
    rw [if_neg (Nat.not_lt_of_le hc), List.mem_singleton]
    rintro rfl
    revert hc
    decide

section

variable (cf : CaseFold)
variable {d : List Char} {k : Nat}

/-- The length a token may reach once it is decoded and folded. -/
def weight : Token → Nat
  | .byte b => if b < 0x80 then 1 else 2
  | .char c => (cf.fold c).length

def weightSum (ts : List Token) : Nat := (ts.map (weight cf)).sum

@[simp] theorem weightSum_cons (t : Token) (ts : List Token) :
    weightSum cf (t :: ts) = weight cf t + weightSum cf ts := rfl

theorem weight_le_two (b : Nat) : weight cf (.byte b) ≤ 2 := by
  unfold weight
  dsimp only
  split <;> omega

theorem CaseFold.text_cons (c : Char) (t : List Char) :
    cf.text (c :: t) = cf.fold c ++ cf.text t := rfl

theorem CaseFold.one_le_length (c : Char) : 1 ≤ (cf.fold c).length :=
  List.length_pos_iff.mpr (cf.ne_nil c)

theorem length_text_cons (c : Char) (t : List Char) :
    (cf.text (c :: t)).length = (cf.fold c).length + (cf.text t).length := by
  rw [CaseFold.text_cons, List.length_append]

theorem weight_of_ascii {b : Nat} (hb : b < 0x80) :
    weight cf (.byte b) = 1 ∧ (cf.fold (Char.ofNat b)).length = 1 := by
  have hvalid : b.isValidChar := .inl (by omega)
  have htoNat : (Char.ofNat b).toNat = b := by
    unfold Char.ofNat
    rw [dif_pos hvalid]
    rfl
  exact ⟨if_pos hb, by rw [cf.ascii _ (by omega), List.length_singleton]⟩

theorem length_decodeFrom_le {ts : List Token} {n value least : Nat}
    (h : decodeFrom n value least ts = some t) :
    (cf.text t).length ≤ weightSum cf ts + (if n = 0 then 0 else 2) := by
  induction ts generalizing n value least t with
  | nil =>
    cases n with
    | zero =>
      cases h
      exact Nat.zero_le _
    | succ n => cases h
  | cons token ts ih =>
    rw [weightSum_cons]
    cases token with
    | char c =>
      cases n with
      | succ n => cases h
      | zero =>
        obtain ⟨rest, hrest, rfl⟩ := Option.map_eq_some_iff.mp h
        have := ih hrest
        rw [length_text_cons]
        simp only [if_true, weight] at *
        omega
    | byte b =>
      cases n with
      | zero =>
        simp only [decodeFrom] at h
        by_cases hb : b < 0x80
        · rw [if_pos hb] at h
          obtain ⟨rest, hrest, rfl⟩ := Option.map_eq_some_iff.mp h
          obtain ⟨hweight, hfold⟩ := weight_of_ascii cf hb
          have := ih hrest
          rw [length_text_cons, hfold, hweight]
          simp only [if_true] at *
          omega
        · -- a lead byte pays for what the sequence owes
          rw [if_neg hb] at h
          have hweight : weight cf (.byte b) = 2 := if_neg hb
          rw [hweight]
          split_ifs at h
          all_goals
            have := ih h
            simp only [if_true, Nat.reduceEqDiff, if_false] at *
            omega
      | succ n =>
        simp only [decodeFrom] at h
        split at h
        · rename_i htail
          have hweight : weight cf (.byte b) = 2 := by
            unfold isTail at htail
            simp only [Bool.and_eq_true, decide_eq_true_eq] at htail
            exact if_neg (by omega)
          rw [hweight, if_neg (Nat.succ_ne_zero n)]
          split at h
          · split at h
            · rename_i c _
              obtain ⟨rest, hrest, rfl⟩ := Option.map_eq_some_iff.mp h
              have := ih hrest
              have := cf.length_le c
              rw [length_text_cons]
              simp only [if_true] at *
              omega
            · cases h
          · rename_i hn
            have := ih h
            rw [if_neg hn] at this
            omega
        · cases h

theorem weight_plainToken_le (c : Char) : weight cf (plainToken c) ≤ (cf.fold c).length := by
  unfold plainToken
  split
  · rename_i hc
    rw [cf.ascii c hc]
    exact Nat.le_of_eq (if_pos hc)
  · exact Nat.le_refl _

/-- Escapes are longer than what they decode to. -/
theorem weightSum_tokensFrom_le (hk : k ≤ t.length) :
    weightSum cf (tokensFrom k t) + k ≤ (cf.text t).length := by
  induction t generalizing k with
  | nil =>
    obtain rfl : k = 0 := Nat.le_zero.mp hk
    exact Nat.le_refl _
  | cons c t ih =>
    rw [length_text_cons]
    have hone := cf.one_le_length c
    cases k with
    | succ k =>
      have := ih (Nat.le_of_succ_le_succ hk)
      rw [tokensFrom]
      omega
    | zero =>
      rw [tokensFrom]
      split
      · split
        · rename_i b hescape
          have := ih (two_le_length_of_escape hescape)
          have := weight_le_two cf b
          rw [weightSum_cons]
          omega
        · have := ih (Nat.zero_le _)
          have hweight : weight cf (.byte 37) = 1 := rfl
          rw [weightSum_cons, hweight]
          omega
      · have := ih (Nat.zero_le _)
        have := weight_plainToken_le cf c
        rw [weightSum_cons]
        omega

theorem weightSum_tokensFrom_lt (hk : k ≤ t.length)
    (hmem : '%' ∈ t.drop k) (hbad : badEscape (t.drop k) = false) :
    weightSum cf (tokensFrom k t) + k < (cf.text t).length := by
  induction t generalizing k with
  | nil => simp at hmem
  | cons c t ih =>
    rw [length_text_cons]
    have hone := cf.one_le_length c
    cases k with
    | succ k =>
      have := ih (Nat.le_of_succ_le_succ hk) hmem hbad
      rw [tokensFrom]
      omega
    | zero =>
      simp only [List.drop_zero, badEscape, Bool.or_eq_false_iff, Bool.and_eq_false_imp] at hbad
      rw [tokensFrom]
      by_cases hc : c = '%'
      · rw [if_pos hc]
        have hsome : (escape t).isSome = true := by simpa using hbad.1 (by simp [hc])
        obtain ⟨b, hescape⟩ := Option.isSome_iff_exists.mp hsome
        have := weightSum_tokensFrom_le cf (two_le_length_of_escape hescape)
        have := weight_le_two cf b
        rw [hescape, weightSum_cons]
        omega
      · rw [if_neg hc, weightSum_cons]
        have hmem' : '%' ∈ t.drop 0 := by simpa [Ne.symm hc] using hmem
        have := ih (Nat.zero_le _) hmem' hbad.2
        have := weight_plainToken_le cf c
        omega

theorem length_unquote_le (h : unquote t = some d) : (cf.text d).length ≤ (cf.text t).length := by
  have hdecode := length_decodeFrom_le cf h
  have htokens := weightSum_tokensFrom_le cf (Nat.zero_le t.length)
  rw [if_pos rfl] at hdecode
  omega

theorem length_unquote_lt (h : unquote t = some d) (hmem : '%' ∈ t)
    (hbad : badEscape t = false) : (cf.text d).length < (cf.text t).length := by
  have hdecode := length_decodeFrom_le cf h
  have htokens := weightSum_tokensFrom_lt cf (Nat.zero_le t.length) hmem hbad
  rw [if_pos rfl] at hdecode
  omega

end

end Percent
