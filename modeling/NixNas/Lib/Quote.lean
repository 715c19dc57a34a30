import Mathlib.Data.List.Basic

/-!
# Quoting as JSON, reading as a Caddyfile token

`json.dumps` writes a text as a JSON string.  A double-quoted Caddyfile token reads it back with
other rules: a backslash escapes a double quote and is kept in front of anything else.
-/

namespace Quote

/-- The escape `\\uXXXX` of a code unit. -/
def unicodeEscape (n : Nat) : List Char :=
  ['\\', 'u', Nat.digitChar (n / 4096 % 16), Nat.digitChar (n / 256 % 16),
    Nat.digitChar (n / 16 % 16), Nat.digitChar (n % 16)]

/-- One character of a JSON string, everything outside printable ASCII being escaped. -/
def jsonChar (c : Char) : List Char :=
  if c = '"' then ['\\', '"']
  else if c = '\\' then ['\\', '\\']
  else if c = '\n' then ['\\', 'n']
  else if c = '\r' then ['\\', 'r']
  else if c = '\t' then ['\\', 't']
  else if c.toNat = 8 then ['\\', 'b']
  else if c.toNat = 12 then ['\\', 'f']
  else if 32 ≤ c.toNat ∧ c.toNat < 127 then [c]
  else if c.toNat < 0x10000 then unicodeEscape c.toNat
  else unicodeEscape (0xD800 + (c.toNat - 0x10000) / 1024) ++
    unicodeEscape (0xDC00 + (c.toNat - 0x10000) % 1024)

/-- `json.dumps` of a string. -/
def jsonDumps (t : List Char) : List Char := '"' :: (t.flatMap jsonChar ++ ['"'])

/-- The inside of a double-quoted Caddyfile token, up to the closing quote. -/
def lexInside : List Char → List Char
  | [] => []
  | c :: rest =>
    if c = '\\' then
      match rest with
      | [] => ['\\']
      | d :: rest' => if d = '"' then '"' :: lexInside rest' else '\\' :: d :: lexInside rest'
    else if c = '"' then []
    else c :: lexInside rest

def lexQuoted : List Char → List Char
  | '"' :: rest => lexInside rest
  | t => t

def readChar (c : Char) : List Char := if c = '"' then ['"'] else jsonChar c

variable {c : Char}

theorem lexInside_plain (hslash : c ≠ '\\') (hquote : c ≠ '"') (rest : List Char) :
    lexInside (c :: rest) = c :: lexInside rest := by
  rw [lexInside.eq_def]
  simp [hslash, hquote]

theorem lexInside_append_plain {s : List Char} (h : ∀ c ∈ s, c ≠ '\\' ∧ c ≠ '"')
    (rest : List Char) : lexInside (s ++ rest) = s ++ lexInside rest := by
  induction s with
  | nil => rfl
  | cons c s ih =>
    obtain ⟨hslash, hquote⟩ := h c List.mem_cons_self
    rw [List.cons_append, lexInside_plain hslash hquote,
      ih fun d hd => h d (List.mem_cons_of_mem c hd)]
    rfl

theorem lexInside_slash {d : Char} (hd : d ≠ '"') (rest : List Char) :
    lexInside ('\\' :: d :: rest) = '\\' :: d :: lexInside rest := by
  rw [lexInside.eq_def]
  simp [hd]

theorem digitChar_plain (n : Nat) :
    Nat.digitChar (n % 16) ≠ '\\' ∧ Nat.digitChar (n % 16) ≠ '"' := by
  have hdigits : ∀ m < 16, Nat.digitChar m ≠ '\\' ∧ Nat.digitChar m ≠ '"' := by decide
  exact hdigits _ (Nat.mod_lt n (by omega))

theorem lexInside_unicodeEscape (n : Nat) (rest : List Char) :
    lexInside (unicodeEscape n ++ rest) = unicodeEscape n ++ lexInside rest := by
  unfold unicodeEscape
  rw [List.cons_append, List.cons_append, lexInside_slash (by decide),
    lexInside_append_plain]
  · rfl
  · intro c hc
    simp only [List.mem_cons, List.not_mem_nil, or_false] at hc
    obtain rfl | rfl | rfl | rfl := hc <;> exact digitChar_plain _

theorem lexInside_jsonChar (c : Char) (rest : List Char) :
    lexInside (jsonChar c ++ rest) = readChar c ++ lexInside rest := by
  unfold readChar
  by_cases hquote : c = '"'
  · subst hquote
    rfl
  · rw [if_neg hquote]
    unfold jsonChar
    rw [if_neg hquote]
    split_ifs with hslash
    · exact lexInside_slash (by decide) rest
    · exact lexInside_slash (by decide) rest
    · exact lexInside_slash (by decide) rest
    · exact lexInside_slash (by decide) rest
    · exact lexInside_slash (by decide) rest
    · exact lexInside_slash (by decide) rest
    · exact lexInside_plain hslash hquote rest
    · exact lexInside_unicodeEscape _ rest
    · rw [List.append_assoc, lexInside_unicodeEscape, lexInside_unicodeEscape, List.append_assoc]

theorem lexQuoted_jsonDumps (t : List Char) :
    lexQuoted (jsonDumps t) = t.flatMap readChar := by
  change lexInside (t.flatMap jsonChar ++ ['"']) = _
  induction t with
  | nil => rfl
  | cons c t ih =>
    rw [List.flatMap_cons, List.flatMap_cons, List.append_assoc, lexInside_jsonChar, ih]

def readable (c : Char) : Bool := 32 ≤ c.toNat && c.toNat < 127 && c != '\\'

theorem readChar_of_readable (h : readable c = true) : readChar c = [c] := by
  unfold readable at h
  simp only [Bool.and_eq_true, decide_eq_true_eq, bne_iff_ne, ne_eq] at h
  obtain ⟨⟨hlow, hhigh⟩, hslash⟩ := h
  have hne (d : Char) (hd : d.toNat < 32) : c ≠ d := by
    rintro rfl
    omega
  unfold readChar jsonChar
  by_cases hquote : c = '"'
  · rw [if_pos hquote, hquote]
  · rw [if_neg hquote, if_neg hquote, if_neg hslash, if_neg (hne '\n' (by decide)),
      if_neg (hne '\r' (by decide)), if_neg (hne '\t' (by decide)), if_neg (by omega),
      if_neg (by omega), if_pos ⟨hlow, hhigh⟩]

theorem flatMap_readChar {t : List Char} (h : ∀ c ∈ t, readable c = true) :
    t.flatMap readChar = t := by
  induction t with
  | nil => rfl
  | cons c t ih =>
    rw [List.flatMap_cons, readChar_of_readable (h c List.mem_cons_self),
      ih fun d hd => h d (List.mem_cons_of_mem c hd)]
    rfl

theorem readChar_ne_nil (c : Char) : readChar c ≠ [] := by
  unfold readChar jsonChar
  split_ifs <;> exact List.cons_ne_nil _ _

theorem six_le_length_readChar (h : 128 ≤ c.toNat) : 6 ≤ (readChar c).length := by
  have hne (d : Char) (hd : d.toNat < 128) : c ≠ d := by
    rintro rfl
    omega
  unfold readChar jsonChar
  rw [if_neg (hne '"' (by decide)), if_neg (hne '"' (by decide)), if_neg (hne '\\' (by decide)),
    if_neg (hne '\n' (by decide)), if_neg (hne '\r' (by decide)), if_neg (hne '\t' (by decide)),
    if_neg (by omega), if_neg (by omega), if_neg (by omega)]
  split <;> simp [unicodeEscape]

end Quote
