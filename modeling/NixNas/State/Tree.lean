import Mathlib.Algebra.GroupWithZero.Nat
import Mathlib.Data.List.Lex
import Mathlib.Order.Fin.Basic
import NixNas.Lib.Fallible
import NixNas.Lib.Joined

/-!
# File trees (`services/nas_state.py`)

A tree is the sorted listing that the walks of the source make of it.
-/

open Fallible

namespace NixNas.State

/-! ## Names -/

/-- A code point of a Python string. Names that are not UTF-8 come with surrogates. -/
abbrev Code := Fin 0x110000

abbrev Str := List Code

def Code.char? (c : Code) : Option Char :=
  if h : c.val.isValidChar then some (Char.ofNatAux c.val h) else none

def Code.ofChar (c : Char) : Code := ⟨c.toNat, by
  rcases c.valid with h | h
  · exact Nat.lt_trans h (by decide)
  · exact h.2⟩

def str (value : String) : Str := value.toList.map Code.ofChar

/-- `value.encode("utf-8")`, which a surrogate makes fail. -/
def utf8? (value : Str) : Option (List UInt8) :=
  (value.mapM Code.char?).map fun chars ↦ chars.flatMap String.utf8EncodeChar

abbrev slash : Code := 0x2f

abbrev dot : Code := 0x2e

structure IsName (name : Str) : Prop where
  ne_nil : name ≠ []
  slash : slash ∉ name
  nul : 0 ∉ name
  dot : name ≠ [dot] ∧ name ≠ [dot, State.dot]

instance : DecidablePred IsName := fun name ↦
  decidable_of_iff (name ≠ [] ∧ State.slash ∉ name ∧ 0 ∉ name ∧ name ≠ [dot] ∧ name ≠ [dot, dot])
    ⟨fun h ↦ ⟨h.1, h.2.1, h.2.2.1, h.2.2.2⟩, fun h ↦ ⟨h.ne_nil, h.slash, h.nul, h.dot⟩⟩

abbrev RelPath := List Str

/-- `path.as_posix()`. -/
def asPosix (path : RelPath) : Str :=
  match path with
  | [] => [dot]
  | path => [slash].intercalate path

/-- The order of `sorted` on paths. -/
def Before (p q : RelPath) : Prop := List.Lex (List.Lex (· < ·)) p q

instance : DecidableRel Before := inferInstanceAs (DecidableRel (List.Lex (List.Lex (· < ·))))

/-! ## Trees -/

/-- The permission bits, `stat.S_IMODE(mode) & 0o777`. -/
abbrev Mode := Fin 0o1000

scoped instance neZero_modes : NeZero 0o1000 := ⟨by decide⟩

/-- A regular file or a directory, with what is kept of its mode. -/
inductive Node (μ : Type) where
  | directory (mode : μ)
  | file (mode : μ) (content : List UInt8)
deriving DecidableEq, Repr

variable {μ ν : Type}
variable {value : Str} {chars : List Char} {bytes : List UInt8} {path p q : RelPath}

def Node.isDir : Node μ → Bool
  | .directory _ => true
  | .file _ _ => false

def Node.mode : Node μ → μ
  | .directory mode | .file mode _ => mode

def Node.content : Node μ → List UInt8
  | .directory _ => []
  | .file _ content => content

def Node.map (f : μ → ν) : Node μ → Node ν
  | .directory mode => .directory (f mode)
  | .file mode content => .file (f mode) content

/-- What stands below a directory: sorted, under names, and each entry in a directory. -/
structure Listing (below : List (RelPath × Bool)) : Prop where
  sorted : (below.map Prod.fst).Pairwise Before
  names : ∀ e ∈ below, e.1 ≠ [] ∧ ∀ name ∈ e.1, IsName name
  parents : ∀ e ∈ below, e.1.dropLast = [] ∨ (e.1.dropLast, true) ∈ below

instance : DecidablePred Listing := fun below ↦
  decidable_of_iff ((below.map Prod.fst).Pairwise Before ∧
      (∀ e ∈ below, e.1 ≠ [] ∧ ∀ name ∈ e.1, IsName name) ∧
      ∀ e ∈ below, e.1.dropLast = [] ∨ (e.1.dropLast, true) ∈ below)
    ⟨fun h ↦ ⟨h.1, h.2.1, h.2.2⟩, fun h ↦ ⟨h.sorted, h.names, h.parents⟩⟩

def shape (below : List (RelPath × Node μ)) : List (RelPath × Bool) :=
  below.map fun e ↦ (e.1, e.2.isDir)

/-- What `ensure_safe_tree` accepts: regular files and directories. -/
structure FileTree (μ : Type) where
  root : Node μ
  below : List (RelPath × Node μ)
  listing : Listing (shape below)
  flat : root.isDir = false → below = []

/-- `[path, *sorted(path.rglob("*"))]`, relative to the path. -/
def FileTree.paths (t : FileTree μ) : List (RelPath × Node μ) := ([], t.root) :: t.below

theorem shape_map (f : μ → ν) (below : List (RelPath × Node μ)) :
    shape (below.map fun e ↦ (e.1, e.2.map f)) = shape below := by
  unfold shape
  rw [List.map_map]
  apply List.map_congr_left
  intro e _
  obtain ⟨path, mode | ⟨mode, content⟩⟩ := e <;> rfl

def FileTree.erase (t : FileTree μ) : FileTree Unit where
  root := t.root.map fun _ ↦ ()
  below := t.below.map fun e ↦ (e.1, e.2.map fun _ ↦ ())
  listing := by
    rw [shape_map]
    exact t.listing
  flat h := by
    rw [t.flat (by revert h; cases t.root <;> exact id), List.map_nil]

@[ext]
theorem FileTree.ext {t t' : FileTree μ} (hroot : t.root = t'.root) (hbelow : t.below = t'.below) :
    t = t' := by
  cases t
  cases t'
  cases hroot
  cases hbelow
  rfl

/-! ## Encoding -/

theorem Code.char?_eq_some {c : Code} {char : Char} : c.char? = some char ↔ c = Code.ofChar char := by
  constructor
  · intro h
    obtain ⟨hvalid, heq⟩ := Option.dite_none_right_eq_some.mp h
    rw [← Option.some.inj heq]
    rfl
  · rintro rfl
    have hvalid : (Code.ofChar char).val.isValidChar := char.valid
    exact dif_pos hvalid

theorem mapM_char?_eq_some :
    value.mapM Code.char? = some chars ↔ value = chars.map Code.ofChar := by
  induction value generalizing chars with
  | nil =>
    rw [List.mapM_nil]
    cases chars with
    | nil => exact iff_of_true rfl rfl
    | cons => exact iff_of_false (fun h => by cases h) (fun h => by cases h)
  | cons c value ih =>
    rw [List.mapM_cons]
    cases chars with
    | nil => simp [Option.bind_eq_some_iff]
    | cons char chars =>
      simp only [Option.bind_eq_bind, Option.bind_eq_some_iff, Option.pure_def, Option.some.injEq,
        List.cons.injEq, List.map_cons, Code.char?_eq_some]
      constructor
      · rintro ⟨_, hc, _, hvalue, rfl, rfl⟩
        exact ⟨hc, ih.mp hvalue⟩
      · rintro ⟨hc, hvalue⟩
        exact ⟨char, hc, chars, ih.mpr hvalue, rfl, rfl⟩

theorem utf8?_eq_some : utf8? value = some bytes ↔
    ∃ chars : List Char, value = chars.map Code.ofChar ∧
      bytes = chars.flatMap String.utf8EncodeChar := by
  unfold utf8?
  rw [Option.map_eq_some_iff]
  constructor
  · rintro ⟨chars, hvalue, rfl⟩
    exact ⟨chars, mapM_char?_eq_some.mp hvalue, rfl⟩
  · rintro ⟨chars, hvalue, rfl⟩
    exact ⟨chars, mapM_char?_eq_some.mpr hvalue, rfl⟩

theorem utf8_injective {chars' : List Char}
    (h : chars.flatMap String.utf8EncodeChar = chars'.flatMap String.utf8EncodeChar) :
    chars = chars' := by
  have hdecode : chars.utf8Encode.utf8Decode? = chars'.utf8Encode.utf8Decode? :=
    congrArg (fun bytes : List UInt8 ↦ bytes.toByteArray.utf8Decode?) h
  rw [List.utf8Decode?_utf8Encode, List.utf8Decode?_utf8Encode] at hdecode
  exact List.toArray_inj (Option.some.inj hdecode)

theorem utf8?_inj {value' : Str} (h : utf8? value = some bytes)
    (h' : utf8? value' = some bytes) : value = value' := by
  obtain ⟨chars, rfl, rfl⟩ := utf8?_eq_some.mp h
  obtain ⟨chars', rfl, hbytes⟩ := utf8?_eq_some.mp h'
  rw [utf8_injective hbytes]

theorem byte_ne_zero {n : Nat} (hlow : 0 < n) (hhigh : n < 256) : (0 : UInt8) ≠ UInt8.ofNat n := by
  intro h
  have hn := congrArg UInt8.toNat h
  rw [UInt8.toNat_ofNat', Nat.mod_eq_of_lt (by omega)] at hn
  exact absurd hn (by show 0 ≠ n; omega)

theorem zero_mem_utf8EncodeChar {c : Char} (h : 0 ∈ String.utf8EncodeChar c) : c = Char.ofNat 0 := by
  unfold String.utf8EncodeChar at h
  dsimp only at h
  have hlead : ∀ n k m, 0 < k → m + k ≤ 256 → 0 < m → (0 : UInt8) ≠ UInt8.ofNat (n % m + k) :=
    fun n k m hk hm hpos => byte_ne_zero (by omega) (by have := Nat.mod_lt n hpos; omega)
  split at h
  · rename_i hle
    have hzero := List.mem_singleton.mp h
    by_cases hv : c.val.toNat = 0
    · exact Char.ext (UInt32.toNat_inj.mp hv)
    · exact absurd hzero (byte_ne_zero (by omega) (by omega))
  · -- the other encodings have a mark in every byte
    exfalso
    split at h
    · simp only [List.mem_cons, List.not_mem_nil, or_false] at h
      rcases h with h | h <;> exact hlead _ _ _ (by decide) (by decide) (by decide) h
    · split at h
      · simp only [List.mem_cons, List.not_mem_nil, or_false] at h
        rcases h with h | h | h <;> exact hlead _ _ _ (by decide) (by decide) (by decide) h
      · simp only [List.mem_cons, List.not_mem_nil, or_false] at h
        rcases h with h | h | h | h <;> exact hlead _ _ _ (by decide) (by decide) (by decide) h

theorem zero_notMem_utf8 (h : utf8? value = some bytes) (hvalue : 0 ∉ value) : 0 ∉ bytes := by
  obtain ⟨chars, rfl, rfl⟩ := utf8?_eq_some.mp h
  intro hzero
  obtain ⟨c, hc, hmem⟩ := List.mem_flatMap.mp hzero
  apply hvalue
  rw [zero_mem_utf8EncodeChar hmem] at hc
  exact List.mem_map.mpr ⟨_, hc, rfl⟩

/-! ## Paths as texts -/

theorem asPosix_eq (h : path ≠ []) : asPosix path = [slash].intercalate path := by
  cases path with
  | nil => exact absurd rfl h
  | cons => rfl

theorem splitOn_asPosix (h : path ≠ []) (hnames : ∀ name ∈ path, IsName name) :
    (asPosix path).splitOn slash = path := by
  rw [asPosix_eq h]
  exact List.splitOn_intercalate slash (fun name hname => (hnames name hname).slash) h

theorem asPosix_inj (hp : ∀ name ∈ p, IsName name) (hq : ∀ name ∈ q, IsName name)
    (h : asPosix p = asPosix q) : p = q := by
  -- the text of no entry is the one of the root
  have hroot : ∀ {path : RelPath}, path ≠ [] → (∀ name ∈ path, IsName name) →
      asPosix path ≠ asPosix [] := by
    intro path hne hnames heq
    have hsplit := splitOn_asPosix hne hnames
    rw [heq] at hsplit
    have hdot : path = [[dot]] := hsplit.symm.trans (by decide)
    exact (hnames [dot] (by rw [hdot]; exact List.mem_singleton_self _)).dot.1 rfl
  by_cases hpne : p = []
  · by_cases hqne : q = []
    · rw [hpne, hqne]
    · rw [hpne] at h
      exact absurd h.symm (hroot hqne hq)
  · by_cases hqne : q = []
    · rw [hqne] at h
      exact absurd h (hroot hpne hp)
    · rw [← splitOn_asPosix hpne hp, ← splitOn_asPosix hqne hq, h]

theorem mem_intercalate {c : Code} : ∀ {path : RelPath}, c ∈ [slash].intercalate path →
    c = slash ∨ ∃ name ∈ path, c ∈ name
  | [], h => absurd h List.not_mem_nil
  | [name], h => .inr ⟨name, List.mem_singleton_self _, by simpa [List.intercalate] using h⟩
  | name :: next :: rest, h => by
    have hsplit : c ∈ name ++ slash :: [slash].intercalate (next :: rest) := by
      simpa [List.intercalate] using h
    rcases List.mem_append.mp hsplit with hname | hrest
    · exact .inr ⟨name, List.mem_cons_self, hname⟩
    · rcases List.mem_cons.mp hrest with hslash | hrest
      · exact .inl hslash
      · rcases mem_intercalate hrest with hslash | ⟨other, hother, hmem⟩
        · exact .inl hslash
        · exact .inr ⟨other, List.mem_cons_of_mem _ hother, hmem⟩

theorem zero_notMem_asPosix (hnames : ∀ name ∈ path, IsName name) : 0 ∉ asPosix path := by
  by_cases h : path = []
  · subst h
    decide
  · rw [asPosix_eq h]
    intro hzero
    rcases mem_intercalate hzero with hslash | ⟨name, hname, hmem⟩
    · exact absurd hslash (by decide)
    · exact (hnames name hname).nul hmem

/-! ## Listings -/

theorem Before.asymm (h : Before p q) : ¬ Before q p :=
  have hasymm : Std.Asymm (List.Lex (List.Lex (α := Code) (· < ·))) := inferInstance
  hasymm.asymm p q h

theorem before_append (h : q ≠ []) : Before p (p ++ q) := by
  cases q with
  | nil => exact absurd rfl h
  | cons name rest =>
    have hlex := List.Lex.append_left (List.Lex (· < ·)) (List.Lex.nil (a := name) (l := rest)) p
    rwa [List.append_nil] at hlex

theorem Listing.shorter {front rest : List (RelPath × Bool)} (h : Listing (front ++ rest)) :
    Listing front where
  sorted := by
    have hsorted := h.sorted
    rw [List.map_append] at hsorted
    exact (List.pairwise_append.mp hsorted).1
  names e he := h.names e (List.mem_append_left _ he)
  parents e he := by
    rcases h.parents e (List.mem_append_left _ he) with hroot | hparent
    · exact .inl hroot
    · rcases List.mem_append.mp hparent with hfront | hrest
      · exact .inr hfront
      · -- a parent comes before what is in it
        exfalso
        have hsorted := h.sorted
        rw [List.map_append] at hsorted
        have hafter : Before e.1 e.1.dropLast := (List.pairwise_append.mp hsorted).2.2 _
          (List.mem_map_of_mem he) _ (List.mem_map_of_mem hrest)
        have hne : e.1 ≠ [] := (h.names e (List.mem_append_left _ he)).1
        have hbefore : Before e.1.dropLast e.1 := by
          have hlast := before_append (p := e.1.dropLast) (List.cons_ne_nil (e.1.getLast hne) [])
          rwa [List.dropLast_append_getLast hne] at hlast
        exact hafter.asymm hbefore

end NixNas.State
