import Mathlib.Algebra.GroupWithZero.Nat
import Mathlib.Data.Char
import Mathlib.Data.List.Lex
import Mathlib.Logic.Function.Basic
import NixNas.Lib.Fallible
import NixNas.Lib.Journal
import NixNas.Names

/-!
# Bundles of generated files (`_replace_bundle` of `services/nas_v2_apply.py`)

Regular files by their paths.  A mode is the nine bits of `st_mode & 0o777`.  Temporary files stand
apart, by the number of their `mkstemp`, as their names are new.
-/

open Fallible
open Journal (sorted mem_sorted nodup_sorted)

namespace NixNas.Apply

abbrev Bytes := List UInt8

abbrev Mode := Fin 512

scoped instance neZero_modes : NeZero 512 := ⟨by decide⟩

structure File where
  data : Bytes
  mode : Mode
deriving DecidableEq, Repr

abbrev Files := Text → Option File

structure Listed where
  path : Text
  data : Bytes
  mode : Mode
deriving DecidableEq, Repr

def Listed.file (f : Listed) : File := ⟨f.data, f.mode⟩

structure Disk where
  files : Files
  temps : Nat → Option File
  /-- The number of the next temporary file. -/
  fresh : Nat

/-- `path.parent`. -/
def parent (path : Text) : Text := ((path.reverse.dropWhile (· ≠ '/')).drop 1).reverse

/-- The local variables of `_replace_bundle`; `fault` counts the steps before the one that raises. -/
structure Run where
  disk : Disk
  prepared : List (Text × Nat)
  previous : Text → Option (Option File)
  mutated : List Text
  fault : Option Nat

def Run.attempt (r : Run) : Except Run Run :=
  match r.fault with
  | none => .ok r
  | some 0 => .error r
  | some (n + 1) => .ok { r with fault := some n }

/-! ## Temporary files -/

def Disk.create (d : Disk) : Disk :=
  { d with temps := Function.update d.temps d.fresh (some ⟨[], 0o600⟩), fresh := d.fresh + 1 }

def Disk.fill (d : Disk) (temp : Nat) (file : File) : Disk :=
  { d with temps := Function.update d.temps temp (some file) }

def Disk.discard (d : Disk) (temp : Nat) : Disk :=
  { d with temps := Function.update d.temps temp none }

def Disk.write (d : Disk) (path : Text) (file : Option File) : Disk :=
  { d with files := Function.update d.files path file }

/-- `os.replace` of a temporary file that exists. -/
def Disk.replace (d : Disk) (temp : Nat) (path : Text) : Disk :=
  (d.write path (d.temps temp)).discard temp

/-- `_prepare_temp`, with the number of the temporary file. -/
def prepareTemp (r : Run) (file : File) : Except Run Run := do
  let r ← r.attempt
  let temp := r.disk.fresh
  let r := { r with disk := r.disk.create }
  match r.attempt with
  | .error r => .error { r with disk := r.disk.discard temp }
  | .ok r => .ok { r with disk := r.disk.fill temp file }

/-! ## Steps -/

def snapshot (r : Run) (path : Text) : Run :=
  { r with previous := Function.update r.previous path (some (r.disk.files path)) }

/-- A listed file is remembered as it is and prepared as it shall be. -/
def prepare (r : Run) (f : Listed) : Except Run Run := do
  let temp := r.disk.fresh
  let r ← prepareTemp (snapshot r f.path) f.file
  return { r with prepared := r.prepared ++ [(f.path, temp)] }

def rename (r : Run) (p : Text × Nat) : Except Run Run := do
  let r ← r.attempt
  return { r with disk := r.disk.replace p.2 p.1, mutated := r.mutated ++ [p.1] }

def unlink (r : Run) (path : Text) : Except Run Run := do
  let r ← r.attempt
  match r.disk.files path with
  | none => return r
  | some _ => return { r with disk := r.disk.write path none, mutated := r.mutated ++ [path] }

/-- The renames, the deletions and the syncs of the directories. -/
def mutate (r : Run) (removals : List Text) : Except Run Run := do
  let r ← r.prepared.foldlM rename r
  let r ← removals.foldlM unlink r
  (r.mutated.map parent).dedup.foldlM (fun r _ ↦ r.attempt) r

def restore (r : Run) (path : Text) : Run :=
  match r.previous path with
  | none => r
  | some none => { r with disk := r.disk.write path none }
  | some (some old) =>
    { r with disk := (r.disk.create.fill r.disk.fresh old).replace r.disk.fresh path }

def rollback (r : Run) : Run := r.mutated.reverse.foldl restore r

/-- The `finally` clause. -/
def cleanup (r : Run) : Disk := r.prepared.foldl (fun d p ↦ d.discard p.2) r.disk

/-! ## The whole -/

def Listed.differs (files : Files) (f : Listed) : Bool := files f.path ≠ some f.file

def changedFiles (files : Files) (bundle : List Listed) : List Listed :=
  bundle.filter (·.differs files)

def removals (bundle : List Listed) (removePaths : Finset Text) : List Text :=
  (sorted removePaths).filter (· ∉ bundle.map Listed.path)

def Run.start (files : Files) (fault : Option Nat) : Run :=
  ⟨⟨files, fun _ ↦ none, 0⟩, [], fun _ ↦ none, [], fault⟩

/-- The disk that is left, and the paths that are returned unless a step raises. -/
def replaceBundle (files : Files) (bundle : List Listed) (removePaths : Finset Text)
    (fault : Option Nat) : Disk × Option (List Text) :=
  let changed := changedFiles files bundle
  let removed := removals bundle removePaths
  match changed.foldlM prepare (Run.start files fault) with
  | .error r => (cleanup r, none)
  | .ok r =>
    match mutate (removed.foldl snapshot r) removed with
    | .error r => (cleanup (rollback r), none)
    | .ok r => (cleanup r, some (changed.map Listed.path ++
        removed.filter fun path ↦ (r.previous path).join.isSome))

/-! ## Temporary files that are left -/

variable {old : Files} {bundle : List Listed} {removePaths : Finset Text} {fault : Option Nat}
variable {done todo listed : List Listed} {f : Listed} {path : Text} {removed : List Text}
variable {r r' : Run} {d : Disk}

theorem attempt_cases (r : Run) :
    r.attempt = .error r ∨ ∃ fault, r.attempt = .ok { r with fault } := by
  unfold Run.attempt
  split
  · exact .inr ⟨r.fault, rfl⟩
  · exact .inl rfl
  · exact .inr ⟨_, rfl⟩

theorem prepareTemp_cases (r : Run) (file : File) :
    (∃ d fault, prepareTemp r file = .error { r with disk := d, fault } ∧
      (d = r.disk ∨ d = r.disk.create.discard r.disk.fresh)) ∨
    ∃ fault, prepareTemp r file = .ok { r with disk := r.disk.create.fill r.disk.fresh file, fault } := by
  unfold prepareTemp
  rcases attempt_cases r with hr | ⟨fault, hr⟩
  · rw [hr]
    exact .inl ⟨r.disk, r.fault, rfl, .inl rfl⟩
  · rw [hr]
    rcases attempt_cases { r with disk := r.disk.create, fault } with hr | ⟨fault', hr⟩
    · left
      refine ⟨_, fault, ?_, .inr rfl⟩
      show (match Run.attempt { r with disk := r.disk.create, fault } with
        | .error r' => Except.error { r' with disk := r'.disk.discard r.disk.fresh }
        | .ok r' => .ok { r' with disk := r'.disk.fill r.disk.fresh file }) = _
      rw [hr]
    · right
      refine ⟨fault', ?_⟩
      show (match Run.attempt { r with disk := r.disk.create, fault } with
        | .error r' => Except.error { r' with disk := r'.disk.discard r.disk.fresh }
        | .ok r' => .ok { r' with disk := r'.disk.fill r.disk.fresh file }) = _
      rw [hr]

theorem prepare_cases (r : Run) (f : Listed) :
    (∃ d fault, prepare r f = .error { snapshot r f.path with disk := d, fault } ∧
      (d = r.disk ∨ d = r.disk.create.discard r.disk.fresh)) ∨
    ∃ fault, prepare r f = .ok { snapshot r f.path with
      disk := r.disk.create.fill r.disk.fresh f.file
      prepared := r.prepared ++ [(f.path, r.disk.fresh)]
      fault } := by
  unfold prepare
  rcases prepareTemp_cases (snapshot r f.path) f.file with ⟨d, fault, h, hd⟩ | ⟨fault, h⟩
  · rw [h]
    exact .inl ⟨d, fault, rfl, hd⟩
  · rw [h]
    exact .inr ⟨fault, rfl⟩

theorem rename_cases (r : Run) (p : Text × Nat) :
    rename r p = .error r ∨
      ∃ fault, rename r p = .ok { r with
        disk := r.disk.replace p.2 p.1, mutated := r.mutated ++ [p.1], fault } := by
  unfold rename
  rcases attempt_cases r with hr | ⟨fault, hr⟩
  · rw [hr]
    exact .inl rfl
  · rw [hr]
    exact .inr ⟨fault, rfl⟩

theorem unlink_cases (r : Run) (path : Text) :
    unlink r path = .error r ∨
      (r.disk.files path = none ∧ ∃ fault, unlink r path = .ok { r with fault }) ∨
      (r.disk.files path ≠ none ∧ ∃ fault, unlink r path = .ok { r with
        disk := r.disk.write path none, mutated := r.mutated ++ [path], fault }) := by
  unfold unlink
  rcases attempt_cases r with hr | ⟨fault, hr⟩
  · rw [hr]
    exact .inl rfl
  · rw [hr]
    cases hfile : r.disk.files path with
    | none =>
      refine .inr (.inl ⟨rfl, fault, ?_⟩)
      show (match r.disk.files path with
        | none => Except.ok ({ r with fault } : Run)
        | some _ => .ok { r with
            disk := r.disk.write path none, mutated := r.mutated ++ [path], fault }) = _
      rw [hfile]
    | some file =>
      refine .inr (.inr ⟨nofun, fault, ?_⟩)
      show (match r.disk.files path with
        | none => Except.ok ({ r with fault } : Run)
        | some _ => .ok { r with
            disk := r.disk.write path none, mutated := r.mutated ++ [path], fault }) = _
      rw [hfile]

/-- The temporary files are those that `finally` removes. -/
def Run.Tidy (r : Run) : Prop := ∀ n, r.disk.temps n ≠ none → n ∈ r.prepared.map Prod.snd

theorem files_cleanup : (cleanup r).files = r.disk.files := by
  unfold cleanup
  have h : ∀ (prepared : List (Text × Nat)) (d : Disk),
      (prepared.foldl (fun d p ↦ d.discard p.2) d).files = d.files := by
    intro prepared
    induction prepared with
    | nil => exact fun _ => rfl
    | cons p prepared ih => exact fun d => ih (d.discard p.2)
  exact h r.prepared r.disk

theorem Run.Tidy.temps_cleanup (h : r.Tidy) (n : Nat) : (cleanup r).temps n = none := by
  unfold cleanup
  have hkeep : ∀ (prepared : List (Text × Nat)) (d : Disk), (d.temps n ≠ none → n ∈ prepared.map Prod.snd) →
      (prepared.foldl (fun d p ↦ d.discard p.2) d).temps n = none := by
    intro prepared
    induction prepared with
    | nil =>
      intro d hd
      by_contra hne
      exact List.not_mem_nil (hd hne)
    | cons p prepared ih =>
      intro d hd
      apply ih
      intro hne
      by_cases heq : n = p.2
      · -- it is removed at once
        rw [heq] at hne
        exact absurd (Function.update_self ..) hne
      · have hold : d.temps n ≠ none := by
          rwa [show (d.discard p.2).temps n = d.temps n from Function.update_of_ne heq ..] at hne
        rcases List.mem_cons.mp (hd hold) with hhead | htail
        · exact absurd hhead heq
        · exact htail
  exact hkeep r.prepared r.disk (h n)

/-! ## Preparations -/

structure Untouched (old : Files) (r : Run) : Prop where
  files : r.disk.files = old
  tidy : r.Tidy

theorem untouched_start : Untouched old (Run.start old fault) := ⟨rfl, fun _ h => absurd rfl h⟩

theorem temps_create_discard (d : Disk) (n : Nat) (h : (d.create.discard d.fresh).temps n ≠ none) :
    d.temps n ≠ none := by
  by_cases heq : n = d.fresh
  · rw [heq] at h
    exact absurd (Function.update_self ..) h
  · have hcreate : d.create.temps n = d.temps n := Function.update_of_ne heq ..
    have hdiscard : (d.create.discard d.fresh).temps n = d.create.temps n := Function.update_of_ne heq ..
    rwa [hdiscard, hcreate] at h

theorem temps_create_fill (d : Disk) (n : Nat) (file : File) (hn : n ≠ d.fresh) :
    (d.create.fill d.fresh file).temps n = d.temps n := by
  have hcreate : d.create.temps n = d.temps n := Function.update_of_ne hn ..
  rw [← hcreate]
  exact Function.update_of_ne hn ..

theorem Untouched.prepare (h : Untouched old r) (f : Listed) : Carries (Untouched old) (prepare r f) := by
  obtain ⟨hfiles, htidy⟩ := h
  obtain ⟨d, fault, hr, rfl | rfl⟩ | ⟨fault, hr⟩ := prepare_cases r f
  · rw [hr]
    exact ⟨hfiles, htidy⟩
  · rw [hr]
    exact ⟨hfiles, fun n hn => htidy n (temps_create_discard r.disk n hn)⟩
  · rw [hr]
    refine ⟨hfiles, fun n hn => ?_⟩
    rw [List.map_append, List.mem_append]
    by_cases heq : n = r.disk.fresh
    · exact .inr (by rw [heq]; exact List.mem_cons_self)
    · left
      apply htidy n
      rw [← temps_create_fill r.disk n f.file heq]
      exact hn

/-- What the preparation of some listed files leaves. -/
structure Prepared (old : Files) (done : List Listed) (r : Run) : Prop where
  files : r.disk.files = old
  fresh : r.disk.fresh = done.length
  temps : ∀ n, r.disk.temps n = done[n]?.map Listed.file
  prepared : r.prepared = (done.map Listed.path).zipIdx
  previous : ∀ path, r.previous path = if path ∈ done.map Listed.path then some (old path) else none
  mutated : r.mutated = []

theorem prepared_start : Prepared old [] (Run.start old fault) where
  files := rfl
  fresh := rfl
  temps _ := rfl
  prepared := rfl
  previous _ := rfl
  mutated := rfl

theorem Prepared.prepare (h : Prepared old done r)
    (hr : prepare r f = .ok r') : Prepared old (done ++ [f]) r' := by
  obtain ⟨d, fault, hr', -⟩ | ⟨fault, hr'⟩ := prepare_cases r f
  · rw [hr'] at hr
    cases hr
  · rw [hr'] at hr
    obtain rfl := Except.ok.inj hr
    refine ⟨h.files, ?_, fun n => ?_, ?_, fun path => ?_, h.mutated⟩
    · show r.disk.fresh + 1 = _
      rw [h.fresh, List.length_append]
      rfl
    · show (r.disk.create.fill r.disk.fresh f.file).temps n = _
      by_cases heq : n = r.disk.fresh
      · rw [heq, h.fresh, List.getElem?_concat_length]
        exact Function.update_self ..
      · rw [temps_create_fill r.disk n f.file heq, h.temps n]
        rw [h.fresh] at heq
        by_cases hlt : n < done.length
        · rw [List.getElem?_append_left hlt]
        · have hge : (done ++ [f]).length ≤ n := by
            rw [List.length_append, List.length_singleton]
            omega
          rw [List.getElem?_eq_none (by omega), List.getElem?_eq_none hge]
    · show r.prepared ++ [(f.path, r.disk.fresh)] = _
      rw [h.prepared, h.fresh, List.map_append, List.zipIdx_append, List.length_map, Nat.zero_add]
      rfl
    · show Function.update r.previous f.path (some (r.disk.files f.path)) path = _
      rw [List.map_append]
      by_cases heq : path = f.path
      · rw [heq, Function.update_self, h.files, if_pos (by simp)]
      · rw [Function.update_of_ne heq, h.previous path]
        simp [heq]

theorem prepared_foldlM (h : Prepared old done r)
    (hr : todo.foldlM prepare r = .ok r') : Prepared old (done ++ todo) r' := by
  induction todo generalizing done r with
  | nil =>
    obtain rfl := Except.ok.inj hr
    rwa [List.append_nil]
  | cons f todo ih =>
    rw [List.foldlM_cons] at hr
    obtain ⟨r₁, hr₁, hr⟩ := bind_ok hr
    have h₁ := ih (h.prepare hr₁) hr
    rwa [List.append_assoc] at h₁

/-! ## Rollback -/

/-- All that has changed is remembered. -/
structure Safe (old : Files) (tracked : List Text) (r : Run) : Prop where
  elsewhere : ∀ path ∉ r.mutated, r.disk.files path = old path
  previous : ∀ path ∈ tracked, r.previous path = some (old path)
  mutated : ∀ path ∈ r.mutated, path ∈ tracked
  tidy : r.Tidy

variable {tracked : List Text}

theorem temps_replace (d : Disk) (temp : Nat) (path : Text) (n : Nat)
    (h : (d.replace temp path).temps n ≠ none) : d.temps n ≠ none := by
  by_cases heq : n = temp
  · rw [heq] at h
    exact absurd (Function.update_self ..) h
  · have hsame : (d.replace temp path).temps n = d.temps n := Function.update_of_ne heq ..
    rwa [hsame] at h

theorem Safe.rename (h : Safe old tracked r) {p : Text × Nat} (hp : p.1 ∈ tracked) :
    Carries (Safe old tracked) (rename r p) := by
  obtain hr | ⟨fault, hr⟩ := rename_cases r p
  · rw [hr]
    exact h
  · rw [hr]
    refine ⟨fun path hpath => ?_, h.previous, fun path hpath => ?_, fun n hn => ?_⟩
    · obtain ⟨hold, hnew⟩ := not_or.mp (mt List.mem_append.mpr hpath)
      have hne : path ≠ p.1 := fun heq => hnew (heq ▸ List.mem_cons_self)
      show Function.update r.disk.files p.1 _ path = _
      rw [Function.update_of_ne hne]
      exact h.elsewhere path hold
    · rcases List.mem_append.mp hpath with hold | hnew
      · exact h.mutated path hold
      · rwa [List.mem_singleton.mp hnew]
    · exact h.tidy n (temps_replace r.disk p.2 p.1 n hn)

theorem Safe.unlink (h : Safe old tracked r) (hp : path ∈ tracked) :
    Carries (Safe old tracked) (unlink r path) := by
  obtain hr | ⟨-, fault, hr⟩ | ⟨-, fault, hr⟩ := unlink_cases r path
  · rw [hr]
    exact h
  · rw [hr]
    exact ⟨h.elsewhere, h.previous, h.mutated, h.tidy⟩
  · rw [hr]
    refine ⟨fun q hq => ?_, h.previous, fun q hq => ?_, h.tidy⟩
    · obtain ⟨hold, hnew⟩ := not_or.mp (mt List.mem_append.mpr hq)
      have hne : q ≠ path := fun heq => hnew (heq ▸ List.mem_cons_self)
      show Function.update r.disk.files path none q = _
      rw [Function.update_of_ne hne]
      exact h.elsewhere q hold
    · rcases List.mem_append.mp hq with hold | hnew
      · exact h.mutated q hold
      · rwa [List.mem_singleton.mp hnew]

theorem Safe.attempt (h : Safe old tracked r) : Carries (Safe old tracked) r.attempt := by
  obtain hr | ⟨fault, hr⟩ := attempt_cases r
  · rw [hr]
    exact h
  · rw [hr]
    exact ⟨h.elsewhere, h.previous, h.mutated, h.tidy⟩

theorem Safe.mutate (h : Safe old tracked r)
    (hprepared : ∀ p ∈ r.prepared, p.1 ∈ tracked) (hremoved : ∀ path ∈ removed, path ∈ tracked) :
    Carries (Safe old tracked) (mutate r removed) := by
  apply Carries.bind (Carries.foldlM h fun p hp s hs => hs.rename (hprepared p hp))
  intro s hs
  apply Carries.bind (Carries.foldlM hs fun path hpath s hs => hs.unlink (hremoved path hpath))
  intro s hs
  exact Carries.foldlM hs fun _ _ s hs => hs.attempt

theorem restore_eq (h : r.previous path = some (old path)) :
    (restore r path).disk.files = Function.update r.disk.files path (old path) ∧
      (∀ n, (restore r path).disk.temps n ≠ none → r.disk.temps n ≠ none) ∧
      (restore r path).previous = r.previous ∧ (restore r path).prepared = r.prepared := by
  unfold restore
  rw [h]
  cases hfile : old path with
  | none => exact ⟨rfl, fun n hn => hn, rfl, rfl⟩
  | some file =>
    refine ⟨?_, fun n hn => ?_, rfl, rfl⟩
    · show Function.update r.disk.files path
        ((r.disk.create.fill r.disk.fresh file).temps r.disk.fresh) = _
      exact congrArg _ (Function.update_self ..)
    · by_cases heq : n = r.disk.fresh
      · rw [heq] at hn
        exact absurd (Function.update_self ..) hn
      · have hold := temps_replace _ _ _ n hn
        rwa [temps_create_fill r.disk n file heq] at hold

theorem Safe.rollback (h : Safe old tracked r) :
    (rollback r).disk.files = old ∧ (rollback r).Tidy := by
  have hall : ∀ (paths : List Text) (s : Run), (∀ path ∈ paths, s.previous path = some (old path)) →
      (∀ path ∉ paths, s.disk.files path = old path) → s.Tidy →
      (paths.foldl restore s).disk.files = old ∧ (paths.foldl restore s).Tidy := by
    intro paths
    induction paths with
    | nil => exact fun s _ hsame htidy => ⟨funext fun path => hsame path List.not_mem_nil, htidy⟩
    | cons path paths ih =>
      intro s hprevious hsame htidy
      rw [List.forall_mem_cons] at hprevious
      obtain ⟨hfiles, htemps, hkept, hprepared⟩ := restore_eq hprevious.1
      apply ih
      · rw [hkept]
        exact hprevious.2
      · intro q hq
        rw [hfiles]
        by_cases heq : q = path
        · rw [heq, Function.update_self]
        · rw [Function.update_of_ne heq]
          exact hsame q (List.not_mem_cons_of_ne_of_not_mem heq hq)
      · intro n hn
        rw [hprepared]
        exact htidy n (htemps n hn)
  refine hall r.mutated.reverse r (fun path hpath => ?_) (fun path hpath => ?_) h.tidy
  · exact h.previous path (h.mutated path (List.mem_reverse.mp hpath))
  · exact h.elsewhere path fun hmem => hpath (List.mem_reverse.mpr hmem)

/-! ## Bundles that go through -/

def writeAll (files : Files) (listed : List Listed) : Files :=
  listed.foldl (fun files f ↦ Function.update files f.path (some f.file)) files

theorem writeAll_of_notMem (h : path ∉ listed.map Listed.path)
    (files : Files) : writeAll files listed path = files path := by
  induction listed generalizing files with
  | nil => rfl
  | cons f listed ih =>
    rw [List.map_cons, List.mem_cons, not_or] at h
    exact (ih h.2 _).trans (Function.update_of_ne h.1 ..)

theorem writeAll_of_mem (hnodup : (listed.map Listed.path).Nodup)
    (hf : f ∈ listed) (files : Files) : writeAll files listed f.path = some f.file := by
  induction listed generalizing files with
  | nil => exact (List.not_mem_nil hf).elim
  | cons g listed ih =>
    rw [List.map_cons, List.nodup_cons] at hnodup
    rcases List.mem_cons.mp hf with rfl | hf
    · exact (writeAll_of_notMem hnodup.1 _).trans (Function.update_self ..)
    · exact ih hnodup.2 hf _

theorem renames_ok (k : Nat) (htemps : ∀ n, r.disk.temps (k + n) = todo[n]?.map Listed.file)
    (hr : ((todo.map Listed.path).zipIdx k).foldlM rename r = .ok r') :
    r'.disk.files = writeAll r.disk.files todo ∧ r'.previous = r.previous := by
  induction todo generalizing r k with
  | nil =>
    obtain rfl := Except.ok.inj hr
    exact ⟨rfl, rfl⟩
  | cons f todo ih =>
    rw [List.map_cons, List.zipIdx_cons, List.foldlM_cons] at hr
    obtain ⟨r₁, hr₁, hr⟩ := bind_ok hr
    obtain hcase | ⟨fault, hcase⟩ := rename_cases r (f.path, k)
    · rw [hcase] at hr₁
      cases hr₁
    · rw [hcase] at hr₁
      obtain rfl := Except.ok.inj hr₁
      have htemp : r.disk.temps k = some f.file := htemps 0
      have hleft : ∀ n, (r.disk.replace k f.path).temps (k + 1 + n) = todo[n]?.map Listed.file := by
        intro n
        have hne : k + 1 + n ≠ k := by omega
        show Function.update r.disk.temps k none (k + 1 + n) = _
        rw [Function.update_of_ne hne, show k + 1 + n = k + (n + 1) by omega, htemps (n + 1)]
        rfl
      obtain ⟨hfiles, hprevious⟩ := ih (k + 1) hleft hr
      refine ⟨hfiles.trans ?_, hprevious⟩
      show writeAll (Function.update r.disk.files f.path (r.disk.temps k)) todo = _
      rw [htemp]
      rfl

theorem unlinks_ok (hr : removed.foldlM unlink r = .ok r') :
    (∀ path, r'.disk.files path = if path ∈ removed then none else r.disk.files path) ∧
      r'.previous = r.previous := by
  induction removed generalizing r with
  | nil =>
    obtain rfl := Except.ok.inj hr
    exact ⟨fun path => rfl, rfl⟩
  | cons q removed ih =>
    rw [List.foldlM_cons] at hr
    obtain ⟨r₁, hr₁, hr⟩ := bind_ok hr
    obtain ⟨hfiles, hprevious⟩ := ih hr
    have hfirst : (∀ path, r₁.disk.files path = if path = q then none else r.disk.files path) ∧
        r₁.previous = r.previous := by
      obtain hcase | ⟨hnone, fault, hcase⟩ | ⟨-, fault, hcase⟩ := unlink_cases r q
      · rw [hcase] at hr₁
        cases hr₁
      · rw [hcase] at hr₁
        obtain rfl := Except.ok.inj hr₁
        refine ⟨fun path => ?_, rfl⟩
        split
        · rename_i heq
          rw [heq]
          exact hnone
        · rfl
      · rw [hcase] at hr₁
        obtain rfl := Except.ok.inj hr₁
        exact ⟨fun path => Function.update_apply .., rfl⟩
    refine ⟨fun path => ?_, hprevious.trans hfirst.2⟩
    rw [hfiles path, hfirst.1 path]
    by_cases hmem : path ∈ removed <;> by_cases heq : path = q <;> simp [hmem, heq]

theorem attempts_ok {dirs : List Text} (hr : dirs.foldlM (fun r _ ↦ r.attempt) r = .ok r') :
    r'.disk = r.disk ∧ r'.previous = r.previous := by
  refine foldlM_invariant (P := fun s => s.disk = r.disk ∧ s.previous = r.previous) hr ⟨rfl, rfl⟩ ?_
  intro dir _ s s' hs hr
  obtain hcase | ⟨fault, hcase⟩ := attempt_cases s
  · rw [hcase] at hr
    cases hr
  · rw [hcase] at hr
    obtain rfl := Except.ok.inj hr
    exact hs

def Unfailing (x : Except Run Run) : Prop := ∃ r, x = .ok r ∧ r.fault = none

theorem attempt_unfailing (h : r.fault = none) : r.attempt = .ok r := by
  unfold Run.attempt
  rw [h]

theorem Unfailing.foldlM {α : Type} {g : Run → α → Except Run Run} (h : r.fault = none)
    (hg : ∀ s a, s.fault = none → Unfailing (g s a)) (xs : List α) : Unfailing (xs.foldlM g r) := by
  induction xs generalizing r with
  | nil => exact ⟨r, rfl, h⟩
  | cons x xs ih =>
    obtain ⟨s, hs, hfault⟩ := hg r x h
    rw [List.foldlM_cons, hs]
    exact ih hfault

theorem prepare_unfailing (f : Listed) (h : r.fault = none) : Unfailing (prepare r f) := by
  have h₁ : Run.attempt (snapshot r f.path) = .ok (snapshot r f.path) := attempt_unfailing h
  have h₂ : Run.attempt { snapshot r f.path with disk := r.disk.create } =
      .ok { snapshot r f.path with disk := r.disk.create } := attempt_unfailing h
  unfold prepare prepareTemp
  rw [h₁]
  refine ⟨{ snapshot r f.path with
    disk := r.disk.create.fill r.disk.fresh f.file
    prepared := r.prepared ++ [(f.path, r.disk.fresh)] }, ?_, h⟩
  show ((match Run.attempt { snapshot r f.path with disk := r.disk.create } with
    | .error s => Except.error { s with disk := s.disk.discard r.disk.fresh }
    | .ok s => .ok { s with disk := s.disk.fill r.disk.fresh f.file }) >>= fun s ↦
      pure { s with prepared := s.prepared ++ [(f.path, r.disk.fresh)] }) = _
  rw [h₂]
  rfl

theorem rename_unfailing (p : Text × Nat) (h : r.fault = none) : Unfailing (rename r p) := by
  unfold rename
  rw [attempt_unfailing h]
  exact ⟨_, rfl, h⟩

theorem unlink_unfailing (path : Text) (h : r.fault = none) : Unfailing (unlink r path) := by
  unfold unlink
  rw [attempt_unfailing h]
  show Unfailing (match r.disk.files path with
    | none => .ok r
    | some _ => .ok { r with disk := r.disk.write path none, mutated := r.mutated ++ [path] })
  cases r.disk.files path with
  | none => exact ⟨_, rfl, h⟩
  | some file => exact ⟨_, rfl, h⟩

theorem mutate_unfailing (removed : List Text) (h : r.fault = none) : Unfailing (mutate r removed) := by
  unfold mutate
  obtain ⟨s, hs, hfault⟩ := Unfailing.foldlM h (fun s p => rename_unfailing p) r.prepared
  obtain ⟨s', hs', hfault'⟩ := Unfailing.foldlM hfault (fun s p => unlink_unfailing p) removed
  have hlast : Unfailing ((s'.mutated.map parent).dedup.foldlM (fun r _ ↦ r.attempt) s') :=
    Unfailing.foldlM hfault' (fun s _ hs => ⟨s, attempt_unfailing hs, hs⟩) _
  rw [hs]
  show Unfailing (removed.foldlM unlink s >>= fun r ↦
    (r.mutated.map parent).dedup.foldlM (fun r _ ↦ r.attempt) r)
  rw [hs']
  exact hlast

/-! ## All or nothing -/

theorem snapshots_eq (removed : List Text) :
    (removed.foldl snapshot r).disk = r.disk ∧ (removed.foldl snapshot r).prepared = r.prepared ∧
      (removed.foldl snapshot r).mutated = r.mutated ∧ (removed.foldl snapshot r).fault = r.fault ∧
      ∀ path, (removed.foldl snapshot r).previous path =
        if path ∈ removed then some (r.disk.files path) else r.previous path := by
  induction removed generalizing r with
  | nil => exact ⟨rfl, rfl, rfl, rfl, fun _ => rfl⟩
  | cons q removed ih =>
    obtain ⟨hdisk, hprepared, hmutated, hfault, hprevious⟩ := ih (r := snapshot r q)
    refine ⟨hdisk, hprepared, hmutated, hfault, fun path => (hprevious path).trans ?_⟩
    by_cases hmem : path ∈ removed
    · rw [if_pos hmem, if_pos (List.mem_cons_of_mem _ hmem)]
      rfl
    · rw [if_neg hmem]
      show Function.update r.previous q (some (r.disk.files q)) path = _
      by_cases heq : path = q
      · rw [heq, Function.update_self, if_pos List.mem_cons_self]
      · rw [Function.update_of_ne heq, if_neg (List.not_mem_cons_of_ne_of_not_mem heq hmem)]

structure Replaced (old : Files) (bundle : List Listed) (removePaths : Finset Text) (new : Files)
    (changed : List Text) : Prop where
  written : ∀ f ∈ bundle, new f.path = some f.file
  removed : ∀ path ∈ removePaths, path ∉ bundle.map Listed.path → new path = none
  kept : ∀ path ∉ bundle.map Listed.path, path ∉ removePaths → new path = old path
  changed : ∀ path, path ∈ changed ↔ new path ≠ old path

theorem mem_removals :
    path ∈ removals bundle removePaths ↔ path ∈ removePaths ∧ path ∉ bundle.map Listed.path := by
  unfold removals
  rw [List.mem_filter, mem_sorted, decide_eq_true_eq]

theorem mem_changedFiles : f ∈ changedFiles old bundle ↔ f ∈ bundle ∧ old f.path ≠ some f.file := by
  unfold changedFiles Listed.differs
  rw [List.mem_filter, decide_eq_true_eq]

theorem safe_prepared (h : Prepared old (changedFiles old bundle) r)
    (htidy : r.Tidy) (removed : List Text) :
    Safe old ((changedFiles old bundle).map Listed.path ++ removed) (removed.foldl snapshot r) := by
  obtain ⟨hdisk, hprepared, hmutated, -, hprevious⟩ := snapshots_eq (r := r) removed
  refine ⟨fun path _ => ?_, fun path hpath => ?_, fun path hpath => ?_, fun n hn => ?_⟩
  · rw [hdisk, h.files]
  · rw [hprevious path, h.files, h.previous path]
    rcases List.mem_append.mp hpath with hchanged | hremoved
    · rw [if_pos hchanged, ite_self]
    · rw [if_pos hremoved]
  · rw [hmutated, h.mutated] at hpath
    exact (List.not_mem_nil hpath).elim
  · rw [hprepared]
    rw [hdisk] at hn
    exact htidy n hn

theorem replaceBundle_cases (old : Files) (bundle : List Listed) (removePaths : Finset Text)
    (fault : Option Nat) :
    (∃ r, replaceBundle old bundle removePaths fault = (cleanup r, none) ∧ Untouched old r) ∨
    (∃ tracked r, replaceBundle old bundle removePaths fault = (cleanup (rollback r), none) ∧
      Safe old tracked r) ∨
    ∃ r r', replaceBundle old bundle removePaths fault = (cleanup r',
        some ((changedFiles old bundle).map Listed.path ++
          (removals bundle removePaths).filter fun path ↦ (r'.previous path).join.isSome)) ∧
      Prepared old (changedFiles old bundle) r ∧ r'.Tidy ∧
      mutate ((removals bundle removePaths).foldl snapshot r) (removals bundle removePaths) = .ok r' := by
  have huntouched : Carries (Untouched old) ((changedFiles old bundle).foldlM prepare (Run.start old fault)) :=
    Carries.foldlM untouched_start fun f _ s hs => hs.prepare f
  cases hprepare : (changedFiles old bundle).foldlM prepare (Run.start old fault) with
  | error r =>
    refine .inl ⟨r, ?_, huntouched.error hprepare⟩
    unfold replaceBundle
    dsimp only
    rw [hprepare]
  | ok r =>
    have hprepared : Prepared old (changedFiles old bundle) r := prepared_foldlM prepared_start hprepare
    have hsafe := safe_prepared hprepared (huntouched.ok hprepare).tidy (removals bundle removePaths)
    have hmutate : Carries
        (Safe old ((changedFiles old bundle).map Listed.path ++ removals bundle removePaths))
        (mutate ((removals bundle removePaths).foldl snapshot r) (removals bundle removePaths)) := by
      refine hsafe.mutate (fun p hp => ?_) fun path hpath => List.mem_append_right _ hpath
      -- a prepared path is one of the changed files
      rw [(snapshots_eq _).2.1, hprepared.prepared] at hp
      exact List.mem_append_left _ (List.fst_mem_of_mem_zipIdx hp)
    cases hlast : mutate ((removals bundle removePaths).foldl snapshot r) (removals bundle removePaths) with
    | error r' =>
      refine .inr (.inl ⟨_, r', ?_, hmutate.error hlast⟩)
      unfold replaceBundle
      dsimp only
      rw [hprepare]
      dsimp only
      rw [hlast]
    | ok r' =>
      refine .inr (.inr ⟨r, r', ?_, hprepared, (hmutate.ok hlast).tidy, hlast⟩)
      unfold replaceBundle
      dsimp only
      rw [hprepare]
      dsimp only
      rw [hlast]

theorem replaced_of_mutate (hnodup : (bundle.map Listed.path).Nodup)
    (hprepared : Prepared old (changedFiles old bundle) r)
    (hmutate : mutate ((removals bundle removePaths).foldl snapshot r) (removals bundle removePaths) =
      .ok r') :
    Replaced old bundle removePaths r'.disk.files ((changedFiles old bundle).map Listed.path ++
      (removals bundle removePaths).filter fun path ↦ (r'.previous path).join.isSome) := by
  obtain ⟨hdisk, hlist, -, -, hsnapshot⟩ := snapshots_eq (r := r) (removals bundle removePaths)
  obtain ⟨r₁, hr₁, hmutate⟩ := bind_ok hmutate
  obtain ⟨r₂, hr₂, hmutate⟩ := bind_ok hmutate
  obtain ⟨hlast, hlastprevious⟩ := attempts_ok hmutate
  obtain ⟨hremoved, hremovedprevious⟩ := unlinks_ok hr₂
  rw [hlist, hprepared.prepared] at hr₁
  obtain ⟨hwritten, hwrittenprevious⟩ := renames_ok 0 (fun n => by
    rw [hdisk, Nat.zero_add]
    exact hprepared.temps n) hr₁
  -- the files in the end
  have hnew : ∀ path, r'.disk.files path =
      if path ∈ removals bundle removePaths then none
      else writeAll old (changedFiles old bundle) path := by
    intro path
    rw [hlast, hremoved path, hwritten, hdisk, hprepared.files]
  have hprevious : ∀ path ∈ removals bundle removePaths, r'.previous path = some (old path) := by
    intro path hpath
    rw [hlastprevious, hremovedprevious, hwrittenprevious, hsnapshot path, if_pos hpath, hprepared.files]
  have hnodup' : ((changedFiles old bundle).map Listed.path).Nodup :=
    hnodup.sublist (List.filter_sublist.map _)
  have hchangedpath : ∀ path, path ∈ (changedFiles old bundle).map Listed.path →
      path ∉ removals bundle removePaths := by
    intro path hpath hmem
    obtain ⟨f, hf, rfl⟩ := List.mem_map.mp hpath
    exact (mem_removals.mp hmem).2 (List.mem_map_of_mem (mem_changedFiles.mp hf).1)
  have hwrites : ∀ f ∈ changedFiles old bundle, r'.disk.files f.path = some f.file := by
    intro f hf
    rw [hnew f.path, if_neg (hchangedpath f.path (List.mem_map_of_mem hf)), writeAll_of_mem hnodup' hf]
  have hsame : ∀ path, path ∉ (changedFiles old bundle).map Listed.path →
      path ∉ removals bundle removePaths → r'.disk.files path = old path := by
    intro path hnot hnot'
    rw [hnew path, if_neg hnot', writeAll_of_notMem hnot]
  refine ⟨fun f hf => ?_, fun path hpath hnot => ?_, fun path hnot hnot' => ?_, fun path => ?_⟩
  · by_cases hdiffers : old f.path = some f.file
    · -- an unchanged file stays as it is
      rw [hsame f.path ?_ ?_, hdiffers]
      · intro hmem
        obtain ⟨g, hg, heq⟩ := List.mem_map.mp hmem
        obtain ⟨hg, hne⟩ := mem_changedFiles.mp hg
        obtain rfl := List.inj_on_of_nodup_map hnodup hg hf heq
        exact hne hdiffers
      · exact fun hmem => (mem_removals.mp hmem).2 (List.mem_map_of_mem hf)
    · exact hwrites f (mem_changedFiles.mpr ⟨hf, hdiffers⟩)
  · rw [hnew path, if_pos (mem_removals.mpr ⟨hpath, hnot⟩)]
  · refine hsame path (fun hmem => hnot ?_) fun hmem => hnot' (mem_removals.mp hmem).1
    obtain ⟨f, hf, rfl⟩ := List.mem_map.mp hmem
    exact List.mem_map_of_mem (mem_changedFiles.mp hf).1
  · rw [List.mem_append, List.mem_filter]
    constructor
    · rintro (hmem | ⟨hmem, hsome⟩)
      · obtain ⟨f, hf, rfl⟩ := List.mem_map.mp hmem
        rw [hwrites f hf]
        exact (mem_changedFiles.mp hf).2.symm
      · rw [hprevious path hmem] at hsome
        rw [hnew path, if_pos hmem]
        intro hnone
        rw [← hnone] at hsome
        cases hsome
    · intro hne
      by_cases hmem : path ∈ (changedFiles old bundle).map Listed.path
      · exact .inl hmem
      · right
        by_cases hmem' : path ∈ removals bundle removePaths
        · refine ⟨hmem', ?_⟩
          rw [hprevious path hmem']
          rw [hnew path, if_pos hmem'] at hne
          exact Option.isSome_iff_ne_none.mpr hne.symm
        · exact absurd (hsame path hmem hmem') hne

theorem replaced_of_some (hnodup : (bundle.map Listed.path).Nodup) {changed : List Text}
    (h : replaceBundle old bundle removePaths fault = (d, some changed)) :
    Replaced old bundle removePaths d.files changed := by
  obtain ⟨r, hr, -⟩ | ⟨tracked, r, hr, -⟩ | ⟨r, r', hr, hprepared, -, hmutate⟩ :=
    replaceBundle_cases old bundle removePaths fault
  · cases hr.symm.trans h
  · cases hr.symm.trans h
  · obtain ⟨rfl, hchanged⟩ := Prod.mk.inj (hr.symm.trans h)
    obtain rfl := Option.some.inj hchanged
    rw [files_cleanup]
    exact replaced_of_mutate hnodup hprepared hmutate

theorem replaceBundle_unfailing (old : Files) (bundle : List Listed) (removePaths : Finset Text) :
    (replaceBundle old bundle removePaths none).2.isSome := by
  unfold replaceBundle
  obtain ⟨r, hr, hfault⟩ := Unfailing.foldlM (r := Run.start old none) rfl
    (fun s f => prepare_unfailing f) (changedFiles old bundle)
  have hfault' : ((removals bundle removePaths).foldl snapshot r).fault = none :=
    (snapshots_eq _).2.2.2.1.trans hfault
  obtain ⟨r', hr', -⟩ := mutate_unfailing (removals bundle removePaths) hfault'
  dsimp only
  rw [hr]
  dsimp only
  rw [hr']
  rfl

def demoFiles : Files := fun path ↦
  if path = "/v2/a".toList then some ⟨[0], 0o600⟩
  else if path = "/v2/b".toList then some ⟨[0], 0o640⟩
  else if path = "/v2/kept".toList then some ⟨[7], 0o600⟩
  else none

def demoBundle : List Listed := [⟨"/v2/b".toList, [1], 0o640⟩, ⟨"/v2/c".toList, [2], 0o600⟩]

end NixNas.Apply
